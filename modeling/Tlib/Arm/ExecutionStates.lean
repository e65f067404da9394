import Mathlib.Tactic.FinCases
import Mathlib.Tactic.IntervalCases
import Tlib.Arm.RefusedModes

/-!
Contract: the AArch32 registers as seen from AArch64.

Owns: `aarch64_sync_32_to_64` and `aarch64_sync_64_to_32`, the X register that stands for each
register of each mode, and when the two sides agree after an exception and after a return. Does not
own: the change of the execution state around the copies.
-/

namespace Tlib.Arm.ExecutionStates

open Function Tlib.Arm.ModeBanks Tlib.Arm.RefusedModes

abbrev XRegs := Nat → BitVec 64

/-- The copy that goes to an X register from X16 on. -/
def bankedCopy (f : RegisterFile) : Nat → Option Word
  | 16 => some (f.bankedR14 4)
  | 17 => some (f.bankedR13 4)
  | 18 => some (f.bankedR14 1)
  | 19 => some (f.bankedR13 1)
  | 20 => some (f.bankedR14 2)
  | 21 => some (f.bankedR13 2)
  | 22 => some (f.bankedR14 3)
  | 23 => some (f.bankedR13 3)
  | 24 => some (f.fiqRegs 0)
  | 25 => some (f.fiqRegs 1)
  | 26 => some (f.fiqRegs 2)
  | 27 => some (f.fiqRegs 3)
  | 28 => some (f.fiqRegs 4)
  | 29 => some (f.bankedR13 5)
  | 30 => some (f.bankedR14 5)
  | _ => none

/-- `aarch64_sync_32_to_64` -/
def sync32To64 (f : RegisterFile) (xregs : XRegs) : XRegs := fun n =>
  if n < 15 then (f.regs n).setWidth 64
  else
    match bankedCopy f n with
    | some copy => copy.setWidth 64
    | none => xregs n

/-- `aarch64_sync_64_to_32` -/
def sync64To32 (f : RegisterFile) (xregs : XRegs) (pc : BitVec 64) : RegisterFile :=
  { f with
    regs := fun r =>
      if r < 15 then (xregs r).setWidth 32 else if r = 15 then pc.setWidth 32 else f.regs r
    bankedR13 := fun bank =>
      match bank with
      | 4 => (xregs 17).setWidth 32
      | 1 => (xregs 19).setWidth 32
      | 2 => (xregs 21).setWidth 32
      | 3 => (xregs 23).setWidth 32
      | 5 => (xregs 29).setWidth 32
      | bank => f.bankedR13 bank
    bankedR14 := fun bank =>
      match bank with
      | 4 => (xregs 16).setWidth 32
      | 1 => (xregs 18).setWidth 32
      | 2 => (xregs 20).setWidth 32
      | 3 => (xregs 22).setWidth 32
      | 5 => (xregs 30).setWidth 32
      | bank => f.bankedR14 bank
    fiqRegs := fun i => (xregs (24 + i)).setWidth 32 }

def xRegister : ArchReg → Option Nat
  | .low r => some r
  | .usr i => some (8 + i)
  | .fiq i => some (24 + i)
  | .r13 0 => some 13
  | .r13 1 => some 19
  | .r13 2 => some 21
  | .r13 3 => some 23
  | .r13 4 => some 17
  | .r13 5 => some 29
  | .r13 6 => some 15
  | .r14 0 => some 14
  | .r14 1 => some 18
  | .r14 2 => some 20
  | .r14 3 => some 22
  | .r14 4 => some 16
  | .r14 5 => some 30
  | _ => none

def Agree (f : RegisterFile) (mode : Mode) (xregs : XRegs) : Prop :=
  ∀ a n, xRegister a = some n → (xregs n).setWidth 32 = f.view banking mode a

/-- The registers in use and the saved copies that are read instead of them. -/
structure EntryFits (f : RegisterFile) (mode : Mode) (xregs : XRegs) : Prop where
  hyp : (xregs 15).setWidth 32 = f.view banking mode (.r13 6)
  high : mode = modeFiq → f.usrRegs = highRegs f.regs ∧ f.fiqRegs = highRegs f.regs
  r13 : ∀ b, bankNumber mode = some b → b ≠ 0 →
    f.bankedR13 0 = f.regs 13 ∧ (b < 6 → f.bankedR13 b = f.regs 13)
  r14 : ∀ b, r14BankNumber mode = some b → b ≠ 0 →
    f.bankedR14 0 = f.regs 14 ∧ (b < 6 → f.bankedR14 b = f.regs 14)

/-- The bank in use is in `regs`, and what is never written fits. -/
structure ReturnFits (f : RegisterFile) (mode : Mode) (xregs : XRegs) : Prop where
  high : mode = modeFiq → ∀ i : Fin 5, f.usrRegs i = (xregs (8 + i)).setWidth 32 ∧
    (xregs (24 + i)).setWidth 32 = (xregs (8 + i)).setWidth 32
  hyp : bankNumber mode ≠ some 6 → f.bankedR13 6 = (xregs 15).setWidth 32
  r13 : ∀ b, bankNumber mode = some b → b ≠ 0 → f.bankedR13 0 = (xregs 13).setWidth 32 ∧
    ∀ n, xRegister (.r13 b) = some n → (xregs n).setWidth 32 = (xregs 13).setWidth 32
  r14 : ∀ b, r14BankNumber mode = some b → b ≠ 0 → f.bankedR14 0 = (xregs 14).setWidth 32 ∧
    ∀ n, xRegister (.r14 b) = some n → (xregs n).setWidth 32 = (xregs 14).setWidth 32

section Entry

variable {f : RegisterFile} {mode : Mode} {xregs : XRegs} {pc : BitVec 64}

theorem sync_low (n : Nat) : (sync32To64 f xregs n).setWidth 32 =
    if n < 15 then f.regs n else (bankedCopy f n).getD ((xregs n).setWidth 32) := by
  have narrow (w : Word) : (w.setWidth 64).setWidth 32 = w := by simp
  unfold sync32To64
  split_ifs
  · exact narrow _
  · cases bankedCopy f n with
    | none => rfl
    | some copy => exact narrow copy

theorem sync_fiq (i : Fin 5) : (sync32To64 f xregs (24 + i)).setWidth 32 = f.fiqRegs i := by
  rw [sync_low]
  fin_cases i <;> rfl

theorem sync_r13 {k n : Nat} (has : xRegister (.r13 k) = some n) :
    (sync32To64 f xregs n).setWidth 32 =
      if k = 0 then f.regs 13 else if k = 6 then (xregs 15).setWidth 32 else f.bankedR13 k := by
  rcases k with _ | _ | _ | _ | _ | _ | _ | k <;> cases has <;> exact sync_low _

theorem sync_r14 {k n : Nat} (has : xRegister (.r14 k) = some n) :
    (sync32To64 f xregs n).setWidth 32 = if k = 0 then f.regs 14 else f.bankedR14 k := by
  rcases k with _ | _ | _ | _ | _ | _ | k <;> cases has <;> exact sync_low _

theorem r13_has {k : Nat} (less : k < 7) : ∃ n, xRegister (.r13 k) = some n := by
  interval_cases k <;> exact ⟨_, rfl⟩

theorem r14_has {k : Nat} (less : k < 6) : ∃ n, xRegister (.r14 k) = some n := by
  interval_cases k <;> exact ⟨_, rfl⟩

theorem xRegister_r13_lt {k n : Nat} (has : xRegister (.r13 k) = some n) (notHyp : k ≠ 6) :
    k < 6 := by
  rcases k with _ | _ | _ | _ | _ | _ | _ | k <;> first | omega | cases has

theorem xRegister_r14_lt {k n : Nat} (has : xRegister (.r14 k) = some n) : k < 6 := by
  rcases k with _ | _ | _ | _ | _ | _ | k <;> first | omega | cases has

theorem entry_iff (legal : ∃ b, bankNumber mode = some b) :
    Agree f mode (sync32To64 f xregs) ↔ EntryFits f mode xregs := by
  constructor
  · intro agree
    refine ⟨(@sync_r13 f xregs 6 15 rfl).symm.trans (agree (.r13 6) 15 rfl),
      fun fiq => ⟨?_, ?_⟩, ?_, ?_⟩
    · funext i
      have same := (sync_low (8 + i)).symm.trans (agree (.usr i) (8 + i) rfl)
      rw [if_pos (by omega), RegisterFile.view, if_pos fiq] at same
      exact same.symm
    · funext i
      have same := (sync_fiq i).symm.trans (agree (.fiq i) (24 + i) rfl)
      rwa [RegisterFile.view, if_pos fiq] at same
    · intro b bank notUser
      have user : f.regs 13 = _ := (@sync_r13 f xregs 0 13 rfl).symm.trans (agree (.r13 0) 13 rfl)
      rw [RegisterFile.view, banking_bank, bank, if_neg (by simpa using notUser)] at user
      refine ⟨user.symm, fun less => ?_⟩
      obtain ⟨n, has⟩ := r13_has (by omega : b < 7)
      have own := (sync_r13 has).symm.trans (agree (.r13 b) n has)
      rwa [if_neg notUser, if_neg (by omega), RegisterFile.view, banking_bank, bank,
        if_pos rfl] at own
    · intro b bank notUser
      have user : f.regs 14 = _ := (@sync_r14 f xregs 0 14 rfl).symm.trans (agree (.r14 0) 14 rfl)
      rw [RegisterFile.view, banking_r14Bank, bank, if_neg (by simpa using notUser)] at user
      refine ⟨user.symm, fun less => ?_⟩
      obtain ⟨n, has⟩ := r14_has less
      have own := (sync_r14 has).symm.trans (agree (.r14 b) n has)
      rwa [if_neg notUser, RegisterFile.view, banking_r14Bank, bank, if_pos rfl] at own
  · intro fits a n has
    cases a with
    | low r =>
      cases has
      rw [sync_low, if_pos (by omega)]
      rfl
    | usr i =>
      cases has
      rw [sync_low, if_pos (by omega), RegisterFile.view]
      split_ifs with fiq
      · rw [(fits.high fiq).1]
        rfl
      · rfl
    | fiq i =>
      cases has
      rw [sync_fiq, RegisterFile.view]
      split_ifs with fiq
      · rw [(fits.high fiq).2]
        rfl
      · rfl
    | r13 k =>
      rw [sync_r13 has]
      by_cases isHyp : k = 6
      · rw [if_neg (by omega), if_pos isHyp, isHyp]
        exact fits.hyp
      rw [if_neg isHyp, RegisterFile.view, banking_bank]
      split_ifs with isUser inUse inUse
      · rfl
      · obtain ⟨b, bank⟩ := legal
        rw [isUser] at inUse ⊢
        exact (fits.r13 b bank (fun eq => inUse (eq ▸ bank))).1.symm
      · exact (fits.r13 k inUse isUser).2 (xRegister_r13_lt has isHyp)
      · rfl
    | r14 k =>
      rw [sync_r14 has, RegisterFile.view, banking_r14Bank]
      split_ifs with isUser inUse inUse
      · rfl
      · obtain ⟨b, bank⟩ := legal
        obtain ⟨j, r14Bank⟩ := r14Bank_of_bank bank
        rw [isUser] at inUse ⊢
        exact (fits.r14 j r14Bank (fun eq => inUse (eq ▸ r14Bank))).1.symm
      · exact (fits.r14 k inUse isUser).2 (xRegister_r14_lt has)
      · rfl
    | spsr k => cases has

/-! ### The way back -/

theorem back_r13 {k n : Nat} (has : xRegister (.r13 k) = some n) (notUser : k ≠ 0)
    (notHyp : k ≠ 6) : (sync64To32 f xregs pc).bankedR13 k = (xregs n).setWidth 32 := by
  rcases k with _ | _ | _ | _ | _ | _ | _ | k <;> cases has <;> first | rfl | omega

theorem back_r14 {k n : Nat} (has : xRegister (.r14 k) = some n) (notUser : k ≠ 0) :
    (sync64To32 f xregs pc).bankedR14 k = (xregs n).setWidth 32 := by
  rcases k with _ | _ | _ | _ | _ | _ | k <;> cases has <;> first | rfl | omega

theorem back_regs {r : Nat} (less : r < 15) :
    (sync64To32 f xregs pc).regs r = (xregs r).setWidth 32 := if_pos less

theorem return_iff (legal : ∃ b, bankNumber mode = some b) :
    Agree (sync64To32 f xregs pc) mode xregs ↔ ReturnFits f mode xregs := by
  constructor
  · intro agree
    refine ⟨fun fiq i => ⟨?_, ?_⟩, fun notHyp => ?_, ?_, ?_⟩
    · have same := agree (.usr i) (8 + i) rfl
      rw [RegisterFile.view, if_pos fiq] at same
      exact same.symm
    · have same := agree (.fiq i) (24 + i) rfl
      rwa [RegisterFile.view, if_pos fiq, back_regs (by omega)] at same
    · have same := agree (.r13 6) 15 rfl
      rw [RegisterFile.view, banking_bank, if_neg notHyp] at same
      exact same.symm
    · intro b bank notUser
      have user := agree (.r13 0) 13 rfl
      rw [RegisterFile.view, banking_bank, bank, if_neg (by simpa using notUser)] at user
      refine ⟨user.symm, fun n has => ?_⟩
      have own := agree (.r13 b) n has
      rwa [RegisterFile.view, banking_bank, bank, if_pos rfl, back_regs (by decide)] at own
    · intro b bank notUser
      have user := agree (.r14 0) 14 rfl
      rw [RegisterFile.view, banking_r14Bank, bank, if_neg (by simpa using notUser)] at user
      refine ⟨user.symm, fun n has => ?_⟩
      have own := agree (.r14 b) n has
      rwa [RegisterFile.view, banking_r14Bank, bank, if_pos rfl, back_regs (by decide)] at own
  · intro fits a n has
    cases a with
    | low r => cases has; exact (back_regs (by omega)).symm
    | usr i =>
      cases has
      rw [RegisterFile.view]
      split_ifs with fiq
      · exact (fits.high fiq i).1.symm
      · exact (back_regs (by omega)).symm
    | fiq i =>
      cases has
      rw [RegisterFile.view]
      split_ifs with fiq
      · exact (fits.high fiq i).2.trans (back_regs (by omega)).symm
      · rfl
    | r13 k =>
      rw [RegisterFile.view, banking_bank]
      split_ifs with inUse
      · rw [back_regs (by decide)]
        by_cases isUser : k = 0
        · rw [isUser] at has
          cases has
          rfl
        · exact (fits.r13 k inUse isUser).2 n has
      · by_cases isUser : k = 0
        · obtain ⟨b, bank⟩ := legal
          rw [isUser] at has inUse ⊢
          cases has
          exact (fits.r13 b bank (fun eq => inUse (eq ▸ bank))).1.symm
        · by_cases isHyp : k = 6
          · rw [isHyp] at has inUse ⊢
            cases has
            exact (fits.hyp inUse).symm
          · exact (back_r13 has isUser isHyp).symm
    | r14 k =>
      rw [RegisterFile.view, banking_r14Bank]
      split_ifs with inUse
      · rw [back_regs (by decide)]
        by_cases isUser : k = 0
        · rw [isUser] at has
          cases has
          rfl
        · exact (fits.r14 k inUse isUser).2 n has
      · by_cases isUser : k = 0
        · obtain ⟨b, bank⟩ := legal
          obtain ⟨j, r14Bank⟩ := r14Bank_of_bank bank
          rw [isUser] at has inUse ⊢
          cases has
          exact (fits.r14 j r14Bank (fun eq => inUse (eq ▸ r14Bank))).1.symm
        · exact (back_r14 has isUser).symm
    | spsr k => cases has

theorem sync_sync : sync64To32 f (sync32To64 f xregs) ((f.regs 15).setWidth 64) = f := by
  have narrow (w : Word) : (w.setWidth 64).setWidth 32 = w := by simp
  unfold sync64To32
  congr 1
  · funext r
    split_ifs with less isPc
    · rw [sync_low, if_pos less]
    · rw [isPc, narrow]
    · rfl
  · funext k
    split <;> first | exact sync_low _ | rfl
  · funext k
    split <;> first | exact sync_low _ | rfl
  · exact funext sync_fiq

/-- At an exception every register is in its X register exactly when the entry fits, after a return
every register has the value of its X register exactly when the return fits, and an exception with
a return to the interrupted mode changes no register. -/
theorem states_agree_iff (f : RegisterFile) (mode : Mode) (legal : ∃ b, bankNumber mode = some b)
    (xregs : XRegs) (pc : BitVec 64) :
    (Agree f mode (sync32To64 f xregs) ↔ EntryFits f mode xregs) ∧
    (Agree (sync64To32 f xregs pc) mode xregs ↔ ReturnFits f mode xregs) ∧
    sync64To32 f (sync32To64 f xregs) ((f.regs 15).setWidth 64) = f :=
  ⟨entry_iff legal, return_iff legal, sync_sync⟩

end Entry

def svcFile : RegisterFile :=
  ⟨fun _ => 1, 0, fun _ => 0, fun _ => 0, fun _ => 0, fun _ => 0, fun _ => 0⟩

/-- In USR nothing is hidden behind the registers in use. -/
theorem states_agree_iff_user :
    (∃ b, bankNumber modeUsr = some b) ∧ Agree svcFile modeUsr (sync32To64 svcFile fun _ => 0) :=
  have legal : ∃ b, bankNumber modeUsr = some b := ⟨0, rfl⟩
  ⟨legal, (states_agree_iff svcFile modeUsr legal (fun _ => 0) 0).1.mpr
    ⟨rfl, fun fiq => absurd fiq (by decide), fun _ bank ne => absurd (Option.some.inj bank).symm ne,
      fun _ bank ne => absurd (Option.some.inj bank).symm ne⟩⟩

/-- The stack pointer of SVC is in `regs`, but X19 gets the stale copy. -/
theorem svc_stale : ¬Agree svcFile 0x13 (sync32To64 svcFile fun _ => 0) := by
  intro agree
  have same := agree (.r13 1) 19 rfl
  revert same
  decide

end Tlib.Arm.ExecutionStates
