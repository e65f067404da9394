import Mathlib.Data.BitVec
import Mathlib.Logic.Function.Basic

/-!
Contract: the registers of an AArch32 core and the banks behind them.

Owns: the registers in use with their saved copies, `switch_mode`, and the register file that they
stand for. Does not own: which writes change the mode.
-/

namespace Tlib.Arm.ModeBanks

open Function BitVec

abbrev Word := BitVec 32

/-- `CPSR_M` -/
abbrev Mode := BitVec 5

def modeUsr : Mode := 0x10
def modeFiq : Mode := 0x11

/-- The maps of a core from modes to banks; `none` is `cpu_abort`. -/
structure Banking where
  (bankNumber r14BankNumber : Mode → Option Nat)

/-- The fields of `env` for the registers: `regs` and `spsr` are those in use. -/
structure RegisterFile where
  regs : Nat → Word
  spsr : Word
  (bankedR13 bankedR14 bankedSpsr : Nat → Word)
  (usrRegs fiqRegs : Fin 5 → Word)

/-- `memcpy(.., env->regs + 8, ..)` -/
def highRegs (regs : Nat → Word) : Fin 5 → Word := fun i => regs (8 + i)

/-- `memcpy(env->regs + 8, .., ..)` -/
def setHighRegs (regs : Nat → Word) (high : Fin 5 → Word) : Nat → Word := fun r =>
  if inside : 8 ≤ r ∧ r < 13 then high ⟨r - 8, by omega⟩ else regs r

namespace RegisterFile

variable (B : Banking) (f : RegisterFile)

/-- The exchange of r8-r12. -/
def swapHigh (old mode : Mode) : RegisterFile :=
  if old = modeFiq then
    { f with fiqRegs := highRegs f.regs, regs := setHighRegs f.regs f.usrRegs }
  else if mode = modeFiq then
    { f with usrRegs := highRegs f.regs, regs := setHighRegs f.regs f.fiqRegs }
  else f

def saveBank (i j : Nat) : RegisterFile :=
  { f with
    bankedR13 := update f.bankedR13 i (f.regs 13)
    bankedR14 := update f.bankedR14 j (f.regs 14)
    bankedSpsr := update f.bankedSpsr i f.spsr }

def loadBank (i j : Nat) : RegisterFile :=
  { f with
    regs := update (update f.regs 13 (f.bankedR13 i)) 14 (f.bankedR14 j)
    spsr := f.bankedSpsr i }

/-- `switch_mode`; `old` is the mode in `uncached_cpsr`. -/
def switchMode (old mode : Mode) : Option RegisterFile :=
  if mode = old then some f
  else do
    let f := f.swapHigh old mode
    let f := f.saveBank (← B.bankNumber old) (← B.r14BankNumber old)
    some (f.loadBank (← B.bankNumber mode) (← B.r14BankNumber mode))

end RegisterFile

/-! ### The register file that is meant -/

/-- The registers of the architecture, r13, r14 and SPSR by their bank. -/
inductive ArchReg where
  | low (r : Fin 8)
  | usr (i : Fin 5)
  | fiq (i : Fin 5)
  | r13 (bank : Nat)
  | r14 (bank : Nat)
  | spsr (bank : Nat)
  deriving DecidableEq

/-- The numbers of registers in instructions, r15 aside. -/
inductive GeneralReg where
  | low (r : Fin 8)
  | high (i : Fin 5)
  | r13
  | r14
  deriving DecidableEq

def GeneralReg.index : GeneralReg → Nat
  | low r => r
  | high i => 8 + i
  | r13 => 13
  | r14 => 14

def GeneralReg.named (mode : Mode) (bank r14Bank : Nat) : GeneralReg → ArchReg
  | low r => .low r
  | high i => if mode = modeFiq then .fiq i else .usr i
  | r13 => .r13 bank
  | r14 => .r14 r14Bank

namespace RegisterFile

variable (f : RegisterFile)

def setReg (r : GeneralReg) (val : Word) : RegisterFile :=
  { f with regs := update f.regs r.index val }

def setBankedR13 (bank : Nat) (val : Word) : RegisterFile :=
  { f with bankedR13 := update f.bankedR13 bank val }

def setBankedR14 (bank : Nat) (val : Word) : RegisterFile :=
  { f with bankedR14 := update f.bankedR14 bank val }

def setUsrReg (i : Fin 5) (val : Word) : RegisterFile :=
  { f with usrRegs := update f.usrRegs i val }

end RegisterFile

/-- The last value written to each register: the one in use, or the saved copy. -/
def RegisterFile.view (B : Banking) (f : RegisterFile) (mode : Mode) : ArchReg → Word
  | .low r => f.regs r
  | .usr i => if mode = modeFiq then f.usrRegs i else f.regs (8 + i)
  | .fiq i => if mode = modeFiq then f.regs (8 + i) else f.fiqRegs i
  | .r13 bank => if B.bankNumber mode = some bank then f.regs 13 else f.bankedR13 bank
  | .r14 bank => if B.r14BankNumber mode = some bank then f.regs 14 else f.bankedR14 bank
  | .spsr bank => if B.bankNumber mode = some bank then f.spsr else f.bankedSpsr bank

theorem setHighRegs_high (regs : Nat → Word) (high : Fin 5 → Word) (i : Fin 5) :
    setHighRegs regs high (8 + i) = high i := by
  rw [setHighRegs, dif_pos (by omega)]
  congr 1
  ext
  exact Nat.add_sub_cancel_left 8 i

theorem setHighRegs_other (regs : Nat → Word) (high : Fin 5 → Word) {r : Nat}
    (outside : r < 8 ∨ 13 ≤ r) : setHighRegs regs high r = regs r := by
  rw [setHighRegs, dif_neg (by omega)]

namespace RegisterFile

variable {B : Banking} {f f' : RegisterFile} {mode old : Mode}

attribute [local simp] view

theorem swapHigh_regs {r : Nat} (outside : r < 8 ∨ 13 ≤ r) :
    (f.swapHigh old mode).regs r = f.regs r := by
  unfold swapHigh
  split_ifs
  · exact setHighRegs_other _ _ outside
  · exact setHighRegs_other _ _ outside
  · rfl

theorem swapHigh_banked :
    (f.swapHigh old mode).bankedR13 = f.bankedR13 ∧ (f.swapHigh old mode).bankedR14 = f.bankedR14 ∧
      (f.swapHigh old mode).bankedSpsr = f.bankedSpsr ∧ (f.swapHigh old mode).spsr = f.spsr := by
  unfold swapHigh
  split_ifs <;> exact ⟨rfl, rfl, rfl, rfl⟩

theorem swapHigh_usr (differ : mode ≠ old) (i : Fin 5) :
    (if mode = modeFiq then (f.swapHigh old mode).usrRegs i
      else (f.swapHigh old mode).regs (8 + i)) =
      if old = modeFiq then f.usrRegs i else f.regs (8 + i) := by
  unfold swapHigh
  by_cases fromFiq : old = modeFiq
  · rw [if_neg (fun toFiq => differ (toFiq.trans fromFiq.symm)), if_pos fromFiq, if_pos fromFiq]
    exact setHighRegs_high _ _ i
  · rw [if_neg fromFiq, if_neg fromFiq]
    split_ifs <;> rfl

theorem swapHigh_fiq (differ : mode ≠ old) (i : Fin 5) :
    (if mode = modeFiq then (f.swapHigh old mode).regs (8 + i)
      else (f.swapHigh old mode).fiqRegs i) =
      if old = modeFiq then f.regs (8 + i) else f.fiqRegs i := by
  unfold swapHigh
  by_cases fromFiq : old = modeFiq
  · rw [if_neg (fun toFiq => differ (toFiq.trans fromFiq.symm)), if_pos fromFiq, if_pos fromFiq]
    rfl
  · rw [if_neg fromFiq, if_neg fromFiq]
    split_ifs
    · exact setHighRegs_high _ _ i
    · rfl

theorem loadBank_regs (i j : Nat) {r : Nat} (less : r < 13) : (f.loadBank i j).regs r = f.regs r :=
  (update_of_ne (by omega) _ _).trans (update_of_ne (by omega) _ _)

theorem loadBank_r13 (i j : Nat) : (f.loadBank i j).regs 13 = f.bankedR13 i := by
  simp [loadBank]

theorem loadBank_r14 (i j : Nat) : (f.loadBank i j).regs 14 = f.bankedR14 j := by
  simp [loadBank]

theorem banked_switched {saved : Nat → Word} {live : Word} {i i' : Nat} (bank : Nat) :
    (if some i' = some bank then update saved i live i' else update saved i live bank) =
      if some i = some bank then live else saved bank := by
  have first : (if some i' = some bank then update saved i live i'
      else update saved i live bank) = update saved i live bank := by
    split_ifs with same
    · rw [Option.some.inj same]
    · rfl
  rw [first]
  by_cases same : bank = i
  · rw [same, update_self, if_pos rfl]
  · rw [update_of_ne same, if_neg (fun eq => same (Option.some.inj eq).symm)]

theorem switchMode_view {i j i' j' : Nat} (fromBank : B.bankNumber old = some i)
    (fromR14 : B.r14BankNumber old = some j) (toBank : B.bankNumber mode = some i')
    (toR14 : B.r14BankNumber mode = some j') :
    ∃ f', f.switchMode B old mode = some f' ∧ f'.view B mode = f.view B old := by
  unfold switchMode
  by_cases same : mode = old
  · rw [if_pos same, same]
    exact ⟨f, rfl, rfl⟩
  rw [if_neg same, fromBank, fromR14, toBank, toR14]
  refine ⟨_, rfl, funext fun a => ?_⟩
  obtain ⟨r13, r14, spsr, live⟩ := @swapHigh_banked f mode old
  cases a with
  | low r => exact (loadBank_regs _ _ (by omega)).trans (swapHigh_regs (Or.inl r.isLt))
  | usr i =>
    rw [view, view, ← swapHigh_usr same]
    exact if_congr Iff.rfl rfl (loadBank_regs _ _ (by omega))
  | fiq i =>
    rw [view, view, ← swapHigh_fiq same]
    exact if_congr Iff.rfl (loadBank_regs _ _ (by omega)) rfl
  | r13 bank =>
    have inUse : (f.swapHigh old mode).regs 13 = f.regs 13 := swapHigh_regs (Or.inr (by decide))
    rw [view, view, toBank, fromBank, ← @banked_switched f.bankedR13 _ i i' bank, ← r13, ← inUse]
    exact if_congr Iff.rfl (loadBank_r13 _ _) rfl
  | r14 bank =>
    have inUse : (f.swapHigh old mode).regs 14 = f.regs 14 := swapHigh_regs (Or.inr (by decide))
    rw [view, view, toR14, fromR14, ← @banked_switched f.bankedR14 _ j j' bank, ← r14, ← inUse]
    exact if_congr Iff.rfl (loadBank_r14 _ _) rfl
  | spsr bank =>
    rw [view, view, toBank, fromBank, ← @banked_switched f.bankedSpsr _ i i' bank, ← spsr, ← live]
    rfl

theorem regs_index {bank r14Bank : Nat} (isBank : B.bankNumber mode = some bank)
    (isR14Bank : B.r14BankNumber mode = some r14Bank) (r : GeneralReg) :
    f.regs r.index = f.view B mode (r.named mode bank r14Bank) := by
  cases r with
  | low r => rfl
  | high i =>
    unfold GeneralReg.named
    split_ifs with fiq
    · exact (if_pos fiq).symm
    · exact (if_neg fiq).symm
  | r13 => exact (if_pos isBank).symm
  | r14 => exact (if_pos isR14Bank).symm

theorem setReg_self (r : GeneralReg) : f.setReg r (f.regs r.index) = f := by
  rw [setReg, update_eq_self]

theorem setReg_view {bank r14Bank : Nat} (isBank : B.bankNumber mode = some bank)
    (isR14Bank : B.r14BankNumber mode = some r14Bank) (r : GeneralReg) (val : Word) :
    (f.setReg r val).view B mode = update (f.view B mode) (r.named mode bank r14Bank) val := by
  funext a
  cases r <;> cases a <;>
    simp only [view, setReg, GeneralReg.named, GeneralReg.index, update_apply, isBank, isR14Bank] <;>
    grind

theorem setBankedR13_view {bank i : Nat} {val : Word} (isBank : B.bankNumber mode = some bank)
    (fits : bank = i → f.regs 13 = val) :
    (f.setBankedR13 i val).view B mode = update (f.view B mode) (.r13 i) val := by
  funext a
  cases a <;> simp only [view, setBankedR13, update_apply, isBank] <;> grind

theorem setBankedR14_view {bank i : Nat} {val : Word} (isBank : B.r14BankNumber mode = some bank)
    (fits : bank = i → f.regs 14 = val) :
    (f.setBankedR14 i val).view B mode = update (f.view B mode) (.r14 i) val := by
  funext a
  cases a <;> simp only [view, setBankedR14, update_apply, isBank] <;> grind

theorem setSpsr_view {bank : Nat} (isBank : B.bankNumber mode = some bank) (val : Word) :
    { f with spsr := val }.view B mode = update (f.view B mode) (.spsr bank) val := by
  funext a
  cases a <;> simp only [view, update_apply, isBank] <;> grind

theorem setUsrReg_view (fiq : mode = modeFiq) (i : Fin 5) (val : Word) :
    (f.setUsrReg i val).view B mode = update (f.view B mode) (.usr i) val := by
  funext a
  cases a <;> simp only [view, setUsrReg, update_apply, fiq] <;> grind

end RegisterFile

theorem written_mode {cached : Word} (none : ((~~~cached).setWidth 5 : Mode) = allOnes 5)
    (old val mask : Word) :
    ((old &&& ~~~(mask &&& ~~~cached)) ||| (val &&& (mask &&& ~~~cached))).setWidth 5 =
      (old.setWidth 5 &&& ~~~(mask.setWidth 5 : Mode)) ||| (val.setWidth 5 &&& mask.setWidth 5) := by
  rw [setWidth_or, setWidth_and, setWidth_not (by decide),
    setWidth_and, setWidth_and, setWidth_and, none, and_allOnes]

theorem and_modeBits (mode : Mode) : mode &&& 0x1f = mode := and_allOnes

end Tlib.Arm.ModeBanks
