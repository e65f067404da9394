import Tlib.CortexM.ExceptionReturn

/-!
Contract: lazy preservation of the floating-point context while handlers run.

Owns: what may run between an entry and its return, and that a pending frame is stored before its
registers change. Does not own: the entry and the return themselves.
-/

namespace Tlib.CortexM

open Tlib.Library.WordStack BitVec

variable {cpu cpu' : Cpu} {F : Features} {E : Environment}

/-! ### Alignment -/

def WordAligned (a : Word) : Prop := a.toNat % 4 = 0

def DoubleAligned (a : Word) : Prop := a.toNat % 8 = 0

instance (a : Word) : Decidable (WordAligned a) := inferInstanceAs (Decidable (_ = _))

instance (a : Word) : Decidable (DoubleAligned a) := inferInstanceAs (Decidable (_ = _))

theorem DoubleAligned.masked {a : Word} (aligned : DoubleAligned a) : a &&& 0xfffffff8#32 = a := by
  unfold DoubleAligned at aligned
  apply eq_of_getLsbD_eq
  intro i inside
  rw [getLsbD_and]
  rcases Nat.lt_or_ge i 3 with low | high
  · have bit : a.getLsbD i = false := by
      have same : a.toNat.testBit i = (a.toNat % 2 ^ 3).testBit i := by
        rw [Nat.testBit_mod_two_pow, decide_eq_true low, Bool.true_and]
      unfold getLsbD
      rw [same, show 2 ^ 3 = 8 from rfl, aligned, Nat.zero_testBit]
    rw [bit, Bool.false_and]
  · have mask : ∀ j : Fin 32, 3 ≤ j.val → (0xfffffff8#32).getLsbD j = true := by decide
    rw [mask ⟨i, inside⟩ high, Bool.and_true]

theorem misaligned_iff (cpu : Cpu) : cpu.misaligned = true ↔ cpu.sp.toNat / 4 % 2 = 1 := by
  unfold Cpu.misaligned getLsbD
  rw [Nat.testBit_eq_decide_div_mod_eq, decide_eq_true_iff]

theorem frameTop_aligned (aligned : WordAligned cpu.sp) : DoubleAligned cpu.frameTop := by
  unfold WordAligned at aligned
  unfold DoubleAligned Cpu.frameTop
  split
  · rename_i odd
    rw [misaligned_iff] at odd
    rw [toNat_sub]
    simp only [toNat_ofNat]
    omega
  · rename_i even
    rw [misaligned_iff] at even
    omega

theorem fpBase_aligned (aligned : WordAligned cpu.sp) : DoubleAligned (cpu.fpBase F) := by
  have top := frameTop_aligned aligned
  unfold DoubleAligned at top
  have size : 4 * cpu.fpWords F = 0 ∨ 4 * cpu.fpWords F = 72 ∨ 4 * cpu.fpWords F = 136 := by
    unfold Cpu.fpWords Cpu.fpReservationWords Cpu.pushedFpWords
    cases cpu.fpca <;> cases cpu.lspen <;> cases cpu.ts <;> cases cpu.secure <;> cases F.v8 <;>
      decide
  have bound := cpu.frameTop.isLt
  unfold DoubleAligned Cpu.fpBase
  rw [toNat_sub, toNat_ofNat]
  rcases size with size | size | size <;> rw [size] <;> omega

/-! ### Contexts -/

/-- A floating-point context with a place on a stack. -/
structure FpFrame where
  /-- The Security state whose `FPCCR` and `FPCAR` describe it. -/
  bank : Bool
  base : Word
  words : List Word
  small : words.length ≤ 34

def FpFrame.Contains (frame : FpFrame) (b : Word) : Prop :=
  Within frame.base (4 * frame.words.length) b

/-- No lazy preservation is pending. -/
def Cpu.Quiet (cpu : Cpu) : Prop := ∀ bank, (cpu.fpccr bank).lspact = false

/-- The context is still in the registers. -/
structure FpFrame.Pending (F : Features) (frame : FpFrame) (cpu : Cpu) : Prop where
  active : (cpu.fpccr frame.bank).lspact = true
  only : (cpu.fpccr (!frame.bank)).lspact = false
  fpca : cpu.fpca = false
  owner : cpu.fpccrS = frame.bank
  place : cpu.fpcar frame.bank &&& 0xfffffff8#32 = frame.base
  words : cpu.lazyWords F frame.bank = frame.words

/-- Nothing is pending, or the one context that may be, and the memory holds it once stored. -/
def Preserved (F : Features) (level : Option FpFrame) (guarded : Prop) (cpu : Cpu) : Prop :=
  match level with
  | none => cpu.Quiet
  | some frame =>
    frame.Pending F cpu ∨ (cpu.Quiet ∧ (guarded → Holds cpu.memory frame.base frame.words))

/-- The floating-point unit is left alone, its registers and those that say who owns them. -/
structure KeepsFp (cpu cpu' : Cpu) : Prop where
  s : cpu'.s = cpu.s
  fpscr : cpu'.fpscr = cpu.fpscr
  vpr : cpu'.vpr = cpu.vpr
  ts : cpu'.ts = cpu.ts
  fpca : cpu'.fpca = cpu.fpca
  fpccrS : cpu'.fpccrS = cpu.fpccrS
  fpcar : cpu'.fpcar = cpu.fpcar
  lspact : ∀ bank, (cpu'.fpccr bank).lspact = (cpu.fpccr bank).lspact

theorem lazyWords_congr (keeps : KeepsFp cpu cpu') (bank : Bool) :
    cpu'.lazyWords F bank = cpu.lazyWords F bank := by
  unfold Cpu.lazyWords Cpu.lowWords Cpu.calleeWords Cpu.vprWord
  rw [keeps.s, keeps.fpscr, keeps.vpr, keeps.ts]

theorem lazyWords_length_le (cpu : Cpu) (bank : Bool) : (cpu.lazyWords F bank).length ≤ 34 := by
  unfold Cpu.lazyWords Cpu.lowWords Cpu.calleeWords
  split
  · split <;> simp
  · simp

theorem FpFrame.Pending.congr {frame : FpFrame} (pending : frame.Pending F cpu)
    (keeps : KeepsFp cpu cpu') : frame.Pending F cpu' := by
  constructor
  · rw [keeps.lspact]
    exact pending.active
  · rw [keeps.lspact]
    exact pending.only
  · rw [keeps.fpca]
    exact pending.fpca
  · rw [keeps.fpccrS]
    exact pending.owner
  · rw [keeps.fpcar]
    exact pending.place
  · rw [lazyWords_congr keeps]
    exact pending.words

theorem FpFrame.Pending.not_quiet {frame : FpFrame} (pending : frame.Pending F cpu) :
    ¬ cpu.Quiet := by
  intro quiet
  have active := pending.active
  rw [quiet frame.bank] at active
  cases active

theorem Cpu.Quiet.congr (quiet : cpu.Quiet)
    (same : ∀ bank, (cpu'.fpccr bank).lspact = (cpu.fpccr bank).lspact) : cpu'.Quiet :=
  fun bank => (same bank).trans (quiet bank)

variable {level : Option FpFrame} {guarded : Prop}

theorem Preserved.congr
    (preserved : Preserved F level guarded cpu) (keeps : KeepsFp cpu cpu')
    (agree : guarded → ∀ frame, level = some frame → Agree frame.Contains cpu.memory cpu'.memory) :
    Preserved F level guarded cpu' := by
  cases level with
  | none => exact Cpu.Quiet.congr preserved keeps.lspact
  | some frame =>
    rcases preserved with pending | ⟨quiet, stored⟩
    · exact .inl (pending.congr keeps)
    · refine .inr ⟨quiet.congr keeps.lspact, ?_⟩
      intro guard
      have few := frame.small
      exact (stored guard).of_agree (agree guard frame rfl) (by omega) (by decide)

theorem Preserved.weaken {guarded weaker : Prop}
    (preserved : Preserved F level guarded cpu) (weakens : weaker → guarded) :
    Preserved F level weaker cpu := by
  cases level with
  | none => exact preserved
  | some frame =>
    rcases preserved with pending | ⟨quiet, stored⟩
    · exact .inl pending
    · exact .inr ⟨quiet, fun weak => stored (weakens weak)⟩

theorem Preserved.written
    (preserved : Preserved F level guarded cpu) (quiet : cpu.Quiet)
    (lspact : ∀ bank, (cpu'.fpccr bank).lspact = (cpu.fpccr bank).lspact)
    (memory : cpu'.memory = cpu.memory) : Preserved F level guarded cpu' := by
  cases level with
  | none => exact quiet.congr lspact
  | some frame =>
    rcases preserved with pending | ⟨-, stored⟩
    · exact absurd quiet pending.not_quiet
    · apply Or.inr
      rw [memory]
      exact ⟨quiet.congr lspact, stored⟩

/-! ### The lazy store -/

theorem lspStoreHelper_done {address val : Word} {bank : Bool}
    (stored : (cpu.lspStoreHelper address val bank).2.2 = true) :
    cpu.lspStoreHelper address val bank =
      ({ cpu with memory := store cpu.memory address val }, address + 4#32, true) := by
  unfold Cpu.lspStoreHelper at stored ⊢
  split
  · rfl
  · simp at stored

theorem lspStoreAll_done {address : Word} {bank : Bool} {vals : List Word}
    (fine : (cpu.lspStoreAll address bank vals).2 = false) :
    (cpu.lspStoreAll address bank vals).1 =
      { cpu with memory := storeAll cpu.memory address vals } := by
  induction vals generalizing cpu address with
  | nil => rfl
  | cons val vals ih =>
    have both : (!(cpu.lspStoreHelper address val bank).2.2 ||
        ((cpu.lspStoreHelper address val bank).1.lspStoreAll
          (cpu.lspStoreHelper address val bank).2.1 bank vals).2) = false := fine
    rw [Bool.or_eq_false_iff, Bool.not_eq_false'] at both
    have first := lspStoreHelper_done both.1
    have rest := both.2
    rw [first] at rest
    show ((cpu.lspStoreHelper address val bank).1.lspStoreAll _ bank vals).1 = _
    rw [first, ih rest]
    rfl

/-- The state after a lazy store that is granted. -/
def Cpu.stored (cpu : Cpu) (frame : FpFrame) : Cpu :=
  { cpu.clearLspact with memory := storeAll cpu.memory frame.base frame.words }

theorem save_pending {frame : FpFrame} (pending : frame.Pending F cpu)
    (saved : cpu.fpLspSaveToStack F = .done cpu') :
    cpu' = (cpu.stored frame).invalidateVfpRegs (frame.bank && cpu.ts) := by
  have needed : cpu.needFpLazyStatePreservation = true := by
    unfold Cpu.needFpLazyStatePreservation
    rw [pending.owner]
    exact pending.active
  have place : cpu.lazyStores F =
      cpu.clearLspact.lspStoreAll frame.base frame.bank frame.words := by
    unfold Cpu.lazyStores
    rw [pending.owner, pending.place, pending.words]
  unfold Cpu.fpLspSaveToStack at saved
  rw [if_pos needed] at saved
  split at saved
  · cases saved
  · rename_i fine
    cases saved
    rw [place] at fine ⊢
    rw [lspStoreAll_done (Bool.eq_false_iff.mpr fine), pending.owner]
    rfl

theorem save_quiet (quiet : cpu.Quiet) (saved : cpu.fpLspSaveToStack F = .done cpu') :
    cpu' = cpu := by
  have done : cpu.needFpLazyStatePreservation = false := quiet _
  unfold Cpu.fpLspSaveToStack at saved
  rw [done] at saved
  cases saved
  rfl

theorem invalidateVfpRegs_memory (cpu : Cpu) (shouldClear : Bool) :
    (cpu.invalidateVfpRegs shouldClear).memory = cpu.memory ∧
      (cpu.invalidateVfpRegs shouldClear).fpccr = cpu.fpccr := by
  unfold Cpu.invalidateVfpRegs
  split <;> exact ⟨rfl, rfl⟩

theorem save_preserved {addresses : Word → Prop}
    (preserved : Preserved F level guarded cpu)
    (apart : ∀ frame, level = some frame → ∀ b, frame.Contains b → ¬ addresses b)
    (saved : cpu.fpLspSaveToStack F = .done cpu') :
    cpu'.Quiet ∧ Agree addresses cpu.memory cpu'.memory ∧ Preserved F level guarded cpu' := by
  cases level with
  | none =>
    rw [save_quiet preserved saved]
    exact ⟨preserved, Agree.refl _ _, preserved⟩
  | some frame =>
    rcases preserved with pending | ⟨quiet, stored⟩
    · have few := frame.small
      obtain ⟨memory, fpccr⟩ := invalidateVfpRegs_memory (cpu.stored frame)
        (frame.bank && cpu.ts)
      rw [save_pending pending saved]
      have quiet : ((cpu.stored frame).invalidateVfpRegs (frame.bank && cpu.ts)).Quiet := by
        intro bank
        rw [fpccr]
        rfl
      refine ⟨quiet, ?_, .inr ⟨quiet, ?_⟩⟩
      · intro b inside
        rw [memory]
        apply storeAll_outside _ (by omega)
        exact fun within => apart frame rfl b within inside
      · intro _
        rw [memory]
        exact storeAll_holds (by omega) (by decide)
    · rw [save_quiet quiet saved]
      exact ⟨quiet, Agree.refl _ _, .inr ⟨quiet, stored⟩⟩

/-! ### What runs between an entry and its return -/

/-- The floating-point registers are written. -/
def Cpu.writeFp (cpu : Cpu) (s : Fin 32 → Word) (fpscr vpr : Word) : Cpu :=
  { cpu with s := s, fpscr := fpscr, vpr := vpr }

/-- Code that leaves the floating-point unit alone and writes no byte of an open frame. `CONTROL.FPCA`,
`FPCCR` and `FPCAR` belong to the unit: a write of one of them, by `MSR` or by a store, is none. -/
structure CodeStep (frames : Word → Prop) (cpu cpu' : Cpu) : Prop where
  keeps : KeepsFp cpu cpu'
  memory : Agree frames cpu.memory cpu'.memory

/-- The `EXC_RETURN` value of an entry. -/
def Cpu.handlerLr (F : Features) (E : Environment) (cpu : Cpu) (acknowledged : Word) : Word :=
  cpu.excReturn F (secureTarget F E cpu.secure acknowledged).1

/-- The acknowledged exception is taken, and its frame is granted. -/
structure Cpu.Takes (F : Features) (E : Environment) (cpu : Cpu) (acknowledged : Word) : Prop where
  real : acknowledged ≠ 0#32
  numbered : (secureTarget F E cpu.secure acknowledged).2 ≠ 0#32
  aligned : WordAligned cpu.sp
  ready : cpu.FpReady
  granted : cpu.FrameGranted F (cpu.handlerLr F E acknowledged)

theorem Cpu.Takes.entered {acknowledged : Word} (takes : cpu.Takes F E acknowledged) :
    cpu.takeIrq F E acknowledged = .done (cpu.entered F (secureTarget F E cpu.secure acknowledged).2
        (cpu.handlerLr F E acknowledged)) :=
  takeIrq_granted takes.real takes.numbered takes.ready takes.granted

/-- The return leads back with the `EXC_RETURN` value of the entry, in its Security state. -/
structure Returning (lr : Word) (entered cpu : Cpu) : Prop where
  pc : cpu.pc = lr
  secure : cpu.secure = entered.secure

/-- What may run while the bytes in `frames` belong to open frames. -/
inductive Activity (F : Features) (E : Environment) : (Word → Prop) → Cpu → Cpu → Prop
  | start (frames : Word → Prop) (cpu : Cpu) : Activity F E frames cpu cpu
  | code {frames : Word → Prop} {first cpu cpu' : Cpu} (run : Activity F E frames first cpu)
      (code : CodeStep frames cpu cpu') : Activity F E frames first cpu'
  | floatingPoint {frames : Word → Prop} {first cpu cpu' : Cpu}
      (run : Activity F E frames first cpu) (ready : cpu.fpLsp F = .done cpu')
      (s : Fin 32 → Word) (fpscr vpr : Word) :
      Activity F E frames first (cpu'.writeFp s fpscr vpr)
  /-- `HELPER(fp_lsp_no_context)` -/
  | withoutContext {frames : Word → Prop} {first cpu cpu' : Cpu}
      (run : Activity F E frames first cpu) (ready : cpu.fpLspSaveToStack F = .done cpu')
      (s : Fin 32 → Word) (fpscr vpr : Word) :
      Activity F E frames first (cpu'.writeFp s fpscr vpr)
  | exception {frames : Word → Prop} {first cpu handled last : Cpu} {acknowledged : Word}
      (run : Activity F E frames first cpu) (takes : cpu.Takes F E acknowledged)
      (apart : ∀ b, cpu.InFrame F (cpu.handlerLr F E acknowledged) b → ¬ frames b)
      (handler : Activity F E
        (fun b => frames b ∨ cpu.InFrame F (cpu.handlerLr F E acknowledged) b)
        (cpu.takeIrq F E acknowledged).cpu handled)
      (returning : Returning (cpu.handlerLr F E acknowledged)
        (cpu.takeIrq F E acknowledged).cpu handled)
      (left : handled.doV7mExceptionExit F E = .done last) : Activity F E frames first last

/-! ### Entries and returns -/

theorem entered_plain (number lr : Word) (basic : cpu.fpca = false) :
    KeepsFp cpu (cpu.entered F number lr) := by
  have part {α : Type} (part : Cpu → α) : part (cpu.entered F number lr) =
        part ((cpu.aligned number).withEntry (cpu.entered F number lr)) := by
    rw [← extended_plain number basic]
    exact entered_part part number lr
  exact ⟨part Cpu.s, part Cpu.fpscr, part Cpu.vpr, part Cpu.ts, part Cpu.fpca,
    part Cpu.fpccrS, part Cpu.fpcar, fun bank => part fun c => (c.fpccr bank).lspact⟩

theorem entered_eager (number lr : Word) (extended : cpu.fpca = true)
    (eager : cpu.lspen = false) (quiet : cpu.Quiet) : (cpu.entered F number lr).Quiet := by
  apply quiet.congr
  intro bank
  have fpccr := @entered_part cpu F _ Cpu.fpccr number lr
  rw [fpccr]
  show ((cpu.extended F number).fpccr bank).lspact = _
  rw [extended_eager number extended eager, (invalidateVfpRegs_memory _ _).2]
  rfl

def Cpu.lazyFrame (F : Features) (cpu : Cpu) : FpFrame :=
  { bank := cpu.secure
    base := cpu.fpBase F
    words := cpu.lazyWords F cpu.secure
    small := lazyWords_length_le cpu cpu.secure }

theorem entered_lazy (number lr : Word) (extended : cpu.fpca = true) (lazy : cpu.lspen = true)
    (aligned : WordAligned cpu.sp) (quiet : cpu.Quiet) :
    (cpu.lazyFrame F).Pending F (cpu.entered F number lr) := by
  have part {α : Type} (part : Cpu → α) : part (cpu.entered F number lr) =
        part ((cpu.aligned number).reservedExtended.withEntry (cpu.entered F number lr)) := by
    rw [← extended_lazy number extended lazy]
    exact entered_part part number lr
  have fpBase : cpu.fpBase F = (cpu.aligned number).clearFpca.reserveFp.sp := by
    unfold Cpu.fpBase Cpu.fpWords
    rw [extended, lazy]
    rfl
  have masked := (fpBase_aligned (F := F) aligned).masked
  have fpccr : (cpu.entered F number lr).fpccr =
      (cpu.aligned number).reservedExtended.fpccr := part Cpu.fpccr
  constructor
  · rw [fpccr]
    show (setBank cpu.fpccr cpu.secure _ cpu.secure).lspact = true
    rw [setBank_same]
  · rw [fpccr]
    show (setBank cpu.fpccr cpu.secure _ (!cpu.secure)).lspact = false
    rw [setBank_other _ _ (by cases cpu.secure <;> decide)]
    exact quiet _
  · exact part Cpu.fpca
  · exact part Cpu.fpccrS
  · have fpcar : (cpu.entered F number lr).fpcar =
        (cpu.aligned number).reservedExtended.fpcar := part Cpu.fpcar
    rw [fpcar]
    show setBank cpu.fpcar cpu.secure
      ((cpu.aligned number).clearFpca.reserveFp.sp &&& 0xfffffff8#32) cpu.secure &&& _ =
        cpu.fpBase F
    rw [setBank_same, ← fpBase, masked, masked]
  · show (cpu.entered F number lr).lazyWords F cpu.secure = cpu.lazyWords F cpu.secure
    unfold Cpu.lazyWords Cpu.lowWords Cpu.calleeWords Cpu.vprWord
    rw [part Cpu.s, part Cpu.fpscr, part Cpu.vpr, part Cpu.ts]
    rfl

theorem exit_keeps {last : Cpu} (left : cpu.doV7mExceptionExit F E = .done last) :
    last.memory = cpu.memory ∧ last.ts = cpu.ts := by
  obtain ⟨valid, framed⟩ := exit_passed left
  rw [exit_framed valid framed] at left
  obtain ⟨popped, extended, rfl⟩ := popRest_done left
  have memory : (cpu.beforeRest F E).popBasic.memory = cpu.memory :=
    beforeRest_part (E := E) framed Cpu.memory
  have ts : (cpu.beforeRest F E).popBasic.ts = cpu.ts := beforeRest_part (E := E) framed Cpu.ts
  rcases popExtended_done extended with ⟨-, rfl⟩ | ⟨-, -, rfl⟩ | ⟨-, -, rfl⟩ <;> exact ⟨memory, ts⟩

theorem exit_plain {last : Cpu} (left : cpu.doV7mExceptionExit F E = .done last)
    (basic : excReturnNfpca cpu.pc = true) :
    (∀ bank, (last.fpccr bank).lspact = (cpu.fpccr bank).lspact) ∧
      (cpu.fpca = false → KeepsFp cpu last) := by
  obtain ⟨valid, framed⟩ := exit_passed left
  rw [exit_framed valid framed] at left
  obtain ⟨popped, extended, rfl⟩ := popRest_done left
  have part {α : Type} (part : Cpu → α) := beforeRest_part (E := E) framed part
  rcases popExtended_done extended with ⟨-, rfl⟩ | ⟨other, -⟩ | ⟨other, -⟩
  · constructor
    · exact fun bank => part fun c => (c.fpccr bank).lspact
    · intro unused
      have kept : (cpu.fpca && cpu.clronret) = false := by
        rw [unused]
        rfl
      obtain ⟨s, fpscr, vpr⟩ := beforeRest_fp F E kept
      refine ⟨s, fpscr, vpr, part Cpu.ts, ?_, part Cpu.fpccrS, part Cpu.fpcar,
        fun bank => part fun c => (c.fpccr bank).lspact⟩
      show (!excReturnNfpca cpu.pc) = cpu.fpca
      rw [basic, unused]
      rfl
  · rw [basic] at other
    cases other
  · rw [basic] at other
    cases other

theorem exit_extended {last : Cpu} (left : cpu.doV7mExceptionExit F E = .done last)
    (extended : excReturnNfpca cpu.pc = false) (bank : Bool) :
    (last.fpccr bank).lspact =
      if bank = cpu.returnSecure F cpu.pc then false else (cpu.fpccr bank).lspact := by
  obtain ⟨valid, framed⟩ := exit_passed left
  rw [exit_framed valid framed] at left
  obtain ⟨popped, extendedFrame, rfl⟩ := popRest_done left
  have fpccr : (cpu.beforeRest F E).popBasic.fpccr = cpu.fpccr :=
    beforeRest_part (E := E) framed Cpu.fpccr
  have secure : (cpu.beforeRest F E).popBasic.secure = cpu.returnSecure F cpu.pc :=
    beforeRest_secure F E cpu
  generalize (cpu.beforeRest F E).popBasic = basic at extendedFrame fpccr secure
  rcases popExtended_done extendedFrame with ⟨other, -⟩ | ⟨-, -, rfl⟩ | ⟨-, quiet, rfl⟩
  · rw [extended] at other
    cases other
  · show (setBank basic.fpccr basic.secure _ bank).lspact = _
    unfold setBank
    rw [secure, fpccr]
    split <;> rfl
  · show (basic.fpccr bank).lspact = _
    rw [fpccr, secure] at quiet
    rw [fpccr]
    split
    · rename_i same
      rw [same]
      exact quiet
    · rfl

theorem returning_secure {handled : Cpu} {number : Word} {target : Bool}
    (returning : Returning (cpu.excReturn F target)
      (cpu.entered F number (cpu.excReturn F target)) handled) :
    handled.returnSecure F handled.pc = cpu.secure := by
  unfold Cpu.returnSecure
  split
  · rename_i trustzone
    rw [returning.pc, excReturn_s cpu target trustzone]
  · rename_i single
    rw [returning.secure, entered_secure_plain _ _ (Bool.eq_false_iff.mpr single)]

theorem lazyWords_length_le_fpWords (extended : cpu.fpca = true) (lazy : cpu.lspen = true) :
    (cpu.lazyWords F cpu.secure).length ≤ cpu.fpWords F := by
  unfold Cpu.lazyWords Cpu.fpWords Cpu.fpReservationWords Cpu.lowWords Cpu.calleeWords
  rw [extended, lazy]
  cases cpu.secure <;> cases cpu.ts <;> cases F.v8 <;> simp

theorem lazyFrame_inFrame {lr b : Word} (extended : cpu.fpca = true) (lazy : cpu.lspen = true)
    (contains : (cpu.lazyFrame F).Contains b) : cpu.InFrame F lr b := by
  apply inFrame_of_fp
  exact contains.mono (Nat.mul_le_mul_left 4 (lazyWords_length_le_fpWords extended lazy))

def Cpu.handlerLevel (F : Features) (cpu : Cpu) (level : Option FpFrame) : Option FpFrame :=
  if cpu.fpca then if cpu.lspen then some (cpu.lazyFrame F) else none else level

theorem Preserved.quiet
    (preserved : Preserved F level guarded cpu) (extended : cpu.fpca = true) : cpu.Quiet := by
  cases level with
  | none => exact preserved
  | some frame =>
    rcases preserved with pending | ⟨quiet, -⟩
    · have basic := pending.fpca
      rw [extended] at basic
      cases basic
    · exact quiet

theorem entered_extended (number lr : Word) (extended : cpu.fpca = true)
    (aligned : WordAligned cpu.sp) (quiet : cpu.Quiet) (level : Option FpFrame)
    (guarded : Prop) :
    Preserved F (cpu.handlerLevel F level) guarded (cpu.entered F number lr) := by
  unfold Cpu.handlerLevel
  rw [if_pos extended]
  cases lazy : cpu.lspen with
  | false =>
    rw [if_neg Bool.false_ne_true]
    exact entered_eager number lr extended lazy quiet
  | true =>
    rw [if_pos rfl]
    exact .inl (entered_lazy number lr extended lazy aligned quiet)

theorem exit_quiet {handled last : Cpu} {number : Word} {target : Bool}
    (extended : cpu.fpca = true)
    (preserved : Preserved F (cpu.handlerLevel F level) False handled)
    (returning : Returning (cpu.excReturn F target)
      (cpu.entered F number (cpu.excReturn F target)) handled)
    (left : handled.doV7mExceptionExit F E = .done last) : last.Quiet := by
  have nfpca : excReturnNfpca handled.pc = false := by
    rw [returning.pc, excReturn_nfpca, extended]
    rfl
  intro bank
  rw [exit_extended left nfpca, returning_secure returning]
  split
  · rfl
  · rename_i other
    unfold Cpu.handlerLevel at preserved
    rw [if_pos extended] at preserved
    cases lazy : cpu.lspen with
    | false =>
      rw [lazy, if_neg Bool.false_ne_true] at preserved
      exact preserved bank
    | true =>
      rw [lazy, if_pos rfl] at preserved
      rcases preserved with pending | ⟨quiet, -⟩
      · have opposite : bank = !cpu.secure := by
          cases bank <;> cases now : cpu.secure <;> simp_all
        rw [opposite]
        exact pending.only
      · exact quiet bank

theorem Preserved.returned {handled last : Cpu}
    (preserved : Preserved F level guarded handled)
    (basic : excReturnNfpca handled.pc = true)
    (left : handled.doV7mExceptionExit F E = .done last) : Preserved F level guarded last := by
  obtain ⟨lspact, keeps⟩ := exit_plain left basic
  cases level with
  | none => exact Cpu.Quiet.congr preserved lspact
  | some frame =>
    rcases preserved with pending | ⟨quiet, stored⟩
    · exact .inl (pending.congr (keeps pending.fpca))
    · apply Or.inr
      rw [(exit_keeps left).1]
      exact ⟨quiet.congr lspact, stored⟩

def Held (addresses : Word → Prop) (level : Option FpFrame) (guarded : Prop) (b : Word) : Prop :=
  addresses b ∨ (guarded ∧ ∃ frame, level = some frame ∧ frame.Contains b)

theorem Activity.preserved {frames : Word → Prop} {first last : Cpu}
    (run : Activity F E frames first last) :
    ∀ {level : Option FpFrame} {guarded : Prop} {addresses : Word → Prop},
      (∀ b, addresses b → frames b) →
      (∀ frame, level = some frame → ∀ b, frame.Contains b → ¬ addresses b) →
      (guarded → ∀ frame, level = some frame → ∀ b, frame.Contains b → frames b) →
      Preserved F level guarded first →
        Agree addresses first.memory last.memory ∧ Preserved F level guarded last := by
  induction run with
  | start frames cpu =>
    intro level guarded addresses inside apart covered preserved
    exact ⟨Agree.refl _ _, preserved⟩
  | code run code ih =>
    intro level guarded addresses inside apart covered preserved
    obtain ⟨agree, before⟩ := ih inside apart covered preserved
    apply And.intro (agree.trans (code.memory.mono inside))
    apply before.congr code.keeps
    intro guard frame same
    exact code.memory.mono (covered guard frame same)
  | @floatingPoint frames first cpu cpu' run ready s fpscr vpr ih =>
    intro level guarded addresses inside apart covered preserved
    obtain ⟨agree, before⟩ := ih inside apart covered preserved
    unfold Cpu.fpLsp at ready
    cases saving : cpu.fpLspSaveToStack F with
    | loopExit stopped =>
      rw [saving] at ready
      cases ready
    | done saved =>
      rw [saving] at ready
      cases ready
      obtain ⟨quiet, stored, after⟩ := save_preserved before apart saving
      have context : saved.fpLspCreateContext.fpccr = saved.fpccr ∧
          saved.fpLspCreateContext.memory = saved.memory := by
        unfold Cpu.fpLspCreateContext
        split <;> exact ⟨rfl, rfl⟩
      apply And.intro
      · show Agree addresses _ saved.fpLspCreateContext.memory
        rw [context.2]
        exact agree.trans stored
      · apply after.written quiet
        · exact fun bank => congrArg (fun fpccr => (fpccr bank).lspact) context.1
        · exact context.2
  | @withoutContext frames first cpu saved run saving s fpscr vpr ih =>
    intro level guarded addresses inside apart covered preserved
    obtain ⟨agree, before⟩ := ih inside apart covered preserved
    obtain ⟨quiet, stored, after⟩ := save_preserved before apart saving
    exact ⟨agree.trans stored, after.written quiet (fun _ => rfl) rfl⟩
  | @exception frames first cpu handled last acknowledged run takes apartFrame handler returning
      left runHypothesis handlerHypothesis =>
      intro level guarded addresses inside apart covered preserved
      obtain ⟨agree, before⟩ := runHypothesis inside apart covered preserved
      rw [takes.entered, Outcome.done_cpu] at handlerHypothesis returning
      have memory := (exit_keeps left).1
      have entry : Agree frames cpu.memory
          (cpu.entered F (secureTarget F E cpu.secure acknowledged).2
            (cpu.handlerLr F E acknowledged)).memory :=
        fun b framed => entered_outside _ fun within => apartFrame b within framed
      cases extended : cpu.fpca with
      | false =>
        have basic : excReturnNfpca handled.pc = true := by
          rw [returning.pc]
          unfold Cpu.handlerLr
          rw [excReturn_nfpca, extended]
          rfl
        have start := before.congr (entered_plain (secureTarget F E cpu.secure acknowledged).2
          (cpu.handlerLr F E acknowledged) extended)
          fun guard frame same => entry.mono (covered guard frame same)
        obtain ⟨kept, after⟩ := handlerHypothesis (fun b few => .inl (inside b few)) apart
          (fun guard frame same b contains => .inl (covered guard frame same b contains)) start
        apply And.intro _ (after.returned basic left)
        rw [memory]
        exact agree.trans ((entry.mono inside).trans kept)
      | true =>
        have quiet := before.quiet extended
        have start := entered_extended (F := F) (secureTarget F E cpu.secure acknowledged).2
          (cpu.handlerLr F E acknowledged) extended takes.aligned quiet level False
        have held : ∀ b, Held addresses level guarded b → frames b := by
          rintro b (few | ⟨guard, frame, same, contains⟩)
          · exact inside b few
          · exact covered guard frame same b contains
        have apartLazy : ∀ frame, cpu.handlerLevel F level = some frame →
            ∀ b, frame.Contains b → ¬ Held addresses level guarded b := by
          intro frame same b contains others
          unfold Cpu.handlerLevel at same
          rw [if_pos extended] at same
          cases lazy : cpu.lspen with
          | false =>
            rw [lazy] at same
            cases same
          | true =>
            rw [lazy] at same
            cases same
            exact apartFrame b (lazyFrame_inFrame extended lazy contains) (held b others)
        obtain ⟨kept, after⟩ := handlerHypothesis (fun b few => .inl (held b few)) apartLazy
          False.elim start
        have ended := exit_quiet extended after returning left
        have throughout : Agree (Held addresses level guarded) cpu.memory last.memory := by
          rw [← memory] at kept
          exact (entry.mono held).trans kept
        apply And.intro (agree.trans (throughout.mono fun b few => .inl few))
        cases level with
        | none => exact ended
        | some frame =>
          rcases before with pending | ⟨-, stored⟩
          · exact absurd quiet pending.not_quiet
          · refine .inr ⟨ended, ?_⟩
            intro guard
            have few := frame.small
            apply (stored guard).of_agree _ (by omega) (by decide)
            intro b contains
            exact throughout b (.inr ⟨guard, frame, rfl, contains⟩)

/-! ### What no step changes -/

theorem save_ts (saved : cpu.fpLspSaveToStack F = .done cpu') : cpu'.ts = cpu.ts := by
  unfold Cpu.fpLspSaveToStack at saved
  split at saved
  · split at saved
    · cases saved
    · rename_i fine
      cases saved
      unfold Cpu.lazyStores at fine ⊢
      rw [lspStoreAll_done (Bool.eq_false_iff.mpr fine)]
      unfold Cpu.invalidateVfpRegs
      split <;> rfl
  · cases saved
    rfl

theorem extended_ts (F : Features) (cpu : Cpu) (number : Word) :
    (cpu.extended F number).ts = cpu.ts := by
  unfold Cpu.extended Cpu.invalidateVfpRegs
  split
  · split
    · rfl
    · split <;> rfl
  · rfl

theorem entered_ts (F : Features) (cpu : Cpu) (number lr : Word) :
    (cpu.entered F number lr).ts = cpu.ts :=
  (entered_part Cpu.ts number lr).trans (extended_ts F cpu number)

theorem Activity.ts {frames : Word → Prop} {first last : Cpu}
    (run : Activity F E frames first last) : last.ts = first.ts := by
  induction run with
  | start => rfl
  | code run code ih => exact code.keeps.ts.trans ih
  | @floatingPoint frames first cpu cpu' run ready s fpscr vpr ih =>
    unfold Cpu.fpLsp at ready
    cases saving : cpu.fpLspSaveToStack F with
    | loopExit stopped =>
      rw [saving] at ready
      cases ready
    | done saved =>
      rw [saving] at ready
      cases ready
      have context : saved.fpLspCreateContext.ts = saved.ts := by
        unfold Cpu.fpLspCreateContext
        split <;> rfl
      exact context.trans ((save_ts saving).trans ih)
  | withoutContext run saving s fpscr vpr ih =>
    exact (save_ts saving).trans ih
  | exception run takes apart handler returning left runHypothesis handlerHypothesis =>
    rw [takes.entered, Outcome.done_cpu, entered_ts] at handlerHypothesis
    exact (exit_keeps left).2.trans (handlerHypothesis.trans runHypothesis)

end Tlib.CortexM
