import Tlib.CortexM.StackSteps

/-!
Contract: the frame of an exception whose stacking is granted.

Owns: where the frame lies and how many words it has, with and without the floating-point context.
-/

namespace Tlib.CortexM

open Tlib.Library.WordStack List

variable {cpu : Cpu} {F : Features} {E : Environment} {number xpsr lr : Word}

def Cpu.frameTop (cpu : Cpu) : Word := if cpu.misaligned then cpu.sp - 4#32 else cpu.sp

def Cpu.pushedFpWords (F : Features) (cpu : Cpu) : Nat := 18 + if F.v8 && cpu.ts then 16 else 0

def Cpu.fpWords (F : Features) (cpu : Cpu) : Nat :=
  if cpu.fpca then if cpu.lspen then cpu.fpReservationWords else cpu.pushedFpWords F else 0

def Cpu.coreWords (F : Features) (cpu : Cpu) (lr : Word) : Nat :=
  8 + if cpu.leavesSecure F lr then 10 else 0

/-- The stack pointer in the handler, if no push is refused. -/
def Cpu.frameBase (F : Features) (cpu : Cpu) (lr : Word) : Word :=
  cpu.frameTop - BitVec.ofNat 32 (4 * (cpu.fpWords F + cpu.coreWords F lr))

structure Cpu.FrameGranted (F : Features) (cpu : Cpu) (lr : Word) : Prop where
  extended : cpu.fpca = true → cpu.lspen = false →
    cpu.GrantsBelow cpu.frameTop 0 (cpu.pushedFpWords F)
  core : cpu.GrantsBelow cpu.frameTop (cpu.fpWords F) (cpu.fpWords F + cpu.coreWords F lr)

/-- The floating-point unit is not disabled when its registers have to be pushed. -/
def Cpu.FpReady (cpu : Cpu) : Prop := cpu.fpca = true → cpu.lspen = true ∨ cpu.fpuEnabled = true

instance (cpu : Cpu) : Decidable cpu.FpReady := inferInstanceAs (Decidable (_ → _))

theorem Cpu.GrantsBelow.shift {top : Word} {first count : Nat}
    (granted : cpu.GrantsBelow top first (first + count)) :
    cpu.GrantsBelow (top - BitVec.ofNat 32 (4 * first)) 0 count := by
  intro k _ inside
  have success := granted (first + k) (Nat.le_add_right _ _) (by omega)
  rw [show 4 * (first + k + 1) = 4 * first + 4 * (k + 1) by omega] at success
  rw [← ofNat_add_ofNat, sub_add_eq_sub_sub] at success
  exact success

theorem Cpu.GrantsBelow.mono {top : Word} {first first' count count' : Nat}
    (granted : cpu.GrantsBelow top first count) (le : first ≤ first') (ge : count' ≤ count) :
    cpu.GrantsBelow top first' count' :=
  fun k lower upper => granted k (Nat.le_trans le lower) (Nat.lt_of_lt_of_le upper ge)

theorem inPrivilegedMode_of_handler (handler : cpu.exception ≠ 0#32) :
    cpu.inPrivilegedMode = true := by
  unfold Cpu.inPrivilegedMode Cpu.inPrivilegedModeWithSecurity Cpu.inHandlerMode
  rw [decide_eq_true handler]
  rfl

theorem aligned_sp (cpu : Cpu) (number : Word) : (cpu.aligned number).sp = cpu.frameTop := rfl

theorem extendedPushes_length (F : Features) (cpu : Cpu) :
    (cpu.extendedPushes F).length = cpu.pushedFpWords F := by
  unfold Cpu.extendedPushes Cpu.pushedFpWords Cpu.lowWords Cpu.calleeWords
  split <;> simp

def Cpu.pushedExtended (F : Features) (cpu : Cpu) : Cpu :=
  cpu.clearFpca.withStack (cpu.stack.pushAll (cpu.extendedPushes F))

def Cpu.reservedExtended (cpu : Cpu) : Cpu :=
  cpu.clearFpca.reserveFp.fpccrUpdate cpu.clearFpca.reserveFp.sp

theorem pushExtended_plain (misaligned : Bool) (basic : cpu.fpca = false) :
    cpu.pushExtended F misaligned = .done cpu := by
  unfold Cpu.pushExtended
  rw [basic]
  rfl

theorem pushExtended_lazy (misaligned : Bool) (extended : cpu.fpca = true)
    (lazy : cpu.lspen = true) :
    cpu.pushExtended F misaligned = .done cpu.reservedExtended := by
  unfold Cpu.pushExtended
  rw [extended, lazy]
  rfl

theorem pushExtended_disabled (misaligned : Bool) (extended : cpu.fpca = true)
    (eager : cpu.lspen = false) (disabled : cpu.fpuEnabled = false) :
    cpu.pushExtended F misaligned = .loopExit (cpu.clearFpca.fpuDisabledEntry misaligned) := by
  unfold Cpu.pushExtended
  rw [extended, eager, disabled]
  rfl

theorem pushExtended_eager (misaligned : Bool) (extended : cpu.fpca = true)
    (eager : cpu.lspen = false) (enabled : cpu.fpuEnabled = true)
    (handler : cpu.exception ≠ 0#32)
    (granted : cpu.GrantsBelow cpu.sp 0 (cpu.pushedFpWords F)) :
    cpu.pushExtended F misaligned = .done ((cpu.pushedExtended F).invalidateVfpRegs cpu.ts) := by
  have privileged : cpu.clearFpca.inPrivilegedMode = true := inPrivilegedMode_of_handler handler
  have pushed : cpu.clearFpca.v7mPushAll (cpu.extendedPushes F) =
      (cpu.pushedExtended F, false) := by
    apply v7mPushAll_granted _ privileged
    rw [extendedPushes_length]
    exact granted
  unfold Cpu.pushExtended
  rw [extended, eager, enabled, pushed]
  rfl

/-- The state before the basic frame. -/
def Cpu.extended (F : Features) (cpu : Cpu) (number : Word) : Cpu :=
  if cpu.fpca then
    if cpu.lspen then (cpu.aligned number).reservedExtended
    else ((cpu.aligned number).pushedExtended F).invalidateVfpRegs cpu.ts
  else cpu.aligned number

theorem extended_plain (number : Word) (basic : cpu.fpca = false) :
    cpu.extended F number = cpu.aligned number := by
  unfold Cpu.extended
  rw [basic]
  rfl

theorem extended_lazy (number : Word) (extended : cpu.fpca = true) (lazy : cpu.lspen = true) :
    cpu.extended F number = (cpu.aligned number).reservedExtended := by
  unfold Cpu.extended
  rw [extended, lazy]
  rfl

theorem extended_eager (number : Word) (extended : cpu.fpca = true)
    (eager : cpu.lspen = false) :
    cpu.extended F number = ((cpu.aligned number).pushedExtended F).invalidateVfpRegs cpu.ts := by
  unfold Cpu.extended
  rw [extended, eager]
  rfl

/-- What the rest of the entry needs to know of that state. -/
structure Cpu.Extended (F : Features) (cpu : Cpu) (number : Word) (next : Cpu) : Prop where
  keeps : KeepsStacks cpu next
  exception : next.exception = number
  sp : next.sp = cpu.frameTop - BitVec.ofNat 32 (4 * cpu.fpWords F)
  getPhysAddr : next.getPhysAddr = cpu.getPhysAddr
  r : next.r = cpu.r
  lr : next.lr = cpu.lr
  pc : next.pc = cpu.pc

theorem Cpu.Extended.invalidate {next : Cpu} (known : cpu.Extended F number next)
    (shouldClear : Bool) : cpu.Extended F number (next.invalidateVfpRegs shouldClear) := by
  unfold Cpu.invalidateVfpRegs
  split
  · exact ⟨⟨known.keeps.secure, known.keeps.processSp, known.keeps.otherSp,
      known.keeps.otherSsMsp, known.keeps.otherSsPsp, known.keeps.control⟩, known.exception,
      known.sp, known.getPhysAddr, known.r, known.lr, known.pc⟩
  · exact known

theorem extended_known (F : Features) (cpu : Cpu) (number : Word) :
    cpu.Extended F number (cpu.extended F number) := by
  cases extended : cpu.fpca with
  | false =>
    rw [extended_plain number extended]
    refine ⟨⟨rfl, rfl, rfl, rfl, rfl, rfl⟩, rfl, ?_, rfl, rfl, rfl, rfl⟩
    unfold Cpu.fpWords
    rw [extended, aligned_sp]
    exact (sub_zero cpu.frameTop).symm
  | true =>
    cases lazy : cpu.lspen with
    | true =>
      rw [extended_lazy number extended lazy]
      refine ⟨⟨rfl, rfl, rfl, rfl, rfl, rfl⟩, rfl, ?_, rfl, rfl, rfl, rfl⟩
      unfold Cpu.fpWords
      rw [extended, lazy]
      rfl
    | false =>
      rw [extended_eager number extended lazy]
      apply Cpu.Extended.invalidate
      refine ⟨⟨rfl, rfl, rfl, rfl, rfl, rfl⟩, rfl, ?_, rfl, rfl, rfl, rfl⟩
      show ((cpu.aligned number).stack.pushAll _).sp = _
      rw [pushAll_sp, extendedPushes_length]
      unfold Cpu.fpWords
      rw [extended, lazy]
      rfl

theorem beginEntry_extended (handler : number ≠ 0#32) (ready : cpu.FpReady)
    (granted : cpu.fpca = true → cpu.lspen = false →
      cpu.GrantsBelow cpu.frameTop 0 (cpu.pushedFpWords F)) :
    cpu.beginEntry F number = .done (cpu.extended F number) := by
  unfold Cpu.beginEntry
  cases extended : cpu.fpca with
  | false =>
    rw [extended_plain number extended]
    exact pushExtended_plain _ extended
  | true =>
    cases lazy : cpu.lspen with
    | true =>
      rw [extended_lazy number extended lazy]
      exact pushExtended_lazy _ extended lazy
    | false =>
      have enabled : cpu.fpuEnabled = true :=
        (ready extended).resolve_left (Bool.eq_false_iff.mp lazy)
      rw [extended_eager number extended lazy]
      exact pushExtended_eager _ extended lazy enabled handler (granted extended lazy)

def Cpu.coreFrame (F : Features) (cpu : Cpu) (xpsr lr : Word) : List Word :=
  (if cpu.leavesSecure F lr then cpu.additionalWords lr else []) ++ cpu.basicWords xpsr

theorem coreFrame_length (F : Features) (cpu : Cpu) (xpsr lr : Word) :
    (cpu.coreFrame F xpsr lr).length = cpu.coreWords F lr := by
  unfold Cpu.coreFrame Cpu.coreWords
  split <;> rfl

def Cpu.clearIfLeaving (F : Features) (cpu : Cpu) (lr : Word) : Cpu :=
  if cpu.leavesSecure F lr then cpu.clearRegisters else cpu

theorem pushBasic_granted (privileged : cpu.inPrivilegedMode = true)
    (granted : cpu.GrantsBelow cpu.sp 0 8) :
    cpu.pushBasic xpsr = (cpu.withStack (cpu.stack.pushAll (cpu.basicWords xpsr).reverse), false) :=
  v7mPushAll_granted _ privileged granted

theorem pushAdditional_granted (privileged : cpu.inPrivilegedMode = true)
    (granted : cpu.GrantsBelow cpu.sp 0 10) :
    cpu.pushAdditional lr =
      (cpu.withStack (cpu.stack.pushAll (cpu.additionalWords lr).reverse), false) :=
  v7mPushAll_granted _ privileged granted

theorem pushFrame_granted (handler : cpu.exception ≠ 0#32)
    (granted : cpu.GrantsBelow cpu.sp 0 (cpu.coreWords F lr)) :
    cpu.pushFrame F xpsr lr =
      ((cpu.withStack (cpu.stack.pushAll (cpu.coreFrame F xpsr lr).reverse)).clearIfLeaving F lr,
        false) := by
  have privileged : cpu.inPrivilegedMode = true := inPrivilegedMode_of_handler handler
  have basic : cpu.pushBasic xpsr =
      (cpu.withStack (cpu.stack.pushAll (cpu.basicWords xpsr).reverse), false) :=
    pushBasic_granted privileged (granted.mono (Nat.le_refl 0) (Nat.le_add_right 8 _))
  unfold Cpu.pushFrame Cpu.coreFrame Cpu.clearIfLeaving
  rw [basic]
  cases leaves : cpu.leavesSecure F lr with
  | false =>
    rw [if_neg Bool.false_ne_true, if_neg Bool.false_ne_true, nil_append, if_neg]
    show ¬ cpu.leavesSecure F lr = true
    rw [leaves]
    exact Bool.false_ne_true
  | true =>
    have below : cpu.GrantsBelow (cpu.sp - BitVec.ofNat 32 (4 * 8)) 0 10 := by
      apply Cpu.GrantsBelow.shift
      apply granted.mono (Nat.zero_le 8)
      unfold Cpu.coreWords
      rw [leaves]
      exact Nat.le_refl 18
    have base : (cpu.stack.pushAll (cpu.basicWords xpsr).reverse).sp =
        cpu.sp - BitVec.ofNat 32 (4 * 8) := pushAll_sp
    rw [if_pos rfl, if_pos rfl, reverse_append, pushAll_append]
    generalize cpu.stack.pushAll (cpu.basicWords xpsr).reverse = stack at base ⊢
    have stillPrivileged : (cpu.withStack stack).inPrivilegedMode = true := privileged
    have stillLeaves : (cpu.withStack
        (stack.pushAll (cpu.additionalWords lr).reverse)).leavesSecure F lr = true := leaves
    rw [pushAdditional_granted stillPrivileged (by
      show cpu.GrantsBelow stack.sp 0 10
      rw [base]
      exact below), if_pos stillLeaves]
    rfl

/-- The state when the whole frame has been pushed. -/
def Cpu.framed (F : Features) (cpu : Cpu) (xpsr lr : Word) : Cpu :=
  (cpu.withStack (cpu.stack.pushAll (cpu.coreFrame F xpsr lr).reverse)).clearIfLeaving F lr

theorem clearIfLeaving_keepsStacks (cpu : Cpu) (lr : Word) :
    KeepsStacks cpu (cpu.clearIfLeaving F lr) ∧
      (cpu.clearIfLeaving F lr).exception = cpu.exception := by
  unfold Cpu.clearIfLeaving
  split
  · exact ⟨⟨rfl, rfl, rfl, rfl, rfl, rfl⟩, rfl⟩
  · exact ⟨KeepsStacks.refl cpu, rfl⟩

theorem framed_keepsStacks (F : Features) (cpu : Cpu) (xpsr lr : Word) :
    KeepsStacks cpu (cpu.framed F xpsr lr) ∧ (cpu.framed F xpsr lr).exception = cpu.exception := by
  have pushed : KeepsStacks cpu
      (cpu.withStack (cpu.stack.pushAll (cpu.coreFrame F xpsr lr).reverse)) :=
    ⟨rfl, rfl, rfl, rfl, rfl, rfl⟩
  obtain ⟨cleared, exception⟩ := @clearIfLeaving_keepsStacks F
    (cpu.withStack (cpu.stack.pushAll (cpu.coreFrame F xpsr lr).reverse)) lr
  exact ⟨pushed.trans cleared, exception⟩

theorem finishEntry_granted (handler : cpu.exception ≠ 0#32)
    (granted : cpu.GrantsBelow cpu.sp 0 (cpu.coreWords F lr)) :
    cpu.finishEntry F E xpsr lr = .done ((cpu.framed F xpsr lr).enterHandler F lr) := by
  unfold Cpu.finishEntry
  rw [pushFrame_granted handler granted]
  rfl

/-- The state in which the handler starts. -/
def Cpu.entered (F : Features) (cpu : Cpu) (number lr : Word) : Cpu :=
  ((cpu.extended F number).framed F cpu.stackedXpsr lr).enterHandler F lr

theorem takeIrq_granted {acknowledged : Word} (real : acknowledged ≠ 0#32)
    (numbered : (secureTarget F E cpu.secure acknowledged).2 ≠ 0#32) (ready : cpu.FpReady)
    (granted : cpu.FrameGranted F
      (cpu.excReturn F (secureTarget F E cpu.secure acknowledged).1)) :
    cpu.takeIrq F E acknowledged = .done (cpu.entered F (secureTarget F E cpu.secure acknowledged).2
        (cpu.excReturn F (secureTarget F E cpu.secure acknowledged).1)) := by
  have known := extended_known F cpu (secureTarget F E cpu.secure acknowledged).2
  unfold Cpu.takeIrq
  rw [if_neg real, beginEntry_extended numbered ready granted.extended, Outcome.done_bind]
  apply finishEntry_granted
  · rw [known.exception]
    exact numbered
  · have below := granted.core.shift
    unfold Cpu.GrantsBelow Cpu.coreWords Cpu.leavesSecure at below ⊢
    rw [known.getPhysAddr, known.sp, known.keeps.secure]
    exact below

def Cpu.withEntry (cpu other : Cpu) : Cpu :=
  { cpu.withStacks other with
    r := other.r
    lr := other.lr
    pc := other.pc
    thumb := other.thumb
    sfpa := other.sfpa
    memory := other.memory }

theorem framed_eq (F : Features) (cpu : Cpu) (xpsr lr : Word) :
    cpu.framed F xpsr lr = cpu.withEntry (cpu.framed F xpsr lr) := by
  unfold Cpu.framed Cpu.clearIfLeaving
  split <;> rfl

theorem entered_eq (F : Features) (cpu : Cpu) (number lr : Word) :
    cpu.entered F number lr = (cpu.extended F number).withEntry (cpu.entered F number lr) := by
  have framed := framed_eq F (cpu.extended F number) cpu.stackedXpsr lr
  have selected := @selectHandlerStack_relocates F
    ((cpu.extended F number).framed F cpu.stackedXpsr lr) lr
  unfold Relocates at selected
  unfold Cpu.entered Cpu.enterHandler
  generalize (cpu.extended F number).framed F cpu.stackedXpsr lr = next at framed selected ⊢
  generalize next.selectHandlerStack F lr = handler at selected ⊢
  rw [selected, framed]
  rfl

theorem entered_part {α : Type} (part : Cpu → α) (number lr : Word) :
    part (cpu.entered F number lr) =
      part ((cpu.extended F number).withEntry (cpu.entered F number lr)) :=
  congrArg part (entered_eq F cpu number lr)

def Cpu.eagerPushes (F : Features) (cpu : Cpu) : List Word :=
  if cpu.fpca && !cpu.lspen then cpu.extendedPushes F else []

/-- Where the floating-point context begins. -/
def Cpu.fpBase (F : Features) (cpu : Cpu) : Word :=
  cpu.frameTop - BitVec.ofNat 32 (4 * cpu.fpWords F)

def Cpu.InFrame (F : Features) (cpu : Cpu) (lr b : Word) : Prop :=
  Within (cpu.frameBase F lr) (4 * (cpu.coreWords F lr + cpu.fpWords F)) b

theorem extended_memory (F : Features) (cpu : Cpu) (number : Word) :
    (cpu.extended F number).memory =
      (Stack.pushAll ⟨cpu.memory, cpu.frameTop⟩ (cpu.eagerPushes F)).memory := by
  unfold Cpu.eagerPushes
  cases extended : cpu.fpca with
  | false =>
    rw [extended_plain number extended]
    rfl
  | true =>
    cases lazy : cpu.lspen with
    | true =>
      rw [extended_lazy number extended lazy]
      rfl
    | false =>
      rw [extended_eager number extended lazy]
      unfold Cpu.invalidateVfpRegs
      split <;> rfl

theorem eagerPushes_length (F : Features) (cpu : Cpu) :
    (cpu.eagerPushes F).length ≤ cpu.fpWords F := by
  unfold Cpu.eagerPushes Cpu.fpWords
  cases cpu.fpca <;> cases cpu.lspen <;> simp [extendedPushes_length]

theorem fpWords_le (F : Features) (cpu : Cpu) : cpu.fpWords F ≤ 34 := by
  unfold Cpu.fpWords Cpu.fpReservationWords Cpu.pushedFpWords
  cases cpu.fpca <;> cases cpu.lspen <;> cases cpu.ts <;> cases cpu.secure <;> cases F.v8 <;>
    decide

theorem coreWords_le (F : Features) (cpu : Cpu) (lr : Word) : cpu.coreWords F lr ≤ 18 := by
  unfold Cpu.coreWords
  split <;> omega

theorem frameBase_add_core (F : Features) (cpu : Cpu) (lr : Word) :
    cpu.frameBase F lr + BitVec.ofNat 32 (4 * cpu.coreWords F lr) = cpu.fpBase F := by
  unfold Cpu.frameBase Cpu.fpBase
  rw [sub_add_ofNat (by omega)]
  rw [show 4 * (cpu.fpWords F + cpu.coreWords F lr) - 4 * cpu.coreWords F lr =
    4 * cpu.fpWords F by omega]

theorem fpBase_sub_core (F : Features) (cpu : Cpu) (lr : Word) :
    cpu.fpBase F - BitVec.ofNat 32 (4 * cpu.coreWords F lr) = cpu.frameBase F lr := by
  rw [← frameBase_add_core F cpu lr, add_sub_cancel_right]

theorem inFrame_of_fp {b : Word} (within : Within (cpu.fpBase F) (4 * cpu.fpWords F) b) :
    cpu.InFrame F lr b := by
  rw [← frameBase_add_core F cpu lr] at within
  exact within.shift (by omega)

theorem inFrame_of_core {b : Word}
    (within : Within (cpu.frameBase F lr) (4 * cpu.coreWords F lr) b) : cpu.InFrame F lr b :=
  within.mono (by omega)

theorem core_apart_fp {b : Word}
    (within : Within (cpu.frameBase F lr) (4 * cpu.coreWords F lr) b) :
    ¬ Within (cpu.fpBase F) (4 * cpu.fpWords F) b := by
  have fp := fpWords_le F cpu
  have core := coreWords_le F cpu lr
  rw [← frameBase_add_core F cpu lr]
  exact not_within_shift within (Nat.le_refl _) (by omega)

theorem coreFrame_extended (F : Features) (cpu : Cpu) (number xpsr lr : Word) :
    (cpu.extended F number).coreFrame F xpsr lr = cpu.coreFrame F xpsr lr := by
  have known := extended_known F cpu number
  unfold Cpu.coreFrame Cpu.additionalWords Cpu.basicWords Cpu.leavesSecure
  rw [known.r, known.lr, known.pc, known.keeps.secure]

theorem framed_memory (F : Features) (cpu : Cpu) (xpsr lr : Word) : (cpu.framed F xpsr lr).memory =
      (cpu.stack.pushAll (cpu.coreFrame F xpsr lr).reverse).memory := by
  unfold Cpu.framed Cpu.clearIfLeaving
  split <;> rfl

theorem enterHandler_memory (F : Features) (cpu : Cpu) (lr : Word) :
    (cpu.enterHandler F lr).memory = cpu.memory :=
  (@selectHandlerStack_relocates F cpu lr).same Cpu.memory

theorem entered_memory (F : Features) (cpu : Cpu) (number lr : Word) :
    (cpu.entered F number lr).memory = (Stack.pushAll ⟨(cpu.extended F number).memory, cpu.fpBase F⟩
        (cpu.coreFrame F cpu.stackedXpsr lr).reverse).memory := by
  unfold Cpu.entered
  rw [enterHandler_memory, framed_memory, coreFrame_extended]
  unfold Cpu.stack
  rw [(extended_known F cpu number).sp]
  rfl

theorem entered_core (F : Features) (cpu : Cpu) (number lr : Word) :
    Holds (cpu.entered F number lr).memory (cpu.frameBase F lr)
      (cpu.coreFrame F cpu.stackedXpsr lr) := by
  have small := coreWords_le F cpu lr
  have holds := @pushAll_holds 32 (cpu.coreFrame F cpu.stackedXpsr lr).reverse
    ⟨(cpu.extended F number).memory, cpu.fpBase F⟩
    (by rw [length_reverse, coreFrame_length]; omega) (by decide)
  rw [pushAll_sp, length_reverse, coreFrame_length, fpBase_sub_core,
    reverse_reverse] at holds
  rw [entered_memory]
  exact holds

theorem entered_above {b : Word} (number : Word)
    (outside : ¬ Within (cpu.frameBase F lr) (4 * cpu.coreWords F lr) b) :
    (cpu.entered F number lr).memory b = (cpu.extended F number).memory b := by
  have small := coreWords_le F cpu lr
  rw [entered_memory]
  apply pushAll_outside
  · rw [length_reverse, coreFrame_length, fpBase_sub_core]
    exact outside
  · rw [length_reverse, coreFrame_length]
    omega

theorem entered_outside {b : Word} (number : Word) (outside : ¬ cpu.InFrame F lr b) :
    (cpu.entered F number lr).memory b = cpu.memory b := by
  rw [entered_above number fun within => outside (inFrame_of_core within), extended_memory]
  have few := eagerPushes_length F cpu
  have fp := fpWords_le F cpu
  apply pushAll_outside _ (by omega)
  intro within
  apply outside
  apply inFrame_of_fp
  have base : cpu.frameTop - BitVec.ofNat 32 (4 * (cpu.eagerPushes F).length) =
      cpu.fpBase F + BitVec.ofNat 32 (4 * cpu.fpWords F - 4 * (cpu.eagerPushes F).length) := by
    unfold Cpu.fpBase
    rw [sub_add_ofNat (by omega)]
    rw [show 4 * cpu.fpWords F - (4 * cpu.fpWords F - 4 * (cpu.eagerPushes F).length) =
      4 * (cpu.eagerPushes F).length by omega]
  rw [base] at within
  exact within.shift (by omega)

theorem entered_fp (number : Word) (extended : cpu.fpca = true) (eager : cpu.lspen = false) :
    Holds (cpu.entered F number lr).memory (cpu.fpBase F) (cpu.extendedPushes F).reverse := by
  have fp := fpWords_le F cpu
  have core := coreWords_le F cpu lr
  have count : cpu.fpWords F = (cpu.extendedPushes F).length := by
    unfold Cpu.fpWords
    rw [extended, eager, extendedPushes_length]
    rfl
  have pushes : cpu.eagerPushes F = cpu.extendedPushes F := by
    unfold Cpu.eagerPushes
    rw [extended, eager]
    rfl
  have holds := @pushAll_holds 32 (cpu.extendedPushes F) ⟨cpu.memory, cpu.frameTop⟩
    (by omega) (by decide)
  rw [pushAll_sp, ← pushes, ← extended_memory F cpu number, pushes, ← count] at holds
  apply holds.of_agree _ (by rw [length_reverse]; omega) (by decide)
  intro b within
  apply entered_above
  intro core
  apply core_apart_fp core
  rw [length_reverse, ← count] at within
  exact within

theorem entered_onlyMoves (F : Features) (cpu : Cpu) (number lr : Word) :
    OnlyMoves cpu (cpu.entered F number lr) cpu.active := by
  have extended := (extended_known F cpu number).keeps
  have framed := (framed_keepsStacks F (cpu.extended F number) cpu.stackedXpsr lr).1
  exact (extended.trans framed).onlyMoves.then (enterHandler_movesNone _ lr)

theorem entered_base (F : Features) (cpu : Cpu) (number lr : Word) :
    (cpu.entered F number lr).pointer cpu.active = cpu.frameBase F lr := by
  have known := extended_known F cpu number
  have framed := (framed_keepsStacks F (cpu.extended F number) cpu.stackedXpsr lr).1
  have sp : ((cpu.extended F number).framed F cpu.stackedXpsr lr).sp = cpu.frameBase F lr := by
    have pushed : ((cpu.extended F number).framed F cpu.stackedXpsr lr).sp =
        ((cpu.extended F number).stack.pushAll
          ((cpu.extended F number).coreFrame F cpu.stackedXpsr lr).reverse).sp := by
      unfold Cpu.framed Cpu.clearIfLeaving
      split <;> rfl
    rw [pushed, pushAll_sp, length_reverse, coreFrame_extended, coreFrame_length]
    show (cpu.extended F number).sp - _ = _
    rw [known.sp]
    exact fpBase_sub_core F cpu lr
  unfold Cpu.entered
  rw [enterHandler_movesNone _ lr, ← (known.keeps.trans framed).active, pointer_active, sp]

theorem entered_secure_plain (number lr : Word) (single : F.hasTrustzone = false) :
    (cpu.entered F number lr).secure = cpu.secure := by
  have framed := (framed_keepsStacks F (cpu.extended F number) cpu.stackedXpsr lr).1
  have extended := (extended_known F cpu number).keeps
  unfold Cpu.entered Cpu.enterHandler Cpu.selectHandlerStack
  rw [single, if_neg Bool.false_ne_true]
  show (Cpu.switchV7mSp _ false).secure = _
  rw [switchV7mSp_secure, framed.secure, extended.secure]

theorem entered_secure (number lr : Word) (trustzone : F.hasTrustzone = true) :
    (cpu.entered F number lr).secure = excReturnEs lr := by
  unfold Cpu.entered Cpu.enterHandler Cpu.selectHandlerStack
  rw [trustzone, if_pos rfl]
  show (Cpu.switchV7mSp _ false).secure = _
  rw [switchV7mSp_secure, switchV7mSecurityState_secure]

end Tlib.CortexM
