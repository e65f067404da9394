import Tlib.CortexM.ExceptionFrame

/-!
Contract: the stages of the return from an exception.

Owns: which checks a return can fail before it reaches the frame, and the state in which it goes on.
-/

namespace Tlib.CortexM

open Tlib.Library.WordStack

variable {cpu cpu' : Cpu} {F : Features} {E : Environment} {type : Word}

/-- `EXC_RETURN` by the flags that it is made from; `selected` is `SPSEL` of the target state. -/
def excReturnBits (v8 trustzone handler fpca spsel secure target selected : Bool) : Word :=
  let base := ((if v8 then 0xffffffb0#32
    else 0xfffffff1#32 ||| if handler then 0 else bitIf spsel 2) ||| bitIf (!handler) 3) ^^^
      bitIf fpca 4
  (if trustzone then
      (base ||| bitIf secure 6) ||| (((base ||| bitIf secure 6) &&& ~~~1#32) ||| bitIf target 0)
    else base) |||
    if v8 then bitIf selected 2 else 0

theorem excReturn_bits (F : Features) (cpu : Cpu) (target : Bool) : cpu.excReturn F target =
      excReturnBits F.v8 F.hasTrustzone cpu.inHandlerMode cpu.fpca (cpu.control false).spsel
        cpu.secure target (cpu.control target).spsel := rfl

theorem excReturnMode_bits : ∀ v8 trustzone handler fpca spsel secure target selected,
    excReturnMode (excReturnBits v8 trustzone handler fpca spsel secure target selected) =
      !handler := by decide

theorem excReturnNfpca_bits : ∀ v8 trustzone handler fpca spsel secure target selected,
    excReturnNfpca (excReturnBits v8 trustzone handler fpca spsel secure target selected) =
      !fpca := by decide

theorem excReturnS_bits : ∀ handler fpca spsel secure target selected,
    excReturnS (excReturnBits true true handler fpca spsel secure target selected) = secure := by
  decide

theorem excReturnEs_bits : ∀ handler fpca spsel secure target selected,
    excReturnEs (excReturnBits true true handler fpca spsel secure target selected) = target := by
  decide

theorem excReturnSpsel_bits : ∀ v8 trustzone handler fpca spsel secure target selected,
    excReturnSpsel (excReturnBits v8 trustzone handler fpca spsel secure target selected) =
      if v8 then selected else !handler && spsel := by decide

theorem excReturn_mode (F : Features) (cpu : Cpu) (target : Bool) :
    excReturnMode (cpu.excReturn F target) = true ↔ cpu.exception = 0#32 := by
  rw [excReturn_bits, excReturnMode_bits]
  unfold Cpu.inHandlerMode
  simp

theorem excReturn_nfpca (F : Features) (cpu : Cpu) (target : Bool) :
    excReturnNfpca (cpu.excReturn F target) = !cpu.fpca := by
  rw [excReturn_bits, excReturnNfpca_bits]

theorem excReturn_s (cpu : Cpu) (target : Bool) (trustzone : F.hasTrustzone = true) :
    excReturnS (cpu.excReturn F target) = cpu.secure := by
  rw [excReturn_bits, trustzone, F.v8_of_trustzone trustzone, excReturnS_bits]

theorem excReturn_es (cpu : Cpu) (target : Bool) (trustzone : F.hasTrustzone = true) :
    excReturnEs (cpu.excReturn F target) = target := by
  rw [excReturn_bits, trustzone, F.v8_of_trustzone trustzone, excReturnEs_bits]

theorem excReturn_spsel (F : Features) (cpu : Cpu) (target : Bool) :
    excReturnSpsel (cpu.excReturn F target) = if F.v8 then (cpu.control target).spsel
      else !cpu.inHandlerMode && (cpu.control false).spsel := by
  rw [excReturn_bits, excReturnSpsel_bits]

def Cpu.returnSp (F : Features) (cpu : Cpu) : Word := cpu.pointer (cpu.returnStack F cpu.pc)

def Cpu.framedNumber (F : Features) (cpu : Cpu) : Word :=
  load cpu.memory (cpu.returnSp F +
    BitVec.ofNat 32 (4 * (7 + if hasAdditional F cpu.pc then 10 else 0))) &&& 0x1ff#32

/-- `INVER`: the return is refused before anything is done. -/
def Cpu.invalidReturn (F : Features) (cpu : Cpu) : Bool :=
  F.hasTrustzone && !cpu.secure && excReturnEs cpu.pc

/-- The return fails between the switch of the stack and the basic frame. -/
def Cpu.failsBeforeFrame (F : Features) (cpu : Cpu) : Bool :=
  (cpu.fpca && cpu.clronret && (cpu.fpccr true).lspact) ||
    (hasAdditional F cpu.pc && decide (load cpu.memory (cpu.returnSp F) ≠ integritySignature cpu.pc))

def Cpu.returning (F : Features) (E : Environment) (cpu : Cpu) : Cpu :=
  (cpu.clearFaultmask.completeIrq F E).selectReturnStack F cpu.pc

theorem returning_same (F : Features) (E : Environment) (cpu : Cpu) :
    (cpu.returning F E).exception = cpu.exception ∧
      (cpu.returning F E).memory = cpu.memory ∧ (cpu.returning F E).fpca = cpu.fpca ∧
      (cpu.returning F E).clronret = cpu.clronret ∧ (cpu.returning F E).fpccr = cpu.fpccr := by
  have first : (cpu.clearFaultmask.completeIrq F E).exception = cpu.exception ∧
      (cpu.clearFaultmask.completeIrq F E).memory = cpu.memory ∧
      (cpu.clearFaultmask.completeIrq F E).fpca = cpu.fpca ∧
      (cpu.clearFaultmask.completeIrq F E).clronret = cpu.clronret ∧
      (cpu.clearFaultmask.completeIrq F E).fpccr = cpu.fpccr := by
    unfold Cpu.completeIrq Cpu.clearFaultmask
    split <;> split <;> exact ⟨rfl, rfl, rfl, rfl, rfl⟩
  have relocates := @selectReturnStack_relocates F (cpu.clearFaultmask.completeIrq F E) cpu.pc
  exact ⟨(congrArg Cpu.exception relocates).trans first.1,
    (congrArg Cpu.memory relocates).trans first.2.1,
    (congrArg Cpu.fpca relocates).trans first.2.2.1,
    (congrArg Cpu.clronret relocates).trans first.2.2.2.1,
    (congrArg Cpu.fpccr relocates).trans first.2.2.2.2⟩

theorem returning_movesNone (F : Features) (E : Environment) (cpu : Cpu) :
    MovesNone cpu (cpu.returning F E) := by
  have masked := clearFaultmask_keepsStacks cpu
  have completed := @completeIrq_keepsStacks F E cpu.clearFaultmask
  have sp : (cpu.clearFaultmask.completeIrq F E).sp = cpu.sp := by
    unfold Cpu.completeIrq Cpu.clearFaultmask
    split <;> split <;> rfl
  exact ((masked.trans completed).movesNone sp).trans (selectReturnStack_movesNone _ _)

theorem returnStack_keeps (keeps : KeepsStacks cpu cpu') (type : Word) :
    cpu'.returnStack F type = cpu.returnStack F type := by
  unfold Cpu.returnStack Cpu.returnSpsel Cpu.returnSecure
  rw [keeps.secure, keeps.control]

theorem returning_active (F : Features) (E : Environment) (cpu : Cpu) :
    (cpu.returning F E).active = cpu.returnStack F cpu.pc := by
  have keeps := (clearFaultmask_keepsStacks cpu).trans
    (@completeIrq_keepsStacks F E cpu.clearFaultmask)
  unfold Cpu.returning
  rw [selectReturnStack_active, returnStack_keeps keeps]

theorem returning_sp (F : Features) (E : Environment) (cpu : Cpu) :
    (cpu.returning F E).sp = cpu.returnSp F := by
  rw [← pointer_active, returning_active]
  exact returning_movesNone F E cpu _

theorem returning_spsel (F : Features) (E : Environment) (cpu : Cpu) :
    (((cpu.returning F E).control (cpu.returning F E).secure)).spsel =
      cpu.returnSpsel F cpu.pc := by
  have keeps := (clearFaultmask_keepsStacks cpu).trans
    (@completeIrq_keepsStacks F E cpu.clearFaultmask)
  have spsel := @selectReturnStack_spsel F (cpu.clearFaultmask.completeIrq F E) cpu.pc
  have same : (cpu.clearFaultmask.completeIrq F E).returnSpsel F cpu.pc =
      cpu.returnSpsel F cpu.pc := by
    unfold Cpu.returnSpsel Cpu.returnSecure
    rw [keeps.secure, keeps.control]
  rw [← same, ← spsel, ← selectReturnStack_secure]
  rfl

theorem unstack_eq (F : Features) (E : Environment) (cpu : Cpu) : cpu.clearFaultmask.unstack F E =
      (cpu.returning F E).clearOnReturn.bind fun next => next.popFrame F cpu.pc := by
  have pc : cpu.clearFaultmask.pc = cpu.pc := by
    unfold Cpu.clearFaultmask
    split <;> rfl
  unfold Cpu.unstack Cpu.returning
  rw [pc]

theorem clearOnReturn_fails (fails : (cpu.fpca && cpu.clronret && (cpu.fpccr true).lspact) = true) :
    ∃ last, cpu.clearOnReturn = .loopExit last := by
  simp only [Bool.and_eq_true] at fails
  unfold Cpu.clearOnReturn
  rw [fails.1.1, fails.1.2, fails.2]
  exact ⟨_, rfl⟩

theorem clearOnReturn_done (fine : (cpu.fpca && cpu.clronret && (cpu.fpccr true).lspact) = false) :
    cpu.clearOnReturn = .done cpu.clearOnReturn.cpu := by
  unfold Cpu.clearOnReturn
  split
  · rename_i clears
    rw [clears, Bool.true_and] at fine
    rw [fine]
    rfl
  · rfl

theorem popAdditional_fails (additional : hasAdditional F type = true)
    (wrong : cpu.popped 0 ≠ integritySignature type) :
    ∃ last, cpu.popAdditional F type = .loopExit last := by
  unfold Cpu.popAdditional
  rw [if_pos additional, if_pos wrong]
  exact ⟨_, rfl⟩

theorem popAdditional_done
    (fine : hasAdditional F type = true → cpu.popped 0 = integritySignature type) :
    cpu.popAdditional F type = .done (if hasAdditional F type then cpu.restoreCallee else cpu) := by
  unfold Cpu.popAdditional
  split
  · rename_i additional
    rw [if_neg (not_not.mpr (fine additional))]
  · rfl

theorem popped_zero (cpu : Cpu) : cpu.popped 0 = load cpu.memory cpu.sp := by
  unfold Cpu.popped
  rw [Nat.mul_zero, show BitVec.ofNat 32 0 = 0 from rfl, add_zero]

theorem unstack_fails (fails : cpu.failsBeforeFrame F = true) :
    KeepsStacks (cpu.returning F E) (cpu.clearFaultmask.unstack F E).cpu ∧
      (cpu.clearFaultmask.unstack F E).cpu.exception = cpu.exception := by
  obtain ⟨exception, memory, fpca, clronret, fpccr⟩ := returning_same F E cpu
  have sp := returning_sp F E cpu
  unfold Cpu.failsBeforeFrame at fails
  rw [← memory, ← fpca, ← clronret, ← fpccr, ← sp, ← popped_zero] at fails
  rw [unstack_eq, ← exception]
  generalize cpu.returning F E = returning at *
  have cleared := clearOnReturn_keepsStacks returning
  cases clearing : returning.clearOnReturn with
  | loopExit last =>
    rw [clearing] at cleared
    exact ⟨cleared.1, cleared.2.1⟩
  | done next =>
    rw [clearing] at cleared
    obtain ⟨keeps, sameException, sameSp, sameMemory⟩ := cleared
    have fine : (returning.fpca && returning.clronret && (returning.fpccr true).lspact) ≠ true := by
      intro lserr
      obtain ⟨last, left⟩ := clearOnReturn_fails lserr
      rw [left] at clearing
      cases clearing
    rw [Bool.eq_false_iff.mpr fine, Bool.false_or, Bool.and_eq_true] at fails
    have same : next.popped 0 = returning.popped 0 := by
      rw [popped_zero, popped_zero, ← sameSp, ← sameMemory]
      rfl
    obtain ⟨last, left⟩ := popAdditional_fails fails.1
      (same ▸ of_decide_eq_true fails.2 : next.popped 0 ≠ integritySignature cpu.pc)
    have popped := @popAdditional_keepsStacks F next cpu.pc
    rw [left] at popped
    rw [Outcome.done_bind]
    unfold Cpu.popFrame
    rw [left]
    exact ⟨keeps.trans popped.1, popped.2.trans sameException⟩

theorem unstack_framed (framed : cpu.failsBeforeFrame F = false) :
    KeepsStacks (cpu.returning F E) (cpu.clearFaultmask.unstack F E).cpu ∧
      (cpu.clearFaultmask.unstack F E).cpu.exception = cpu.framedNumber F := by
  obtain ⟨exception, memory, fpca, clronret, fpccr⟩ := returning_same F E cpu
  have sp := returning_sp F E cpu
  unfold Cpu.failsBeforeFrame at framed
  rw [← memory, ← fpca, ← clronret, ← fpccr, ← sp, ← popped_zero, Bool.or_eq_false_iff] at framed
  unfold Cpu.framedNumber
  rw [unstack_eq, ← memory, ← sp]
  generalize cpu.returning F E = returning at *
  have cleared := clearOnReturn_keepsStacks returning
  rw [clearOnReturn_done framed.1, Outcome.done_bind]
  obtain ⟨keeps, sameException, sameSp, sameMemory⟩ := cleared
  generalize returning.clearOnReturn.cpu = next at *
  have signature : hasAdditional F cpu.pc = true →
      next.popped 0 = integritySignature cpu.pc := by
    intro additional
    have signed := framed.2
    rw [additional, Bool.true_and, decide_eq_false_iff_not, not_not] at signed
    rw [popped_zero, sameSp, sameMemory, ← popped_zero]
    exact signed
  unfold Cpu.popFrame
  rw [popAdditional_done signature, Outcome.done_bind]
  cases additional : hasAdditional F cpu.pc with
  | false =>
    rw [if_neg Bool.false_ne_true, if_neg Bool.false_ne_true]
    obtain ⟨popped, number⟩ := @popRest_keepsStacks F next cpu.pc
    apply And.intro (keeps.trans popped)
    rw [number]
    unfold Cpu.popped
    rw [sameSp, sameMemory]
  | true =>
    rw [if_pos rfl, if_pos rfl]
    obtain ⟨popped, number⟩ := @popRest_keepsStacks F next.restoreCallee cpu.pc
    have callee : KeepsStacks next next.restoreCallee := ⟨rfl, rfl, rfl, rfl, rfl, rfl⟩
    apply And.intro ((keeps.trans callee).trans popped)
    rw [number]
    have place : next.restoreCallee.popped 7 =
        load next.memory (next.sp + BitVec.ofNat 32 (4 * 10) + BitVec.ofNat 32 (4 * 7)) := rfl
    rw [place, add_add_ofNat, sameSp, sameMemory]

theorem returned_selected (keeps : KeepsStacks (cpu.returning F E) cpu') : cpu'.StackSelected ↔
      (excReturnMode cpu.pc && cpu.returnSpsel F cpu.pc) =
        (decide (cpu'.exception = 0#32) && cpu.returnSpsel F cpu.pc) := by
  have process : cpu'.processSp = (excReturnMode cpu.pc && cpu.returnSpsel F cpu.pc) := by
    rw [keeps.processSp]
    exact congrArg StackPointer.process (returning_active F E cpu)
  unfold Cpu.StackSelected Cpu.isUsingProcessSpCurrent Cpu.isUsingProcessSp Cpu.inHandlerMode
  rw [process, keeps.control, keeps.secure, returning_spsel]
  simp

/-- The state in which the basic frame is popped. -/
def Cpu.beforeRest (F : Features) (E : Environment) (cpu : Cpu) : Cpu :=
  if hasAdditional F cpu.pc then (cpu.returning F E).clearOnReturn.cpu.restoreCallee
  else (cpu.returning F E).clearOnReturn.cpu

def Cpu.withReturning (cpu other : Cpu) : Cpu :=
  { cpu.withStacks other with
    control := other.control
    faultmask := other.faultmask
    nvic := other.nvic
    s := other.s
    fpscr := other.fpscr
    vpr := other.vpr
    r := other.r }

theorem returning_eq (F : Features) (E : Environment) (cpu : Cpu) :
    cpu.returning F E = cpu.withReturning (cpu.returning F E) := by
  have masked : ∀ {masked : Cpu}, masked = cpu.clearFaultmask.completeIrq F E →
      masked = { cpu with faultmask := masked.faultmask, nvic := masked.nvic } := by
    rintro masked rfl
    unfold Cpu.completeIrq Cpu.clearFaultmask
    split <;> split <;> rfl
  have relocates := @selectReturnStack_relocates F (cpu.clearFaultmask.completeIrq F E) cpu.pc
  unfold Cpu.returning
  unfold Relocates at relocates
  generalize cpu.clearFaultmask.completeIrq F E = first at masked relocates ⊢
  have same := masked rfl
  generalize first.selectReturnStack F cpu.pc = selected at relocates ⊢
  rw [relocates, same]
  rfl

theorem clearOnReturn_eq
    (fine : (cpu.fpca && cpu.clronret && (cpu.fpccr true).lspact) = false) :
    cpu.clearOnReturn.cpu = cpu.withReturning cpu.clearOnReturn.cpu := by
  unfold Cpu.clearOnReturn
  split
  · rename_i clears
    rw [clears, Bool.true_and] at fine
    rw [fine]
    rfl
  · rfl

theorem clearOnReturn_kept (cpu : Cpu) : cpu.clearOnReturn.cpu.r = cpu.r ∧
      ((cpu.fpca && cpu.clronret) = false → cpu.clearOnReturn = .done cpu) := by
  unfold Cpu.clearOnReturn
  split
  · rename_i clears
    apply And.intro
    · split <;> rfl
    · intro kept
      rw [clears] at kept
      cases kept
  · exact ⟨rfl, fun _ => rfl⟩

theorem returning_fine (framed : cpu.failsBeforeFrame F = false) :
    ((cpu.returning F E).fpca && (cpu.returning F E).clronret &&
      ((cpu.returning F E).fpccr true).lspact) = false := by
  obtain ⟨-, -, fpca, clronret, fpccr⟩ := returning_same F E cpu
  unfold Cpu.failsBeforeFrame at framed
  rw [Bool.or_eq_false_iff] at framed
  rw [fpca, clronret, fpccr]
  exact framed.1

theorem beforeRest_eq (framed : cpu.failsBeforeFrame F = false) :
    cpu.beforeRest F E = cpu.withReturning (cpu.beforeRest F E) := by
  have selected := returning_eq F E cpu
  have cleared := clearOnReturn_eq (@returning_fine cpu F E framed)
  unfold Cpu.beforeRest
  generalize (cpu.returning F E).clearOnReturn.cpu = next at cleared ⊢
  rw [selected] at cleared
  split
  · rw [cleared]
    rfl
  · rw [cleared]
    rfl

theorem beforeRest_part {α : Type} (framed : cpu.failsBeforeFrame F = false) (part : Cpu → α) :
    part (cpu.beforeRest F E) = part (cpu.withReturning (cpu.beforeRest F E)) :=
  congrArg part (beforeRest_eq framed)

theorem exit_valid (valid : cpu.invalidReturn F = false) :
    cpu.doV7mExceptionExit F E = cpu.clearFaultmask.unstack F E := by
  unfold Cpu.doV7mExceptionExit
  unfold Cpu.invalidReturn at valid
  rw [valid]
  rfl

theorem exit_framed (valid : cpu.invalidReturn F = false)
    (framed : cpu.failsBeforeFrame F = false) :
    cpu.doV7mExceptionExit F E = (cpu.beforeRest F E).popRest F cpu.pc := by
  have unstacks := @exit_valid _ F E valid
  have done := clearOnReturn_done (@returning_fine cpu F E framed)
  obtain ⟨-, -, sp, memory⟩ := clearOnReturn_keepsStacks (cpu.returning F E)
  have signature : hasAdditional F cpu.pc = true →
      (cpu.returning F E).clearOnReturn.cpu.popped 0 = integritySignature cpu.pc := by
    intro additional
    unfold Cpu.failsBeforeFrame at framed
    rw [additional, Bool.true_and, Bool.or_eq_false_iff, decide_eq_false_iff_not, not_not] at framed
    rw [popped_zero, sp, memory, returning_sp, (returning_same F E cpu).2.1]
    exact framed.2
  rw [unstacks, unstack_eq, done, Outcome.done_bind]
  unfold Cpu.popFrame
  rw [popAdditional_done signature, Outcome.done_bind]
  rfl

theorem exit_passed {last : Cpu} (left : cpu.doV7mExceptionExit F E = .done last) :
    cpu.invalidReturn F = false ∧ cpu.failsBeforeFrame F = false := by
  have valid : cpu.invalidReturn F = false := by
    cases refused : cpu.invalidReturn F with
    | false => rfl
    | true =>
      unfold Cpu.doV7mExceptionExit at left
      unfold Cpu.invalidReturn at refused
      rw [refused] at left
      cases left
  apply And.intro valid
  have unstacks := @exit_valid _ F E valid
  obtain ⟨-, memory, fpca, clronret, fpccr⟩ := returning_same F E cpu
  obtain ⟨-, -, sp, sameMemory⟩ := clearOnReturn_keepsStacks (cpu.returning F E)
  rw [unstacks, unstack_eq] at left
  unfold Cpu.failsBeforeFrame
  rw [← memory, ← fpca, ← clronret, ← fpccr, ← returning_sp F E cpu, ← popped_zero]
  generalize cpu.returning F E = returning at *
  rw [Bool.or_eq_false_iff]
  have cleared : (returning.fpca && returning.clronret && (returning.fpccr true).lspact) = false := by
    cases lserr : (returning.fpca && returning.clronret && (returning.fpccr true).lspact) with
    | false => rfl
    | true =>
      obtain ⟨stopped, loopExit⟩ := clearOnReturn_fails lserr
      rw [loopExit] at left
      cases left
  apply And.intro cleared
  rw [clearOnReturn_done cleared, Outcome.done_bind] at left
  have same : returning.clearOnReturn.cpu.popped 0 = returning.popped 0 := by
    rw [popped_zero, popped_zero, sp, sameMemory]
  rw [Bool.and_eq_false_iff, decide_eq_false_iff_not, ← same]
  cases additional : hasAdditional F cpu.pc with
  | false => exact .inl rfl
  | true =>
    apply Or.inr
    intro wrong
    obtain ⟨stopped, loopExit⟩ := popAdditional_fails additional wrong
    unfold Cpu.popFrame at left
    rw [loopExit] at left
    cases left

theorem beforeRest_keepsStacks (F : Features) (E : Environment) (cpu : Cpu) :
    KeepsStacks (cpu.returning F E) (cpu.beforeRest F E) := by
  have cleared := (clearOnReturn_keepsStacks (cpu.returning F E)).1
  unfold Cpu.beforeRest
  split
  · exact cleared.trans ⟨rfl, rfl, rfl, rfl, rfl, rfl⟩
  · exact cleared

def additionalCount (F : Features) (type : Word) : Nat := if hasAdditional F type then 10 else 0

theorem beforeRest_sp (F : Features) (E : Environment) (cpu : Cpu) : (cpu.beforeRest F E).sp =
      cpu.returnSp F + BitVec.ofNat 32 (4 * additionalCount F cpu.pc) := by
  have sp := (clearOnReturn_keepsStacks (cpu.returning F E)).2.2.1
  rw [returning_sp] at sp
  unfold Cpu.beforeRest additionalCount
  split
  · rw [← sp]
    rfl
  · rw [Nat.mul_zero, show BitVec.ofNat 32 0 = 0 from rfl, add_zero]
    exact sp

theorem beforeRest_secure (F : Features) (E : Environment) (cpu : Cpu) :
    (cpu.beforeRest F E).secure = cpu.returnSecure F cpu.pc := by
  rw [(beforeRest_keepsStacks F E cpu).secure]
  exact congrArg StackPointer.secure (returning_active F E cpu)

theorem beforeRest_fp (F : Features) (E : Environment) (kept : (cpu.fpca && cpu.clronret) = false) :
    (cpu.beforeRest F E).s = cpu.s ∧ (cpu.beforeRest F E).fpscr = cpu.fpscr ∧
      (cpu.beforeRest F E).vpr = cpu.vpr := by
  obtain ⟨-, -, fpca, clronret, -⟩ := returning_same F E cpu
  have same : (cpu.returning F E).clearOnReturn = .done (cpu.returning F E) := by
    apply (clearOnReturn_kept _).2
    rw [fpca, clronret]
    exact kept
  have masked : (cpu.clearFaultmask.completeIrq F E).s = cpu.s ∧
      (cpu.clearFaultmask.completeIrq F E).fpscr = cpu.fpscr ∧
      (cpu.clearFaultmask.completeIrq F E).vpr = cpu.vpr := by
    unfold Cpu.completeIrq Cpu.clearFaultmask
    split <;> split <;> exact ⟨rfl, rfl, rfl⟩
  have relocates := @selectReturnStack_relocates F (cpu.clearFaultmask.completeIrq F E) cpu.pc
  have returning : (cpu.returning F E).s = cpu.s ∧ (cpu.returning F E).fpscr = cpu.fpscr ∧
      (cpu.returning F E).vpr = cpu.vpr :=
    ⟨(relocates.same Cpu.s).trans masked.1, (relocates.same Cpu.fpscr).trans masked.2.1,
      (relocates.same Cpu.vpr).trans masked.2.2⟩
  unfold Cpu.beforeRest
  rw [same]
  split <;> exact returning

theorem beforeRest_upper (F : Features) (E : Environment) (cpu : Cpu) (i : Fin 32)
    (high : 16 ≤ i.val) : (cpu.beforeRest F E).s i = cpu.s i := by
  have masked : (cpu.clearFaultmask.completeIrq F E).s = cpu.s := by
    unfold Cpu.completeIrq Cpu.clearFaultmask
    split <;> split <;> rfl
  have relocates := @selectReturnStack_relocates F (cpu.clearFaultmask.completeIrq F E) cpu.pc
  have returning : (cpu.returning F E).s = cpu.s := (relocates.same Cpu.s).trans masked
  have cleared : (cpu.returning F E).clearOnReturn.cpu.s i = (cpu.returning F E).s i := by
    unfold Cpu.clearOnReturn
    split
    · split
      · rfl
      · exact if_neg (by omega)
    · rfl
  rw [returning] at cleared
  unfold Cpu.beforeRest
  split <;> exact cleared

theorem popExtended_done {last : Cpu} (left : cpu.popExtended F type = .done last) :
    (excReturnNfpca type = true ∧ last = cpu) ∨
      (excReturnNfpca type = false ∧ (cpu.fpccr cpu.secure).lspact = true ∧
        last = cpu.dropReservation) ∨
      (excReturnNfpca type = false ∧ (cpu.fpccr cpu.secure).lspact = false ∧
        last = cpu.popFpRegisters F) := by
  unfold Cpu.popExtended at left
  cases nfpca : excReturnNfpca type with
  | true =>
    rw [nfpca] at left
    cases left
    exact .inl ⟨rfl, rfl⟩
  | false =>
    rw [nfpca, if_neg Bool.false_ne_true] at left
    split at left
    · cases left
    · cases lspact : (cpu.fpccr cpu.secure).lspact with
      | true =>
        rw [lspact] at left
        cases left
        exact .inr (.inl ⟨rfl, rfl, rfl⟩)
      | false =>
        rw [lspact, if_neg Bool.false_ne_true] at left
        split at left
        · cases left
        · cases left
          exact .inr (.inr ⟨rfl, rfl, rfl⟩)

theorem popRest_done {last : Cpu} (left : cpu.popRest F type = .done last) :
    ∃ popped, cpu.popBasic.popExtended F type = .done popped ∧
      last = popped.finishExit type (cpu.popped 7) := by
  unfold Cpu.popRest at left
  cases extended : cpu.popBasic.popExtended F type with
  | loopExit stopped =>
    rw [extended] at left
    cases left
  | done popped =>
    rw [extended] at left
    cases left
    exact ⟨popped, rfl, rfl⟩

end Tlib.CortexM
