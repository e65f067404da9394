import Tlib.CortexM.StackPointerRuns
import Tlib.CortexM.ExceptionUndo

/-!
Contract: calls of Non-secure code and their returns.

Owns: what runs between a call and the branch to `FNC_RETURN`, with exceptions, gateways and further
calls to any depth, and what the return restores.
-/

namespace Tlib.CortexM

open Tlib.Library.WordStack BitVec

variable {cpu cpu' first inside leaving handled last : Cpu} {F : Features} {E : Environment}
  {frames : Word → Prop} {acknowledged addr : Word}

/-! ### Calls and their returns -/

/-- The addresses that `cpu_exec` takes for returns. -/
def Cpu.checkReturn (F : Features) (E : Environment) (cpu : Cpu) : Outcome :=
  if excReturnMin ≤ cpu.pc then cpu.doV7mExceptionExit F E
  else if fncReturnMin ≤ cpu.pc then .done cpu.doV7mSecureReturn
  else .done cpu

/-- A branch to `FNC_RETURN`. -/
def Cpu.functionReturn (F : Features) (E : Environment) (cpu : Cpu)
    (attribution : SecurityAttribution) : Outcome :=
  (cpu.v8mBxUpdatePc F attribution fncReturn).bind fun branched => branched.checkReturn F E

def Cpu.InCallFrame (cpu : Cpu) (b : Word) : Prop := Within (cpu.sp - 8#32) 8 b

/-- The bytes of an exception frame that no lazy preservation writes. -/
def Cpu.InCore (F : Features) (cpu : Cpu) (lr b : Word) : Prop :=
  Within (cpu.frameBase F lr) (4 * cpu.coreWords F lr) b

/-- Secure code executes `BLXNS` with a Non-secure address. -/
structure Cpu.Calls (cpu : Cpu) (addr : Word) : Prop where
  secure : cpu.secure = true
  even : addr.getLsbD 0 = false
  selected : cpu.StackSelected
  next : cpu.pc &&& ~~~1#32 = cpu.pc
  narrow : cpu.exception.toNat < 512

/-- What belongs to the Secure state: its stack pointers, and which of them it uses. -/
structure KeepsSecure (cpu cpu' : Cpu) : Prop where
  pointers : ∀ process, cpu'.pointer ⟨true, process⟩ = cpu.pointer ⟨true, process⟩
  spsel : (cpu'.control true).spsel = (cpu.control true).spsel

/-- Code that writes no byte of an open frame, nor Non-secure code what is Secure. -/
structure OwnStep (frames : Word → Prop) (cpu cpu' : Cpu) : Prop where
  secure : cpu'.secure = cpu.secure
  exception : cpu'.exception = cpu.exception
  memory : Agree frames cpu.memory cpu'.memory
  kept : cpu.secure = false → KeepsSecure cpu cpu'

/-- An exception is taken, with a frame that is apart from the open ones. -/
structure Cpu.Interrupted (F : Features) (E : Environment) (cpu : Cpu) (acknowledged : Word)
    (frames : Word → Prop) : Prop where
  takes : cpu.Takes F E acknowledged
  selected : cpu.StackSelected
  narrow : cpu.exception.toNat < 512
  apart : ∀ b, cpu.InFrame F (cpu.handlerLr F E acknowledged) b → ¬ frames b

/-- A handler comes to its return with the stacks as it has found them. -/
structure Unwinds (F : Features) (E : Environment) (cpu : Cpu) (acknowledged : Word)
    (handled : Cpu) : Prop where
  returning : Returning (cpu.handlerLr F E acknowledged) (cpu.takeIrq F E acknowledged).cpu handled
  pointers : ∀ p : StackPointer, p.secure = cpu.secure ∨ cpu.handlerSecure F E acknowledged = true →
      handled.pointer p = (cpu.takeIrq F E acknowledged).cpu.pointer p
  spsel : cpu.handlerSecure F E acknowledged ≠ cpu.secure →
    (handled.control cpu.secure).spsel = (cpu.control cpu.secure).spsel

/-- What may run while the bytes in `frames` belong to open frames, calls with their returns. -/
inductive Excursion (F : Features) (E : Environment) : (Word → Prop) → Cpu → Cpu → Prop
  | start (frames : Word → Prop) (cpu : Cpu) : Excursion F E frames cpu cpu
  | code {frames : Word → Prop} {first cpu cpu' : Cpu} (run : Excursion F E frames first cpu)
      (code : OwnStep frames cpu cpu') : Excursion F E frames first cpu'
  | exception {frames : Word → Prop} {first cpu handled last : Cpu} {acknowledged : Word}
      (run : Excursion F E frames first cpu)
      (interrupted : cpu.Interrupted F E acknowledged frames)
      (handler : Excursion F E
        (fun b => frames b ∨ cpu.InCore F (cpu.handlerLr F E acknowledged) b)
        (cpu.takeIrq F E acknowledged).cpu handled)
      (unwinds : Unwinds F E cpu acknowledged handled)
      (left : handled.doV7mExceptionExit F E = .done last) : Excursion F E frames first last
  /-- `SG`, and `BXNS` once the Secure function is done. -/
  | gateway {frames : Word → Prop} {first cpu inside leaving : Cpu}
      {attribution : SecurityAttribution} {addr : Word} (run : Excursion F E frames first cpu)
      (nonSecure : cpu.secure = false) (enters : cpu.v8mSg attribution = .done inside)
      (secure : inside.secure = true) (body : Excursion F E frames inside leaving)
      (balanced : KeepsSecure inside leaving) (even : addr.getLsbD 0 = false)
      (real : addr < fncReturnMin) : Excursion F E frames first (leaving.v8mBlxns addr false)
  | call {frames : Word → Prop} {first cpu leaving last : Cpu}
      {attribution : SecurityAttribution} {addr : Word} (run : Excursion F E frames first cpu)
      (calls : cpu.Calls addr) (granted : cpu.pushCallFrame.2 = false)
      (apart : ∀ b, cpu.InCallFrame b → ¬ frames b)
      (body : Excursion F E (fun b => frames b ∨ cpu.InCallFrame b)
        (cpu.v8mBlxns addr true) leaving)
      (left : leaving.functionReturn F E attribution = .done last) :
      Excursion F E frames first last

/-! ### Own steps -/

theorem KeepsSecure.trans {cpu'' : Cpu} (first : KeepsSecure cpu cpu')
    (second : KeepsSecure cpu' cpu'') : KeepsSecure cpu cpu'' :=
  ⟨fun process => (second.pointers process).trans (first.pointers process),
    second.spsel.trans first.spsel⟩

theorem OwnStep.refl (frames : Word → Prop) (cpu : Cpu) : OwnStep frames cpu cpu :=
  ⟨rfl, rfl, Agree.refl _ _, fun _ => ⟨fun _ => rfl, rfl⟩⟩

theorem OwnStep.trans {cpu'' : Cpu} (first : OwnStep frames cpu cpu')
    (second : OwnStep frames cpu' cpu'') : OwnStep frames cpu cpu'' := by
  constructor
  · exact second.secure.trans first.secure
  · exact second.exception.trans first.exception
  · exact first.memory.trans second.memory
  · intro nonSecure
    exact (first.kept nonSecure).trans (second.kept (first.secure.trans nonSecure))

theorem OwnStep.mono {fewer : Word → Prop} (own : OwnStep frames cpu cpu')
    (inside : ∀ b, fewer b → frames b) : OwnStep fewer cpu cpu' :=
  ⟨own.secure, own.exception, own.memory.mono inside, own.kept⟩

/-! ### Exceptions -/

theorem Unwinds.awaited (trustzone : F.hasTrustzone = true)
    (interrupted : cpu.Interrupted F E acknowledged frames)
    (unwinds : Unwinds F E cpu acknowledged handled)
    (kept : Agree (cpu.InCore F (cpu.handlerLr F E acknowledged))
      (cpu.takeIrq F E acknowledged).cpu.memory handled.memory)
    (left : handled.doV7mExceptionExit F E = .done last) :
    Awaited F cpu (cpu.handlerLr F E acknowledged) handled := by
  obtain ⟨valid, framed⟩ := exit_passed left
  have entered := interrupted.takes.entered
  have returning := unwinds.returning
  have pointer := unwinds.pointers cpu.active (.inl rfl)
  rw [entered, Outcome.done_cpu] at returning pointer kept
  have secure : handled.returnSecure F (cpu.handlerLr F E acknowledged) = cpu.secure := by
    rw [← returning.pc]
    exact returning_secure returning
  constructor
  · exact returning.pc
  · exact valid
  · unfold Cpu.failsBeforeFrame at framed
    rw [Bool.or_eq_false_iff] at framed
    exact framed.1
  · apply returnStack_interrupted interrupted.selected _ secure unwinds.spsel
    intro single
    rw [trustzone] at single
    cases single
  · exact pointer.trans (entered_base F cpu _ _)
  · have few := coreWords_le F cpu (cpu.handlerLr F E acknowledged)
    have count := coreFrame_length F cpu cpu.stackedXpsr (cpu.handlerLr F E acknowledged)
    have core := entered_core F cpu (secureTarget F E cpu.secure acknowledged).2
      (cpu.handlerLr F E acknowledged)
    apply core.of_agree _ (by omega) (by decide)
    intro b within
    rw [count] at within
    exact kept b within
  · have state : excReturnS (cpu.handlerLr F E acknowledged) = cpu.secure :=
      excReturn_s cpu _ trustzone
    unfold hasAdditional Cpu.leavesSecure shouldPopAdditionalRegisters
    rw [state, trustzone, Bool.true_and, Bool.true_and, Bool.and_comm]

theorem Awaited.framedNumber {lr : Word} (awaited : Awaited F cpu lr handled)
    (narrow : cpu.exception.toNat < 512) : handled.framedNumber F = cpu.exception := by
  have basic := awaited.basic (E := allNonSecure)
  have memory : (handled.beforeRest F allNonSecure).memory = handled.memory :=
    beforeRest_part awaited.framed Cpu.memory
  have xpsr := basic.load_eq 7 (by show 7 < 8; decide)
  rw [memory, beforeRest_sp, add_add_ofNat] at xpsr
  have place : 4 * additionalCount F handled.pc + 4 * 7 =
      4 * (7 + if hasAdditional F handled.pc then 10 else 0) := by
    unfold additionalCount
    omega
  rw [place] at xpsr
  unfold Cpu.framedNumber
  rw [xpsr]
  exact stackedXpsr_exception narrow

theorem returning_control (F : Features) (E : Environment) (cpu : Cpu) :
    (cpu.returning F E).control = (cpu.restoreSpsel F cpu.pc).control := by
  have masked := ((clearFaultmask_keepsStacks cpu).trans
    (@completeIrq_keepsStacks F E cpu.clearFaultmask)).control
  unfold Cpu.returning
  rw [selectReturnStack_control]
  unfold Cpu.restoreSpsel
  rw [masked]

theorem restoreSpsel_spsel (F : Features) (cpu : Cpu) (type : Word) (bank : Bool) :
    ((cpu.restoreSpsel F type).control bank).spsel =
      if bank = (F.hasTrustzone && excReturnEs type) then excReturnSpsel type
      else (cpu.control bank).spsel := by
  unfold Cpu.restoreSpsel setBank
  dsimp only
  split <;> rfl

theorem entered_keepsSecure (number lr : Word) (nonSecure : cpu.secure = false) :
    KeepsSecure cpu (cpu.entered F number lr) := by
  constructor
  · intro process
    apply entered_onlyMoves
    intro same
    have secure : true = cpu.secure := congrArg StackPointer.secure same
    rw [nonSecure] at secure
    cases secure
  · have control := @entered_part cpu F _ Cpu.control number lr
    rw [control]
    show ((cpu.extended F number).control true).spsel = _
    rw [(extended_known F cpu number).keeps.control]

theorem Unwinds.ownStep (trustzone : F.hasTrustzone = true)
    (interrupted : cpu.Interrupted F E acknowledged frames)
    (unwinds : Unwinds F E cpu acknowledged handled)
    (handler : OwnStep
      (fun b => frames b ∨ cpu.InCore F (cpu.handlerLr F E acknowledged) b)
      (cpu.takeIrq F E acknowledged).cpu handled)
    (left : handled.doV7mExceptionExit F E = .done last) : OwnStep frames cpu last := by
  have awaited := unwinds.awaited trustzone interrupted
    (handler.memory.mono fun b core => .inr core) left
  have entered := interrupted.takes.entered
  obtain ⟨valid, framed⟩ := exit_passed left
  obtain ⟨unstacks, moves⟩ := exit_moves (E := E) valid
  obtain ⟨keeps, exception⟩ := unstack_framed (E := E) framed
  rw [← unstacks, left, Outcome.done_cpu] at keeps exception
  rw [left, Outcome.done_cpu] at moves
  have pc := awaited.pc
  have stack := awaited.stack
  constructor
  · have secure := congrArg StackPointer.secure (returning_active F E handled)
    rw [pc, stack] at secure
    exact keeps.secure.trans secure
  · rw [exception]
    exact awaited.framedNumber interrupted.narrow
  · intro b inside
    rw [(exit_keeps left).1, handler.memory b (.inl inside), entered, Outcome.done_cpu]
    apply entered_outside
    exact fun frame => interrupted.apart b frame inside
  · intro nonSecure
    have start : KeepsSecure cpu (cpu.takeIrq F E acknowledged).cpu := by
      rw [entered, Outcome.done_cpu]
      exact entered_keepsSecure _ _ nonSecure
    have target : (cpu.takeIrq F E acknowledged).cpu.secure =
        cpu.handlerSecure F E acknowledged := by
      rw [entered, Outcome.done_cpu, entered_secure _ _ trustzone]
      exact excReturn_es cpu _ trustzone
    have es : excReturnEs (cpu.handlerLr F E acknowledged) =
        cpu.handlerSecure F E acknowledged := excReturn_es cpu _ trustzone
    have control : last.control =
        (handled.restoreSpsel F (cpu.handlerLr F E acknowledged)).control := by
      rw [keeps.control, returning_control, pc]
    constructor
    · intro process
      have untouched : last.pointer ⟨true, process⟩ = handled.pointer ⟨true, process⟩ := by
        apply moves
        intro same
        have popped : (handled.returnStack F handled.pc) = ⟨true, process⟩ := Option.some.inj same
        rw [pc, stack] at popped
        have secure : cpu.secure = true := congrArg StackPointer.secure popped
        rw [nonSecure] at secure
        cases secure
      rw [untouched]
      cases secureHandler : cpu.handlerSecure F E acknowledged with
      | true =>
        rw [unwinds.pointers _ (.inr secureHandler)]
        exact start.pointers process
      | false =>
        rw [(handler.kept (target.trans secureHandler)).pointers]
        exact start.pointers process
    · rw [control, restoreSpsel_spsel, trustzone, es, Bool.true_and]
      cases secureHandler : cpu.handlerSecure F E acknowledged with
      | true =>
        rw [if_pos rfl]
        unfold Cpu.handlerLr
        rw [excReturn_spsel, F.v8_of_trustzone trustzone, if_pos rfl]
        unfold Cpu.handlerSecure at secureHandler
        rw [secureHandler]
      | false =>
        rw [if_neg (by decide), (handler.kept (target.trans secureHandler)).spsel]
        exact start.spsel

/-! ### Gateways -/

theorem v8mSg_enters {attribution : SecurityAttribution} (nonSecure : cpu.secure = false)
    (enters : cpu.v8mSg attribution = .done inside) (secure : inside.secure = true) :
    inside = cpu.enterGateway := by
  have differs : inside ≠ cpu := by
    rintro rfl
    rw [nonSecure] at secure
    cases secure
  unfold Cpu.v8mSg at enters
  rw [nonSecure, if_neg Bool.false_ne_true] at enters
  split at enters
  · cases enters
    exact absurd rfl differs
  · split at enters
    · split at enters <;> cases enters
      rfl
    · cases enters

theorem enterGateway_relocates (cpu : Cpu) : Relocates { cpu with lr := cpu.lr &&& ~~~1#32 }
      ({ cpu with lr := cpu.lr &&& ~~~1#32 }.switchV7mSecurityState true) :=
  switchV7mSecurityState_relocates _ true

theorem enterGateway_keeps (cpu : Cpu) :
    KeepsSecure cpu cpu.enterGateway ∧ cpu.enterGateway.exception = cpu.exception ∧
      cpu.enterGateway.memory = cpu.memory := by
  have relocates := enterGateway_relocates cpu
  refine ⟨⟨?_, ?_⟩, relocates.same Cpu.exception, relocates.same Cpu.memory⟩
  · intro process
    exact switchV7mSecurityState_movesNone { cpu with lr := cpu.lr &&& ~~~1#32 } true _
  · exact relocates.same fun c => (c.control true).spsel

theorem leaveSecure_keeps (cpu : Cpu) :
    KeepsSecure cpu cpu.leaveSecure ∧ cpu.leaveSecure.exception = cpu.exception ∧
      cpu.leaveSecure.memory = cpu.memory ∧ cpu.leaveSecure.secure = false := by
  have relocates := switchV7mSecurityState_relocates { cpu with sfpa := false } false
  refine ⟨⟨?_, ?_⟩, relocates.same Cpu.exception, relocates.same Cpu.memory, ?_⟩
  · intro process
    exact leaveSecure_movesNone cpu _
  · exact relocates.same fun c => (c.control true).spsel
  · exact switchV7mSecurityState_secure _ false

theorem v8mBlxns_branch (even : addr.getLsbD 0 = false) (real : addr < fncReturnMin) :
    cpu.v8mBlxns addr false = { cpu.leaveSecure with pc := addr &&& ~~~1#32 } := by
  have low : ¬ fncReturnMin ≤ addr := BitVec.not_le.mpr real
  unfold Cpu.v8mBlxns
  rw [decide_eq_false low, if_neg (by decide), if_pos even, if_neg Bool.false_ne_true]

theorem gateway_ownStep {attribution : SecurityAttribution} (nonSecure : cpu.secure = false)
    (enters : cpu.v8mSg attribution = .done inside) (secure : inside.secure = true)
    (body : OwnStep frames inside leaving) (balanced : KeepsSecure inside leaving)
    (even : addr.getLsbD 0 = false) (real : addr < fncReturnMin) :
    OwnStep frames cpu (leaving.v8mBlxns addr false) := by
  obtain ⟨left, exception, memory, state⟩ := leaveSecure_keeps leaving
  obtain ⟨entered, sameException, sameMemory⟩ := enterGateway_keeps cpu
  rw [← v8mSg_enters nonSecure enters secure] at entered sameException sameMemory
  rw [v8mBlxns_branch even real]
  constructor
  · exact state.trans nonSecure.symm
  · exact (exception.trans body.exception).trans sameException
  · intro b inside
    show leaving.leaveSecure.memory b = _
    rw [memory, body.memory b inside, sameMemory]
  · intro _
    have all := (entered.trans balanced).trans left
    exact ⟨all.pointers, all.spsel⟩

/-! ### Calls -/

theorem v7mPushAll_accepted {vals : List Word} (accepted : (cpu.v7mPushAll vals).2 = false) :
    (cpu.v7mPushAll vals).1 = cpu.withStack (cpu.stack.pushAll vals) := by
  induction vals generalizing cpu with
  | nil => rfl
  | cons val vals ih =>
    have both : ((cpu.v7mPush val).2 || ((cpu.v7mPush val).1.v7mPushAll vals).2) = false :=
      accepted
    rw [Bool.or_eq_false_iff] at both
    have pushed : (cpu.v7mPush val).1 = cpu.pushWord val := by
      have first := both.1
      unfold Cpu.v7mPush at first ⊢
      split
      · rfl
      · rename_i refused
        split at first
        · rename_i success
          exact absurd success refused
        · cases first
    have rest := ih both.2
    rw [pushed] at rest
    show ((cpu.v7mPush val).1.v7mPushAll vals).1 = _
    rw [pushed, rest]
    rfl

def Cpu.callWords (cpu : Cpu) : List Word := [cpu.pc ||| 1#32, cpu.partialRetpsr]

theorem v8mBlxns_call (even : addr.getLsbD 0 = false) : cpu.v8mBlxns addr true =
      { cpu.pushCallFrame.1.leaveSecure.hideCaller with pc := addr &&& ~~~1#32 } := by
  unfold Cpu.v8mBlxns
  rw [if_neg (by simp), if_pos even, if_pos rfl]

/-- What the callee can count on, and what it sees. -/
structure Called (cpu called : Cpu) : Prop where
  secure : called.secure = false
  exception : called.exception = if cpu.inHandlerMode then 1#32 else cpu.exception
  spsel : (called.control true).spsel = (cpu.control true).spsel
  pointers : ∀ process, called.pointer ⟨true, process⟩ =
    if process = cpu.processSp then cpu.sp - 8#32 else cpu.pointer ⟨true, process⟩
  memory : called.memory = (cpu.stack.pushAll cpu.callWords).memory

theorem v8mBlxns_called (calls : cpu.Calls addr) (granted : cpu.pushCallFrame.2 = false) :
    Called cpu (cpu.v8mBlxns addr true) := by
  have pushed : cpu.pushCallFrame.1 = cpu.withStack (cpu.stack.pushAll cpu.callWords) :=
    v7mPushAll_accepted granted
  obtain ⟨left, exception, memory, state⟩ := leaveSecure_keeps cpu.pushCallFrame.1
  obtain ⟨keeps, sameException⟩ := pushCallFrame_keepsStacks cpu
  rw [v8mBlxns_call calls.even]
  constructor
  · exact state
  · show (if cpu.pushCallFrame.1.leaveSecure.inHandlerMode then 1#32
      else cpu.pushCallFrame.1.leaveSecure.exception) = _
    unfold Cpu.inHandlerMode
    rw [exception, sameException]
  · apply left.spsel.trans
    rw [keeps.control]
  · intro process
    apply (left.pointers process).trans
    split
    · rename_i active
      have place : (⟨true, process⟩ : StackPointer) = cpu.pushCallFrame.1.active := by
        rw [keeps.active]
        unfold Cpu.active
        rw [active, calls.secure]
      rw [place, pointer_active, pushed]
      show (cpu.stack.pushAll cpu.callWords).sp = _
      rw [pushAll_sp]
      rfl
    · rename_i other
      apply keeps.onlyMoves
      intro same
      exact other (congrArg StackPointer.process same)
  · show cpu.pushCallFrame.1.leaveSecure.memory = _
    rw [memory, pushed]
    rfl

/-- The state in which `cpu_exec` finds a branch to `FNC_RETURN`. -/
def Cpu.atFncReturn (cpu : Cpu) : Cpu := { cpu with pc := fncReturn &&& ~~~1#32 }

theorem functionReturn_eq (F : Features) (E : Environment) (cpu : Cpu)
    (attribution : SecurityAttribution) :
    cpu.functionReturn F E attribution = .done cpu.atFncReturn.doV7mSecureReturn := by
  have branch : cpu.v8mBxUpdatePc F attribution fncReturn = .done cpu.atFncReturn := by
    unfold Cpu.v8mBxUpdatePc
    rw [if_pos (by decide), if_neg (by decide)]
    rfl
  have high : ¬ excReturnMin ≤ cpu.atFncReturn.pc := by
    show ¬ excReturnMin ≤ fncReturn &&& ~~~1#32
    decide
  have low : fncReturnMin ≤ cpu.atFncReturn.pc := by
    show fncReturnMin ≤ fncReturn &&& ~~~1#32
    decide
  unfold Cpu.functionReturn
  rw [branch, Outcome.done_bind]
  unfold Cpu.checkReturn
  rw [if_neg high, if_pos low]

theorem atFncReturn_own {start : Cpu} (own : OwnStep frames start leaving) :
    OwnStep frames start leaving.atFncReturn :=
  ⟨own.secure, own.exception, own.memory, fun nonSecure =>
    ⟨(own.kept nonSecure).pointers, (own.kept nonSecure).spsel⟩⟩

theorem partialRetpsr_parts (narrow : cpu.exception.toNat < 512) :
    cpu.partialRetpsr &&& ~~~bitIf true 20 = cpu.exception ∧
      cpu.partialRetpsr.getLsbD 20 = cpu.sfpa := by
  have high : cpu.exception.getLsbD 20 = false := exception_high narrow (by decide)
  unfold Cpu.partialRetpsr
  constructor
  · apply eq_of_getLsbD_eq
    intro i inside
    rw [getLsbD_and, getLsbD_or, getLsbD_not, bitIf_getLsbD _ _ _ inside,
      bitIf_getLsbD _ _ _ inside, decide_eq_true inside, Bool.true_and, Bool.true_and]
    by_cases flag : i = 20
    · rw [flag, high]
      simp
    · simp [flag]
  · rw [getLsbD_or, high, bitIf_getLsbD _ _ _ (by decide)]
    simp

/-- The Secure code goes on behind the call, with its stacks and its exception number. -/
structure CallRestored (cpu last : Cpu) : Prop where
  secure : last.secure = true
  pc : last.pc = cpu.pc
  pointers : ∀ process, last.pointer ⟨true, process⟩ = cpu.pointer ⟨true, process⟩
  exception : last.exception = cpu.exception

section

variable (calls : cpu.Calls addr) (granted : cpu.pushCallFrame.2 = false)
  (own : OwnStep cpu.InCallFrame (cpu.v8mBlxns addr true) leaving)

include calls granted own

theorem returnStack_called : leaving.isUsingProcessSp leaving.inHandlerMode true = cpu.processSp ∧
      leaving.pointer ⟨true, cpu.processSp⟩ = cpu.sp - 8#32 := by
  have called := v8mBlxns_called calls granted
  have kept := own.kept called.secure
  have mode : leaving.inHandlerMode = cpu.inHandlerMode := by
    unfold Cpu.inHandlerMode
    rw [own.exception, called.exception]
    unfold Cpu.inHandlerMode
    split
    · rename_i handler
      rw [handler]
      decide
    · rfl
  have selected := calls.selected
  unfold Cpu.StackSelected Cpu.isUsingProcessSpCurrent Cpu.isUsingProcessSp at selected
  constructor
  · unfold Cpu.isUsingProcessSp
    rw [mode, kept.spsel, called.spsel, selected, calls.secure]
  · rw [kept.pointers, called.pointers, if_pos rfl]

theorem callFrame_holds :
    Holds leaving.memory (cpu.sp - 8#32) [cpu.partialRetpsr, cpu.pc ||| 1#32] := by
  have called := v8mBlxns_called calls granted
  have pushed := @pushAll_holds 32 cpu.callWords cpu.stack (by show 4 * 2 ≤ _; decide) (by decide)
  rw [pushAll_sp, ← called.memory] at pushed
  exact pushed.of_agree own.memory (by show 4 * 2 ≤ _; decide) (by decide)

theorem functionReturn_restores
    (attribution : SecurityAttribution) :
    ∃ last, leaving.functionReturn F E attribution = .done last ∧ CallRestored cpu last ∧
      last.sfpa = (leaving.sfpa || cpu.sfpa) ∧ last.memory = leaving.memory := by
  have arrived := atFncReturn_own own
  obtain ⟨process, sp⟩ := returnStack_called calls granted arrived
  have holds := callFrame_holds calls granted arrived
  have called := v8mBlxns_called calls granted
  have nonSecure : leaving.atFncReturn.secure = false := arrived.secure.trans called.secure
  have kept := arrived.kept called.secure
  have sfpa : leaving.atFncReturn.sfpa = leaving.sfpa := rfl
  have sameMemory : leaving.atFncReturn.memory = leaving.memory := rfl
  rw [functionReturn_eq, ← sfpa, ← sameMemory]
  clear sfpa sameMemory
  generalize leaving.atFncReturn = arriving at *
  have relocates := switchV7mSecurityState_relocates arriving true
  have changes : ¬ true = arriving.secure := by
    rw [nonSecure]
    decide
  have active : (arriving.switchV7mSecurityState true).active = ⟨true, cpu.processSp⟩ := by
    unfold Cpu.switchV7mSecurityState
    rw [if_neg changes, ← process]
    rfl
  have top : (arriving.switchV7mSecurityState true).sp = cpu.sp - 8#32 := by
    rw [← pointer_active, active, switchV7mSecurityState_movesNone arriving true, sp]
  have memory : (arriving.switchV7mSecurityState true).memory = arriving.memory :=
    relocates.same Cpu.memory
  rw [← top, ← memory] at holds
  have status : (arriving.switchV7mSecurityState true).popped 0 = cpu.partialRetpsr :=
    popped_of_holds holds 0 (by show 0 < 2; decide)
  have address : (arriving.switchV7mSecurityState true).popped 1 = cpu.pc ||| 1#32 :=
    popped_of_holds holds 1 (by show 1 < 2; decide)
  have stays : KeepsStacks (arriving.switchV7mSecurityState true) arriving.doV7mSecureReturn :=
    ⟨rfl, rfl, rfl, rfl, rfl, rfl⟩
  have own : cpu.active = ⟨true, cpu.processSp⟩ := by
    unfold Cpu.active
    rw [calls.secure]
  obtain ⟨number, flag⟩ := partialRetpsr_parts calls.narrow
  refine ⟨_, rfl, ⟨?_, ?_, ?_, ?_⟩, ?_, memory⟩
  · exact switchV7mSecurityState_secure arriving true
  · show (arriving.switchV7mSecurityState true).popped 1 &&& ~~~1#32 = cpu.pc
    rw [address, and_or_distrib_right, calls.next]
    simp
  · intro other
    by_cases same : other = cpu.processSp
    · have place : (⟨true, other⟩ : StackPointer) = arriving.doV7mSecureReturn.active := by
        rw [stays.active, active, same]
      have before : (⟨true, other⟩ : StackPointer) = cpu.active := by
        rw [own, same]
      rw [place, pointer_active, ← place, before, pointer_active]
      show (arriving.switchV7mSecurityState true).sp + 8#32 = cpu.sp
      rw [top]
      exact BitVec.sub_add_cancel _ _
    · have apart : (⟨true, other⟩ : StackPointer) ≠
          (arriving.switchV7mSecurityState true).active := by
        rw [active]
        intro equal
        exact same (congrArg StackPointer.process equal)
      rw [stays.onlyMoves _ apart, switchV7mSecurityState_movesNone, kept.pointers,
        called.pointers, if_neg same]
  · show (arriving.switchV7mSecurityState true).popped 0 &&& ~~~bitIf true 20 = cpu.exception
    rw [status, number]
  · show ((arriving.switchV7mSecurityState true).sfpa ||
      ((arriving.switchV7mSecurityState true).popped 0).getLsbD 20) = _
    rw [status, flag]
    exact congrArg (· || cpu.sfpa) (relocates.same Cpu.sfpa)

end

theorem call_ownStep {attribution : SecurityAttribution} (calls : cpu.Calls addr)
    (granted : cpu.pushCallFrame.2 = false) (apart : ∀ b, cpu.InCallFrame b → ¬ frames b)
    (body : OwnStep (fun b => frames b ∨ cpu.InCallFrame b) (cpu.v8mBlxns addr true) leaving)
    (left : leaving.functionReturn F E attribution = .done last) : OwnStep frames cpu last := by
  obtain ⟨returned, same, restored, -, memory⟩ :=
    functionReturn_restores (F := F) (E := E) calls granted (body.mono fun _ => .inr) attribution
  rw [left] at same
  cases same
  have called := v8mBlxns_called calls granted
  constructor
  · exact restored.secure.trans calls.secure.symm
  · exact restored.exception
  · intro b inside
    rw [memory, body.memory b (.inl inside), called.memory]
    apply pushAll_outside _ (by show 4 * 2 ≤ _; decide)
    exact fun frame => apart b frame inside
  · intro nonSecure
    rw [calls.secure] at nonSecure
    cases nonSecure

/-! ### Whole excursions -/

theorem Excursion.ownStep (trustzone : F.hasTrustzone = true)
    (run : Excursion F E frames first last) : OwnStep frames first last := by
  induction run with
  | start frames cpu => exact OwnStep.refl frames cpu
  | code run code ih => exact ih.trans code
  | exception run interrupted handler unwinds left before during =>
    exact before.trans (unwinds.ownStep trustzone interrupted during left)
  | gateway run nonSecure enters secure body balanced even real before during =>
    exact before.trans (gateway_ownStep nonSecure enters secure during balanced even real)
  | call run calls granted apart body left before during =>
    exact before.trans (call_ownStep calls granted apart during left)

structure CallUndone (F : Features) (E : Environment) (cpu : Cpu) (addr : Word) (leaving : Cpu)
    (attribution : SecurityAttribution) : Prop where
  refused : cpu.pushCallFrame.2 = true → (cpu.v8mBlxns addr true).secure = true
  dummy : cpu.pushCallFrame.2 = false → leaving.exception = if cpu.inHandlerMode then 1#32 else 0#32
  innermost : cpu.pushCallFrame.2 = false → leaving.pointer ⟨true, cpu.processSp⟩ = cpu.sp - 8#32
  returns : cpu.pushCallFrame.2 = false →
    ∃ last, leaving.functionReturn F E attribution = .done last ∧ CallRestored cpu last ∧
      last.sfpa = cpu.sfpa

/-- `BLXNS` is undone by the branch to `FNC_RETURN` exactly if its pushes are granted and the flag
`CONTROL.SFPA`, which the return only sets, is not set without having been so before. -/
theorem callUndone_iff (trustzone : F.hasTrustzone = true) (calls : cpu.Calls addr)
    (run : Excursion F E cpu.InCallFrame (cpu.v8mBlxns addr true) leaving)
    (attribution : SecurityAttribution) :
    CallUndone F E cpu addr leaving attribution ↔
      cpu.pushCallFrame.2 = false ∧ (leaving.sfpa = true → cpu.sfpa = true) := by
  have own := run.ownStep trustzone
  have enters : (cpu.v8mBlxns addr true).secure = false := by
    rw [v8mBlxns_call calls.even]
    exact (leaveSecure_keeps cpu.pushCallFrame.1).2.2.2
  constructor
  · intro undone
    have granted : cpu.pushCallFrame.2 = false := by
      cases refusal : cpu.pushCallFrame.2 with
      | false => rfl
      | true =>
        have stays := undone.refused refusal
        rw [enters] at stays
        cases stays
    apply And.intro granted
    obtain ⟨last, left, -, flag⟩ := undone.returns granted
    obtain ⟨returned, same, -, sfpa, -⟩ :=
      functionReturn_restores (F := F) (E := E) calls granted own attribution
    rw [left] at same
    cases same
    rw [flag] at sfpa
    intro set
    rw [sfpa, set, Bool.true_or]
  · rintro ⟨granted, kept⟩
    have called := v8mBlxns_called calls granted
    constructor
    · intro refusal
      rw [granted] at refusal
      cases refusal
    · intro _
      rw [own.exception, called.exception]
      split
      · rfl
      · rename_i thread
        unfold Cpu.inHandlerMode at thread
        simpa using thread
    · intro _
      exact (returnStack_called calls granted own).2
    · intro _
      obtain ⟨last, left, restored, sfpa, -⟩ :=
        functionReturn_restores (F := F) (E := E) calls granted own attribution
      refine ⟨last, left, restored, ?_⟩
      rw [sfpa]
      cases set : leaving.sfpa with
      | false => rfl
      | true => rw [kept set, Bool.or_true]

theorem atRest_calls : (Cpu.atRest true).Calls 0x200#32 :=
  ⟨rfl, by decide, by decide, by decide, by decide⟩

/-- The Non-secure function, behind a gateway to a Secure one. -/
def Cpu.inGateway : Cpu := ((Cpu.atRest true).v8mBlxns 0x200#32 true).enterGateway

theorem inGateway_calls : Cpu.inGateway.Calls 0x300#32 :=
  ⟨by decide, by decide, by decide, by decide, by decide⟩

/-- The Secure function behind the gateway has called a Non-secure one, which has returned. -/
def Cpu.calledBack : Cpu := (Cpu.inGateway.v8mBlxns 0x300#32 true).atFncReturn.doV7mSecureReturn

theorem callUndone_atRest : CallUndone .v8m allNonSecure (Cpu.atRest true) 0x200#32
      (Cpu.calledBack.v8mBlxns 0x204#32 false) .nonSecure := by
  have enters : ((Cpu.atRest true).v8mBlxns 0x200#32 true).v8mSg .secureNsc =
      .done Cpu.inGateway := by
    unfold Cpu.v8mSg
    rw [if_neg (by decide), if_neg (by decide)]
    rfl
  have apart (b : Word) : Cpu.inGateway.InCallFrame b → ¬(Cpu.atRest true).InCallFrame b := by
    have inner : Cpu.inGateway.sp = 0x1ff8#32 := by decide
    have outer : (Cpu.atRest true).sp = 0x2000#32 := rfl
    unfold Cpu.InCallFrame Within
    rw [inner, outer]
    bv_omega
  have body : Excursion .v8m allNonSecure (Cpu.atRest true).InCallFrame Cpu.inGateway
      Cpu.calledBack :=
    .call (.start _ _) inGateway_calls (by decide) apart (.start _ _)
      (functionReturn_eq .v8m allNonSecure _ .nonSecure)
  have balanced : KeepsSecure Cpu.inGateway Cpu.calledBack := by
    refine ⟨fun process => ?_, by decide⟩
    cases process <;> decide
  exact (callUndone_iff rfl atRest_calls
    (.gateway (.start _ _) (by decide) enters (by decide) body balanced (by decide) (by decide))
    .nonSecure).mpr ⟨by decide, by decide⟩

def Cpu.stackDenied : Cpu :=
  { Cpu.atRest true with
    getPhysAddr := fun access _ _ _ => if access = .store then .fail else .success }

/-- The refusal of the call frame is ignored. -/
theorem call_enters_refused : ¬ ∀ (F : Features) (E : Environment) (cpu leaving : Cpu) (addr : Word)
      (attribution : SecurityAttribution), F.hasTrustzone = true → cpu.Calls addr →
      Excursion F E cpu.InCallFrame (cpu.v8mBlxns addr true) leaving →
      CallUndone F E cpu addr leaving attribution := by
  intro always
  have calls : Cpu.stackDenied.Calls 0x200#32 := ⟨rfl, by decide, by decide, by decide, by decide⟩
  have undone := always .v8m allNonSecure Cpu.stackDenied _ 0x200#32 .nonSecure rfl calls
    (.start _ _)
  have stays : (Cpu.stackDenied.v8mBlxns 0x200#32 true).secure = true := undone.refused (by decide)
  have enters : (Cpu.stackDenied.v8mBlxns 0x200#32 true).secure = false := by decide
  rw [enters] at stays
  cases stays

end Tlib.CortexM
