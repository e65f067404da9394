import Tlib.CortexM.ExceptionReturn

/-!
Contract: the four stack pointers over whole runs.

Owns: runs of exceptions, calls and writes of special registers, and the steps in which no two
pointers are mixed up.
-/

namespace Tlib.CortexM

open Tlib.Library.WordStack

/-! ### Operations -/

/-- What is on the way to a return: an exception, or a call of Non-secure code. -/
inductive Activation where
  | exception (excReturn number : Word)
  | call (number : Word)
  deriving DecidableEq, Repr

def Activation.number : Activation → Word
  | .exception _ number => number
  | .call number => number

inductive Operation where
  | interrupt (acknowledged : Word)
  | exceptionReturn
  | branchNs (addr : Word) (link : Bool)
  | gateway (attribution : SecurityAttribution)
  | functionReturn
  | msr (reg : SpecialRegister) (val : Word)
  | code (after : Cpu)

def Cpu.named (cpu : Cpu) : SpecialRegister → Option StackPointer
  | .msp ns => if ns && !cpu.secure then none else some ⟨cpu.secure && !ns, false⟩
  | .psp ns => if ns && !cpu.secure then none else some ⟨cpu.secure && !ns, true⟩
  | .spNs =>
    if !cpu.secure then none else some ⟨false, cpu.isUsingProcessSp cpu.inHandlerMode false⟩
  | _ => none

def Operation.target (F : Features) (cpu : Cpu) : Operation → Option StackPointer
  | .interrupt _ => some cpu.active
  | .exceptionReturn => some (cpu.returnStack F cpu.pc)
  | .branchNs _ link => if link then some cpu.active else none
  | .gateway _ => none
  | .functionReturn => some ⟨true, cpu.isUsingProcessSp cpu.inHandlerMode true⟩
  | .msr reg _ => cpu.named reg
  | .code _ => some cpu.active

/-- The exception number in the call frame that `FNC_RETURN` pops. -/
def Cpu.calledNumber (cpu : Cpu) : Word :=
  load cpu.memory (cpu.pointer ⟨true, cpu.isUsingProcessSp cpu.inHandlerMode true⟩) &&&
    ~~~bitIf true 20

/-! ### Runs -/

def Activation.Hosts : Activation → Word → Prop
  | .exception _ _, number => number ≠ 0#32
  | .call caller, number => number = 0#32 ↔ caller = 0#32

/-- `EXC_RETURN` tells Thread mode exactly if that is where the exception came from. -/
def Activation.TellsMode : Activation → Prop
  | .exception excReturn number => excReturnMode excReturn = true ↔ number = 0#32
  | .call _ => True

/-- The activations that are open, the innermost first, and the current exception number. -/
inductive Nested : List Activation → Word → Prop
  | outermost (number : Word) : Nested [] number
  | inner {activation : Activation} {rest : List Activation} {number : Word}
      (hosts : activation.Hosts number) (tells : activation.TellsMode)
      (outer : Nested rest activation.number) : Nested (activation :: rest) number

structure Session where
  cpu : Cpu
  activations : List Activation

/-- An operation of the run; returns use the values and the frames of the matching entries. -/
inductive Step (F : Features) (E : Environment) : Session → Operation → Session → Prop
  | spurious (cpu : Cpu) (activations : List Activation) :
      Step F E ⟨cpu, activations⟩ (.interrupt 0#32)
        ⟨(cpu.takeIrq F E 0#32).cpu, activations⟩
  | interrupt {cpu : Cpu} {acknowledged : Word} (activations : List Activation)
      (real : acknowledged ≠ 0#32)
      (numbered : (secureTarget F E cpu.secure acknowledged).2 ≠ 0#32) :
      Step F E ⟨cpu, activations⟩ (.interrupt acknowledged)
        ⟨(cpu.takeIrq F E acknowledged).cpu,
          .exception (cpu.excReturn F (secureTarget F E cpu.secure acknowledged).1)
            cpu.exception :: activations⟩
  | refusedReturn {cpu : Cpu} (activations : List Activation)
      (fails : cpu.invalidReturn F = true ∨ cpu.failsBeforeFrame F = true) :
      Step F E ⟨cpu, activations⟩ .exceptionReturn
        ⟨(cpu.doV7mExceptionExit F E).cpu, activations⟩
  | exceptionReturn {cpu : Cpu} {number : Word} (activations : List Activation)
      (valid : cpu.invalidReturn F = false) (framed : cpu.failsBeforeFrame F = false)
      (matching : cpu.framedNumber F = number) :
      Step F E ⟨cpu, .exception cpu.pc number :: activations⟩ .exceptionReturn
        ⟨(cpu.doV7mExceptionExit F E).cpu, activations⟩
  | branch {cpu : Cpu} (activations : List Activation) (addr : Word) (link : Bool)
      (secure : cpu.secure = true) (stays : (link && !addr.getLsbD 0) = false) :
      Step F E ⟨cpu, activations⟩ (.branchNs addr link)
        ⟨cpu.v8mBlxns addr link, activations⟩
  | call {cpu : Cpu} (activations : List Activation) (addr : Word)
      (secure : cpu.secure = true) (even : addr.getLsbD 0 = false) :
      Step F E ⟨cpu, activations⟩ (.branchNs addr true)
        ⟨cpu.v8mBlxns addr true, .call cpu.exception :: activations⟩
  | gateway (cpu : Cpu) (activations : List Activation) (attribution : SecurityAttribution) :
      Step F E ⟨cpu, activations⟩ (.gateway attribution)
        ⟨(cpu.v8mSg attribution).cpu, activations⟩
  | functionReturn {cpu : Cpu} {number : Word} (activations : List Activation)
      (nonSecure : cpu.secure = false) (matching : cpu.calledNumber = number) :
      Step F E ⟨cpu, .call number :: activations⟩ .functionReturn
        ⟨cpu.doV7mSecureReturn, activations⟩
  | msr (cpu : Cpu) (activations : List Activation) (reg : SpecialRegister) (val : Word) :
      Step F E ⟨cpu, activations⟩ (.msr reg val) ⟨cpu.v7mMsr reg val, activations⟩
  | code {cpu after : Cpu} (activations : List Activation) (keeps : KeepsStacks cpu after)
      (exception : after.exception = cpu.exception) :
      Step F E ⟨cpu, activations⟩ (.code after) ⟨after, activations⟩

/-- Runs whose steps all meet a condition. -/
inductive Run (F : Features) (E : Environment) (Allowed : Cpu → Operation → Prop)
    (start : Session) : Session → Prop
  | start : Run F E Allowed start start
  | step {s s' : Session} {operation : Operation} (run : Run F E Allowed start s)
      (allowed : Allowed s.cpu operation) (step : Step F E s operation s') :
      Run F E Allowed start s'

/-! ### What the pointers promise -/

/-- The frame is granted, and its registers can be pushed unless the main stack is active. -/
def Cpu.EntrySettles (F : Features) (E : Environment) (cpu : Cpu) (acknowledged : Word) : Prop :=
  (cpu.fpca = true → cpu.lspen = false → cpu.fpuEnabled = false → cpu.processSp = false) ∧
    (cpu.FpReady → cpu.FrameGranted F
      (cpu.excReturn F (secureTarget F E cpu.secure acknowledged).1))

/-- What keeps the selected stack right. -/
def Settles (F : Features) (E : Environment) (cpu : Cpu) : Operation → Prop
  | .interrupt acknowledged =>
    if acknowledged = 0#32 then cpu.exception = 0#32 else cpu.EntrySettles F E acknowledged
  | .exceptionReturn =>
    cpu.invalidReturn F = false → cpu.failsBeforeFrame F = true →
      cpu.returnSpsel F cpu.pc = true → (excReturnMode cpu.pc = true ↔ cpu.exception = 0#32)
  | _ => True

/-- `MRS` of a stack pointer reads it, and `MSR` writes it. -/
structure ReadsOwn (cpu : Cpu) : Prop where
  reads : ∀ reg p, cpu.named reg = some p → cpu.v7mMrs reg = cpu.pointer p
  writes : ∀ reg p val, cpu.named reg = some p → cpu.inPrivilegedMode = true →
    (cpu.v7mMsr reg val).pointer p = spMask val

def MovesTarget (F : Features) (cpu cpu' : Cpu) (operation : Operation) : Prop :=
  ∀ p, operation.target F cpu ≠ some p → cpu'.pointer p = cpu.pointer p

variable {cpu cpu' : Cpu} {F : Features} {E : Environment} {type : Word}

/-! ### Special registers -/

theorem pointer_setMsp (cpu : Cpu) (value : Word) (p : StackPointer) :
    (cpu.setMsp value).pointer p = if p = ⟨cpu.secure, false⟩ then value else cpu.pointer p := by
  obtain ⟨pSecure, pProcess⟩ := p
  unfold Cpu.setMsp
  cases process : cpu.processSp <;> cases secure : cpu.secure <;> cases pSecure <;>
    cases pProcess <;> simp [Cpu.pointer, Cpu.cell, process, secure, Cpu.readCell]

theorem pointer_setPsp (cpu : Cpu) (value : Word) (p : StackPointer) :
    (cpu.setPsp value).pointer p = if p = ⟨cpu.secure, true⟩ then value else cpu.pointer p := by
  obtain ⟨pSecure, pProcess⟩ := p
  unfold Cpu.setPsp
  cases process : cpu.processSp <;> cases secure : cpu.secure <;> cases pSecure <;>
    cases pProcess <;> simp [Cpu.pointer, Cpu.cell, process, secure, Cpu.readCell]

theorem pointer_setOtherSsMsp (cpu : Cpu) (value : Word) (p : StackPointer) :
    (cpu.setOtherSsMsp value).pointer p =
      if p = ⟨!cpu.secure, false⟩ then value else cpu.pointer p := by
  obtain ⟨pSecure, pProcess⟩ := p
  cases process : cpu.processSp <;> cases secure : cpu.secure <;> cases pSecure <;>
    cases pProcess <;>
    simp [Cpu.pointer, Cpu.cell, process, secure, Cpu.readCell, Cpu.setOtherSsMsp]

theorem pointer_setOtherSsPsp (cpu : Cpu) (value : Word) (p : StackPointer) :
    (cpu.setOtherSsPsp value).pointer p =
      if p = ⟨!cpu.secure, true⟩ then value else cpu.pointer p := by
  obtain ⟨pSecure, pProcess⟩ := p
  cases process : cpu.processSp <;> cases secure : cpu.secure <;> cases pSecure <;>
    cases pProcess <;>
    simp [Cpu.pointer, Cpu.cell, process, secure, Cpu.readCell, Cpu.setOtherSsPsp]

theorem named_viewed {p : StackPointer} {reg : SpecialRegister}
    (named : cpu.named reg = some p) : p.secure = (cpu.secure && !reg.isRegNs) := by
  cases reg <;> simp only [Cpu.named, Option.ite_none_left_eq_some, Option.some.injEq,
    reduceCtorEq] at named
  case msp ns => exact congrArg StackPointer.secure named.2.symm
  case psp ns => exact congrArg StackPointer.secure named.2.symm
  case spNs =>
    rw [← named.2]
    exact (Bool.and_false _).symm

theorem readsOwn (cpu : Cpu) : ReadsOwn cpu := by
  constructor
  · intro reg p named
    cases reg <;> simp only [Cpu.named, reduceCtorEq] at named
    case msp ns =>
      cases ns <;> cases secure : cpu.secure <;>
        simp_all [Cpu.v7mMrs, SpecialRegister.isRegNs, getMsp_eq, otherSsMsp_eq]
    case psp ns =>
      cases ns <;> cases secure : cpu.secure <;>
        simp_all [Cpu.v7mMrs, SpecialRegister.isRegNs, getPsp_eq, otherSsPsp_eq]
    case spNs =>
      cases secure : cpu.secure <;>
        cases process : cpu.isUsingProcessSp cpu.inHandlerMode false <;>
        simp_all [Cpu.v7mMrs, SpecialRegister.isRegNs, otherSsMsp_eq, otherSsPsp_eq]
  · intro reg p val named privileged
    cases reg <;> simp only [Cpu.named, reduceCtorEq] at named
    case msp ns =>
      cases ns <;> cases secure : cpu.secure <;>
        simp_all [Cpu.v7mMsr, Cpu.writeSpecial, Cpu.writeMsp, SpecialRegister.isRegNs,
          pointer_setMsp, pointer_setOtherSsMsp]
    case psp ns =>
      cases ns <;> cases secure : cpu.secure <;>
        simp_all [Cpu.v7mMsr, Cpu.writeSpecial, Cpu.writePsp, SpecialRegister.isRegNs,
          pointer_setPsp, pointer_setOtherSsPsp]
    case spNs =>
      cases secure : cpu.secure <;>
        cases process : cpu.isUsingProcessSp cpu.inHandlerMode false <;>
        simp_all [Cpu.v7mMsr, Cpu.writeSpecial, Cpu.writeSpNs, SpecialRegister.isRegNs,
          pointer_setOtherSsMsp, pointer_setOtherSsPsp]

theorem writeControl_movesNone (cpu : Cpu) (isSecure : Bool) (val : Word) :
    MovesNone cpu (cpu.writeControl isSecure val) := by
  unfold Cpu.writeControl
  split
  · exact fun _ => rfl
  · have bits : MovesNone cpu ((cpu.writeSfpa isSecure val).writeControlBits isSecure val) :=
      fun _ => rfl
    unfold Cpu.reselectStack
    split
    · exact switchV7mSp_movesNone _ _
    · exact MovesNone.refl _

theorem reselectStack_exception (cpu : Cpu) (isSecure : Bool) :
    (cpu.reselectStack isSecure).exception = cpu.exception := by
  unfold Cpu.reselectStack
  split
  · exact switchV7mSp_exception _ _
  · rfl

theorem writeControl_exception (cpu : Cpu) (isSecure : Bool) (val : Word) :
    (cpu.writeControl isSecure val).exception = cpu.exception := by
  unfold Cpu.writeControl
  split
  · rfl
  · exact reselectStack_exception _ isSecure

theorem writeControl_selected (isSecure : Bool) (val : Word) (selected : cpu.StackSelected) :
    (cpu.writeControl isSecure val).StackSelected := by
  unfold Cpu.writeControl
  split
  · exact selected
  · unfold Cpu.reselectStack
    split
    · unfold Cpu.StackSelected Cpu.isUsingProcessSpCurrent Cpu.isUsingProcessSp
        Cpu.inHandlerMode
      rw [switchV7mSp_processSp, switchV7mSp_control, switchV7mSp_secure, switchV7mSp_exception]
    · rename_i other
      have current : cpu.secure ≠ isSecure := fun same => other same.symm
      have control : ((cpu.writeSfpa isSecure val).writeControlBits isSecure val).control
          cpu.secure = cpu.control cpu.secure := setBank_other _ _ current
      show cpu.processSp = (!cpu.inHandlerMode &&
        (((cpu.writeSfpa isSecure val).writeControlBits isSecure val).control cpu.secure).spsel)
      rw [control]
      exact selected

theorem writeMasks_keepsStacks (cpu : Cpu) (reg : SpecialRegister) (isSecure : Bool)
    (val : Word) :
    KeepsStacks cpu (cpu.writeMasks reg isSecure val) ∧
      (cpu.writeMasks reg isSecure val).sp = cpu.sp ∧
      (cpu.writeMasks reg isSecure val).exception = cpu.exception := by
  have raised : KeepsStacks cpu (cpu.raiseBasepri isSecure (val &&& 0xff#32)) ∧
      (cpu.raiseBasepri isSecure (val &&& 0xff#32)).sp = cpu.sp ∧
      (cpu.raiseBasepri isSecure (val &&& 0xff#32)).exception = cpu.exception := by
    unfold Cpu.raiseBasepri
    split <;> exact ⟨⟨rfl, rfl, rfl, rfl, rfl, rfl⟩, rfl, rfl⟩
  unfold Cpu.writeMasks
  split
  · exact ⟨KeepsStacks.refl cpu, rfl, rfl⟩
  · cases reg
    case basepriMax => exact raised
    all_goals exact ⟨⟨rfl, rfl, rfl, rfl, rfl, rfl⟩, rfl, rfl⟩

theorem setMsp_selects (cpu : Cpu) (value : Word) : (cpu.setMsp value).exception = cpu.exception ∧
      (cpu.StackSelected → (cpu.setMsp value).StackSelected) := by
  unfold Cpu.setMsp
  split <;> exact ⟨rfl, id⟩

theorem setPsp_selects (cpu : Cpu) (value : Word) : (cpu.setPsp value).exception = cpu.exception ∧
      (cpu.StackSelected → (cpu.setPsp value).StackSelected) := by
  unfold Cpu.setPsp
  split <;> exact ⟨rfl, id⟩

theorem writeSpecial_selects (cpu : Cpu) (reg : SpecialRegister) (isSecure : Bool) (val : Word) :
    (cpu.writeSpecial reg isSecure val).exception = cpu.exception ∧
      (cpu.StackSelected → (cpu.writeSpecial reg isSecure val).StackSelected) := by
  have masks := writeMasks_keepsStacks cpu reg isSecure val
  have others : (cpu.writeMasks reg isSecure val).exception = cpu.exception ∧
      (cpu.StackSelected → (cpu.writeMasks reg isSecure val).StackSelected) :=
    ⟨masks.2.2, masks.1.stackSelected masks.2.2⟩
  cases reg with
  | msp ns =>
    show (cpu.writeMsp ns val).exception = _ ∧ (_ → (cpu.writeMsp ns val).StackSelected)
    unfold Cpu.writeMsp
    split
    · exact ⟨rfl, id⟩
    · split
      · exact ⟨rfl, id⟩
      · exact setMsp_selects cpu _
  | psp ns =>
    show (cpu.writePsp ns val).exception = _ ∧ (_ → (cpu.writePsp ns val).StackSelected)
    unfold Cpu.writePsp
    split
    · exact ⟨rfl, id⟩
    · exact setPsp_selects cpu _
  | spNs =>
    show (cpu.writeSpNs val).exception = _ ∧ (_ → (cpu.writeSpNs val).StackSelected)
    unfold Cpu.writeSpNs
    split <;> exact ⟨rfl, id⟩
  | control ns => exact ⟨writeControl_exception cpu _ val, writeControl_selected _ val⟩
  | msplim ns => exact ⟨rfl, id⟩
  | psplim ns => exact ⟨rfl, id⟩
  | _ => exact others

theorem v7mMsr_selects (cpu : Cpu) (reg : SpecialRegister) (val : Word) :
    (cpu.v7mMsr reg val).exception = cpu.exception ∧
      (cpu.StackSelected → (cpu.v7mMsr reg val).StackSelected) := by
  unfold Cpu.v7mMsr
  split
  · exact ⟨rfl, id⟩
  · exact writeSpecial_selects cpu reg _ val

theorem writeSpecial_movesNone (reg : SpecialRegister) (isSecure : Bool) (val : Word)
    (unnamed : ∀ ns, reg ≠ .msp ns ∧ reg ≠ .psp ns) (notSpNs : reg ≠ .spNs) :
    MovesNone cpu (cpu.writeSpecial reg isSecure val) := by
  have masks := writeMasks_keepsStacks cpu reg isSecure val
  have others : MovesNone cpu (cpu.writeMasks reg isSecure val) := masks.1.movesNone masks.2.1
  cases reg with
  | msp ns => exact absurd rfl (unnamed ns).1
  | psp ns => exact absurd rfl (unnamed ns).2
  | spNs => exact absurd rfl notSpNs
  | control ns => exact writeControl_movesNone cpu isSecure val
  | msplim ns => exact fun _ => rfl
  | psplim ns => exact fun _ => rfl
  | _ => exact others

theorem v7mMsr_movesTarget (cpu : Cpu) (reg : SpecialRegister) (val : Word) :
    MovesTarget F cpu (cpu.v7mMsr reg val) (.msr reg val) := by
  intro p other
  have apart : ∀ q, cpu.named reg = some q → p ≠ q := by
    intro q named same
    exact other (named.trans (congrArg some same.symm))
  unfold Cpu.v7mMsr
  split
  · rfl
  · rename_i current
    cases reg with
    | msp ns =>
      show (cpu.writeMsp ns val).pointer p = _
      unfold Cpu.writeMsp
      cases ns <;> cases secure : cpu.secure <;> cases mode : cpu.inPrivilegedMode <;>
        simp_all [Cpu.named, SpecialRegister.isRegNs, pointer_setMsp, pointer_setOtherSsMsp]
    | psp ns =>
      show (cpu.writePsp ns val).pointer p = _
      unfold Cpu.writePsp
      cases ns <;> cases secure : cpu.secure <;>
        simp_all [Cpu.named, SpecialRegister.isRegNs, pointer_setPsp, pointer_setOtherSsPsp]
    | spNs =>
      show (cpu.writeSpNs val).pointer p = _
      unfold Cpu.writeSpNs
      cases secure : cpu.secure <;>
        cases process : cpu.isUsingProcessSp cpu.inHandlerMode false <;>
        simp_all [Cpu.named, SpecialRegister.isRegNs, pointer_setOtherSsMsp, pointer_setOtherSsPsp]
    | _ => exact writeSpecial_movesNone _ _ val (fun _ => ⟨by simp, by simp⟩) (by simp) p

/-! ### Calls between the Security states -/

theorem leaveSecure_movesNone (cpu : Cpu) : MovesNone cpu cpu.leaveSecure := by
  have flag : MovesNone cpu { cpu with sfpa := false } := fun _ => rfl
  exact flag.trans (switchV7mSecurityState_movesNone _ false)

theorem leaveSecure_exception (cpu : Cpu) : cpu.leaveSecure.exception = cpu.exception :=
  switchV7mSecurityState_exception _ false

theorem leaveSecure_selected (selected : cpu.StackSelected) : cpu.leaveSecure.StackSelected :=
  switchV7mSecurityState_selected false fun _ => selected

theorem hideCaller_selected (selected : cpu.StackSelected) : cpu.hideCaller.StackSelected := by
  unfold Cpu.StackSelected Cpu.isUsingProcessSpCurrent Cpu.isUsingProcessSp at selected ⊢
  have mode : cpu.hideCaller.inHandlerMode = cpu.inHandlerMode := by
    unfold Cpu.hideCaller Cpu.inHandlerMode
    split <;> simp_all
  rw [mode]
  exact selected

theorem hideCaller_exception (cpu : Cpu) :
    cpu.hideCaller.exception = 0#32 ↔ cpu.exception = 0#32 := by
  unfold Cpu.hideCaller Cpu.inHandlerMode
  split <;> simp_all

theorem pushCallFrame_keepsStacks (cpu : Cpu) :
    KeepsStacks cpu cpu.pushCallFrame.1 ∧ cpu.pushCallFrame.1.exception = cpu.exception :=
  ⟨v7mPushAll_keepsStacks cpu _, v7mPushAll_exception cpu _⟩

theorem v8mBlxns_moves (cpu : Cpu) (addr : Word) (link : Bool) :
    MovesTarget F cpu (cpu.v8mBlxns addr link) (.branchNs addr link) ∧
      (cpu.StackSelected → (cpu.v8mBlxns addr link).StackSelected) ∧
      ((cpu.v8mBlxns addr link).exception = 0#32 ↔ cpu.exception = 0#32) := by
  unfold Cpu.v8mBlxns
  split
  · exact ⟨fun _ _ => rfl, id, Iff.rfl⟩
  · split
    · split
      · rename_i call
        obtain ⟨keeps, exception⟩ := pushCallFrame_keepsStacks cpu
        have moved : OnlyMoves cpu cpu.pushCallFrame.1.leaveSecure cpu.active :=
          keeps.onlyMoves.then (leaveSecure_movesNone _)
        refine ⟨?_, ?_, ?_⟩
        · intro p other
          have apart : p ≠ cpu.active := by
            intro same
            apply other
            show (if link then some cpu.active else none) = some p
            rw [if_pos call, same]
          exact moved p apart
        · intro selected
          have pushed := keeps.stackSelected exception selected
          exact hideCaller_selected (leaveSecure_selected pushed)
        · show cpu.pushCallFrame.1.leaveSecure.hideCaller.exception = _ ↔ _
          rw [hideCaller_exception, leaveSecure_exception, exception]
      · refine ⟨fun p _ => leaveSecure_movesNone cpu p, leaveSecure_selected, ?_⟩
        rw [leaveSecure_exception]
    · split <;> exact ⟨fun _ _ => rfl, id, Iff.rfl⟩

theorem v8mSg_moves (cpu : Cpu) (attribution : SecurityAttribution) :
    MovesNone cpu (cpu.v8mSg attribution).cpu ∧
      (cpu.StackSelected → (cpu.v8mSg attribution).cpu.StackSelected) ∧
      (cpu.v8mSg attribution).cpu.exception = cpu.exception := by
  unfold Cpu.v8mSg
  split
  · exact ⟨MovesNone.refl cpu, id, rfl⟩
  · split
    · exact ⟨MovesNone.refl cpu, id, rfl⟩
    · split
      · split
        · exact ⟨fun _ => rfl, id, rfl⟩
        · rw [Outcome.done_cpu]
          have linked : MovesNone cpu { cpu with lr := cpu.lr &&& ~~~1#32 } := fun _ => rfl
          refine ⟨linked.trans (switchV7mSecurityState_movesNone _ true), ?_, ?_⟩
          · intro selected
            exact switchV7mSecurityState_selected true fun _ => selected
          · exact switchV7mSecurityState_exception { cpu with lr := cpu.lr &&& ~~~1#32 } true
      · have keeps := accessRefused_keepsStacks cpu cpu.gatewaySp true
          (cpu.getPhysAddr .load cpu.gatewaySp true (!cpu.inPrivilegedModeWithSecurity true))
        have exception := accessRefused_exception cpu cpu.gatewaySp true
          (cpu.getPhysAddr .load cpu.gatewaySp true (!cpu.inPrivilegedModeWithSecurity true))
        refine ⟨keeps.movesNone ?_, keeps.stackSelected exception, exception⟩
        unfold Cpu.accessRefused
        split <;> rfl

theorem doV7mSecureReturn_moves (nonSecure : cpu.secure = false) :
    MovesTarget F cpu cpu.doV7mSecureReturn .functionReturn ∧
      cpu.doV7mSecureReturn.exception = cpu.calledNumber ∧
      ((cpu.calledNumber = 0#32 ↔ cpu.exception = 0#32) → cpu.doV7mSecureReturn.StackSelected) := by
  have changes : ¬ true = cpu.secure := by
    rw [nonSecure]
    decide
  have active : (cpu.switchV7mSecurityState true).active =
      ⟨true, cpu.isUsingProcessSp cpu.inHandlerMode true⟩ := by
    unfold Cpu.switchV7mSecurityState
    rw [if_neg changes]
    rfl
  have memory : (cpu.switchV7mSecurityState true).memory = cpu.memory := by
    unfold Cpu.switchV7mSecurityState
    rw [if_neg changes]
  have sp : (cpu.switchV7mSecurityState true).sp =
      cpu.pointer ⟨true, cpu.isUsingProcessSp cpu.inHandlerMode true⟩ := by
    rw [← pointer_active, active]
    exact switchV7mSecurityState_movesNone cpu true _
  have keeps : KeepsStacks (cpu.switchV7mSecurityState true) cpu.doV7mSecureReturn :=
    ⟨rfl, rfl, rfl, rfl, rfl, rfl⟩
  have exception : cpu.doV7mSecureReturn.exception = cpu.calledNumber := by
    show (cpu.switchV7mSecurityState true).popped 0 &&& _ = _
    unfold Cpu.popped Cpu.calledNumber
    rw [memory, sp, Nat.mul_zero, show BitVec.ofNat 32 0 = 0 from rfl, add_zero]
  refine ⟨?_, exception, ?_⟩
  · intro p other
    have apart : p ≠ (cpu.switchV7mSecurityState true).active := by
      intro same
      apply other
      rw [same, active]
      rfl
    have moved := (switchV7mSecurityState_movesNone cpu true).then keeps.onlyMoves
    exact moved p apart
  · intro agrees
    have switched := switchV7mSecurityState_selected true fun same => absurd same changes
    unfold Cpu.StackSelected Cpu.isUsingProcessSpCurrent Cpu.isUsingProcessSp
      Cpu.inHandlerMode at switched ⊢
    rw [keeps.processSp, keeps.control, keeps.secure, switched, exception,
      switchV7mSecurityState_exception]
    simp [agrees]

/-! ### Interrupts -/

theorem stackSelected_of_handler (handler : cpu.exception ≠ 0#32) (main : cpu.processSp = false) :
    cpu.StackSelected := by
  unfold Cpu.StackSelected Cpu.isUsingProcessSpCurrent Cpu.isUsingProcessSp Cpu.inHandlerMode
  rw [main, decide_eq_true handler]
  rfl

theorem takeIrq_settles {acknowledged : Word} (real : acknowledged ≠ 0#32)
    (numbered : (secureTarget F E cpu.secure acknowledged).2 ≠ 0#32)
    (settles : cpu.EntrySettles F E acknowledged) :
    OnlyMoves cpu (cpu.takeIrq F E acknowledged).cpu cpu.active ∧
      (cpu.takeIrq F E acknowledged).cpu.StackSelected ∧
      (cpu.takeIrq F E acknowledged).cpu.exception =
        (secureTarget F E cpu.secure acknowledged).2 := by
  by_cases ready : cpu.FpReady
  · rw [takeIrq_granted real numbered ready (settles.2 ready), Outcome.done_cpu]
    generalize cpu.excReturn F (secureTarget F E cpu.secure acknowledged).1 = lr
    have moves := entered_onlyMoves F cpu (secureTarget F E cpu.secure acknowledged).2 lr
    have known := extended_known F cpu (secureTarget F E cpu.secure acknowledged).2
    have framed := (framed_keepsStacks F
      (cpu.extended F (secureTarget F E cpu.secure acknowledged).2) cpu.stackedXpsr lr).2
    have exception := framed.trans known.exception
    refine ⟨moves, ?_, ?_⟩
    · apply enterHandler_selected
      rw [exception]
      exact numbered
    · exact (enterHandler_exception _ lr).trans exception
  · -- The registers cannot be pushed: the entry is left with the new exception number.
    obtain ⟨extended, eager, disabled⟩ : cpu.fpca = true ∧ cpu.lspen = false ∧
        cpu.fpuEnabled = false := by
      unfold Cpu.FpReady at ready
      simpa using ready
    unfold Cpu.takeIrq Cpu.beginEntry
    rw [if_neg real]
    generalize (secureTarget F E cpu.secure acknowledged).2 = number at numbered ⊢
    have stopped : (cpu.aligned number).pushExtended F cpu.misaligned =
        .loopExit ((cpu.aligned number).clearFpca.fpuDisabledEntry cpu.misaligned) :=
      pushExtended_disabled _ extended eager disabled
    rw [stopped, Outcome.loopExit_bind, Outcome.loopExit_cpu]
    have keeps : KeepsStacks cpu
        ((cpu.aligned number).clearFpca.fpuDisabledEntry cpu.misaligned) :=
      ⟨rfl, rfl, rfl, rfl, rfl, rfl⟩
    refine ⟨keeps.onlyMoves, ?_, rfl⟩
    apply stackSelected_of_handler numbered
    exact settles.1 extended eager disabled

/-! ### Returns -/

theorem exit_moves (valid : cpu.invalidReturn F = false) :
    cpu.doV7mExceptionExit F E = cpu.clearFaultmask.unstack F E ∧
      MovesTarget F cpu (cpu.doV7mExceptionExit F E).cpu .exceptionReturn := by
  have unstacks := @exit_valid _ F E valid
  have keeps : KeepsStacks (cpu.returning F E) (cpu.clearFaultmask.unstack F E).cpu := by
    cases fails : cpu.failsBeforeFrame F with
    | true => exact (unstack_fails fails).1
    | false => exact (unstack_framed fails).1
  apply And.intro unstacks
  intro p other
  have apart : p ≠ (cpu.returning F E).active := by
    intro same
    apply other
    rw [same, returning_active]
    rfl
  rw [unstacks]
  exact ((returning_movesNone F E cpu).then keeps.onlyMoves) p apart

theorem refused_moves (refused : cpu.invalidReturn F = true) :
    MovesNone cpu (cpu.doV7mExceptionExit F E).cpu ∧
      (cpu.StackSelected → (cpu.doV7mExceptionExit F E).cpu.StackSelected) ∧
      (cpu.doV7mExceptionExit F E).cpu.exception = cpu.exception := by
  have left : cpu.doV7mExceptionExit F E = cpu.clearFaultmask.secureFault (bitIf true 2) := by
    unfold Cpu.doV7mExceptionExit
    unfold Cpu.invalidReturn at refused
    rw [refused]
    rfl
  have keeps : KeepsStacks cpu (cpu.doV7mExceptionExit F E).cpu ∧
      (cpu.doV7mExceptionExit F E).cpu.sp = cpu.sp ∧
      (cpu.doV7mExceptionExit F E).cpu.exception = cpu.exception := by
    rw [left]
    unfold Cpu.clearFaultmask
    split <;> exact ⟨⟨rfl, rfl, rfl, rfl, rfl, rfl⟩, rfl, rfl⟩
  exact ⟨keeps.1.movesNone keeps.2.1, keeps.1.stackSelected keeps.2.2, keeps.2.2⟩

/-! ### Steps and runs -/

theorem Nested.hosts {activation : Activation} {rest : List Activation} {number : Word}
    (nested : Nested (activation :: rest) number) :
    activation.Hosts number ∧ activation.TellsMode ∧ Nested rest activation.number := by
  cases nested with
  | inner hosts tells outer => exact ⟨hosts, tells, outer⟩

variable {activations : List Activation}

theorem Nested.congr {number other : Word}
    (nested : Nested activations number) (same : other = 0#32 ↔ number = 0#32) :
    Nested activations other := by
  cases nested with
  | outermost => exact .outermost other
  | inner hosts tells outer =>
    rename_i activation rest
    apply Nested.inner _ tells outer
    cases activation with
    | exception excReturn caller => exact fun zero => hosts (same.mp zero)
    | call caller => exact same.trans hosts

/-- What an operation keeps: the selection of the stack, the nesting, and every other pointer. -/
structure Kept (F : Features) (s : Session) (operation : Operation) (s' : Session) : Prop where
  selected : s'.cpu.StackSelected
  nested : Nested s'.activations s'.cpu.exception
  moves : MovesTarget F s.cpu s'.cpu operation

theorem interrupt_kept {acknowledged : Word}
    (real : acknowledged ≠ 0#32)
    (numbered : (secureTarget F E cpu.secure acknowledged).2 ≠ 0#32)
    (settles : cpu.EntrySettles F E acknowledged) (nested : Nested activations cpu.exception) :
    Kept F ⟨cpu, activations⟩ (.interrupt acknowledged)
      ⟨(cpu.takeIrq F E acknowledged).cpu,
        .exception (cpu.excReturn F (secureTarget F E cpu.secure acknowledged).1)
          cpu.exception :: activations⟩ := by
  obtain ⟨moves, selected, exception⟩ := takeIrq_settles real numbered settles
  apply Kept.mk selected
  · apply Nested.inner
    · show (cpu.takeIrq F E acknowledged).cpu.exception ≠ 0#32
      rw [exception]
      exact numbered
    · exact excReturn_mode F cpu _
    · exact nested
  · intro p other
    exact moves p fun same => other (congrArg some same.symm)

theorem exceptionReturn_kept {number : Word}
    (valid : cpu.invalidReturn F = false) (framed : cpu.failsBeforeFrame F = false)
    (matching : cpu.framedNumber F = number)
    (nested : Nested (.exception cpu.pc number :: activations) cpu.exception) :
    Kept F ⟨cpu, .exception cpu.pc number :: activations⟩ .exceptionReturn
      ⟨(cpu.doV7mExceptionExit F E).cpu, activations⟩ := by
  obtain ⟨-, tells, outer⟩ := nested.hosts
  obtain ⟨unstacks, moves⟩ := exit_moves (E := E) valid
  obtain ⟨keeps, exception⟩ := unstack_framed (E := E) framed
  rw [← unstacks] at keeps exception
  have resumed : (cpu.doV7mExceptionExit F E).cpu.exception = number := exception.trans matching
  have mode : excReturnMode cpu.pc = decide (number = 0#32) := by
    rw [Bool.eq_iff_iff, decide_eq_true_iff]
    exact tells
  apply Kept.mk _ _ moves
  · rw [returned_selected keeps, resumed, mode]
  · rw [resumed]
    exact outer

theorem refusedReturn_kept
    (fails : cpu.invalidReturn F = true ∨ cpu.failsBeforeFrame F = true)
    (settles : Settles F E cpu .exceptionReturn) (selected : cpu.StackSelected)
    (nested : Nested activations cpu.exception) :
    Kept F ⟨cpu, activations⟩ .exceptionReturn
      ⟨(cpu.doV7mExceptionExit F E).cpu, activations⟩ := by
  cases valid : cpu.invalidReturn F with
  | true =>
    obtain ⟨moves, selects, exception⟩ := refused_moves (E := E) valid
    apply Kept.mk (selects selected)
    · rw [exception]
      exact nested
    · exact fun p _ => moves p
  | false =>
    have left : cpu.failsBeforeFrame F = true := by
      apply fails.resolve_left
      rw [valid]
      exact Bool.false_ne_true
    obtain ⟨unstacks, moves⟩ := exit_moves (E := E) valid
    obtain ⟨keeps, exception⟩ := unstack_fails (E := E) left
    rw [← unstacks] at keeps exception
    apply Kept.mk _ _ moves
    · -- The stack is already the one of the return, while the number is still the old one.
      rw [returned_selected keeps, exception]
      cases spsel : cpu.returnSpsel F cpu.pc with
      | false => rw [Bool.and_false, Bool.and_false]
      | true =>
        rw [Bool.and_true, Bool.and_true, Bool.eq_iff_iff, decide_eq_true_iff]
        exact settles valid left spsel
    · rw [exception]
      exact nested

theorem v8mBlxns_kept (addr : Word) (link : Bool)
    (selected : cpu.StackSelected) (nested : Nested activations cpu.exception) :
    Kept F ⟨cpu, activations⟩ (.branchNs addr link) ⟨cpu.v8mBlxns addr link, activations⟩ ∧
      Nested (.call cpu.exception :: activations) (cpu.v8mBlxns addr link).exception := by
  obtain ⟨moves, selects, same⟩ := v8mBlxns_moves (F := F) cpu addr link
  exact ⟨⟨selects selected, nested.congr same, moves⟩, .inner same trivial nested⟩

theorem Step.kept {s s' : Session} {operation : Operation} (step : Step F E s operation s')
    (settles : Settles F E s.cpu operation) (selected : s.cpu.StackSelected)
    (nested : Nested s.activations s.cpu.exception) : Kept F s operation s' := by
  cases step with
  | spurious cpu activations =>
    have thread : cpu.exception = 0#32 := settles
    have keeps : KeepsStacks cpu { cpu with exception := 0#32 } := ⟨rfl, rfl, rfl, rfl, rfl, rfl⟩
    apply Kept.mk (keeps.stackSelected thread.symm selected)
    · show Nested activations 0#32
      rw [← thread]
      exact nested
    · exact fun _ _ => rfl
  | @interrupt cpu acknowledged activations real numbered =>
    have allowed : if acknowledged = 0#32 then cpu.exception = 0#32
        else cpu.EntrySettles F E acknowledged := settles
    rw [if_neg real] at allowed
    exact interrupt_kept real numbered allowed nested
  | refusedReturn activations fails => exact refusedReturn_kept fails settles selected nested
  | exceptionReturn activations valid framed matching =>
    exact exceptionReturn_kept valid framed matching nested
  | branch activations addr link secure stays => exact (v8mBlxns_kept addr link selected nested).1
  | call activations addr secure even =>
    obtain ⟨kept, called⟩ := v8mBlxns_kept (F := F) addr true selected nested
    exact ⟨kept.selected, called, kept.moves⟩
  | gateway cpu activations attribution =>
    obtain ⟨moves, selects, exception⟩ := v8mSg_moves cpu attribution
    apply Kept.mk (selects selected)
    · show Nested activations (cpu.v8mSg attribution).cpu.exception
      rw [exception]
      exact nested
    · exact fun p _ => moves p
  | @functionReturn cpu number activations nonSecure matching =>
    obtain ⟨hosts, -, outer⟩ := nested.hosts
    obtain ⟨moves, exception, selects⟩ := doV7mSecureReturn_moves (F := F) nonSecure
    have resumed : cpu.doV7mSecureReturn.exception = number := exception.trans matching
    have agrees : cpu.exception = 0#32 ↔ number = 0#32 := hosts
    apply Kept.mk _ _ moves
    · apply selects
      rw [matching]
      exact agrees.symm
    · show Nested activations cpu.doV7mSecureReturn.exception
      rw [resumed]
      exact outer
  | msr cpu activations reg val =>
    obtain ⟨exception, selects⟩ := v7mMsr_selects cpu reg val
    apply Kept.mk (selects selected) _ (v7mMsr_movesTarget cpu reg val)
    rw [exception]
    exact nested
  | @code cpu after activations keeps exception =>
    apply Kept.mk (keeps.stackSelected exception selected)
    · show Nested activations after.exception
      rw [exception]
      exact nested
    · intro p other
      exact keeps.onlyMoves p fun same => other (congrArg some same.symm)

theorem Run.kept {start s : Session} (opened : Nested start.activations start.cpu.exception)
    (selected : start.cpu.StackSelected) (run : Run F E (Settles F E) start s) :
    s.cpu.StackSelected ∧ Nested s.activations s.cpu.exception := by
  induction run with
  | start => exact ⟨selected, opened⟩
  | step run allowed step ih =>
    have kept := step.kept allowed ih.1 ih.2
    exact ⟨kept.selected, kept.nested⟩

/-- The stack pointers are never mixed up: in every state of a run whose steps settle, the four
are in different cells, the selected stack is the one of the mode, each register reads and writes
its own pointer, and whatever comes next moves no other one. -/
theorem pointersApart {start s : Session}
    (opened : Nested start.activations start.cpu.exception) (selected : start.cpu.StackSelected)
    (run : Run F E (Settles F E) start s) :
    Function.Injective s.cpu.cell ∧ s.cpu.StackSelected ∧ ReadsOwn s.cpu ∧
      ∀ operation s', Settles F E s.cpu operation → Step F E s operation s' →
        s'.cpu.StackSelected ∧ MovesTarget F s.cpu s'.cpu operation := by
  obtain ⟨stillSelected, nested⟩ := run.kept opened selected
  refine ⟨cell_injective s.cpu, stillSelected, readsOwn s.cpu, ?_⟩
  intro operation s' settles step
  have kept := step.kept settles stillSelected nested
  exact ⟨kept.selected, kept.moves⟩

/-- An interrupt in Thread mode, from a core at rest. -/
theorem pointersApart_interrupt :
    ((Cpu.atRest true).takeIrq .v8m allNonSecure 16#32).cpu.StackSelected := by
  have entry : Step .v8m allNonSecure ⟨Cpu.atRest true, []⟩ (.interrupt 16#32)
      ⟨((Cpu.atRest true).takeIrq .v8m allNonSecure 16#32).cpu, _⟩ :=
    .interrupt [] (by decide) (by decide)
  have settles : (Cpu.atRest true).EntrySettles .v8m allNonSecure 16#32 := by
    constructor
    · intro extended
      cases extended
    · intro _
      constructor
      · intro extended
        cases extended
      · exact fun _ _ _ => rfl
  have allowed : Settles .v8m allNonSecure (Cpu.atRest true) (.interrupt 16#32) := settles
  exact (pointersApart (.outermost _) (by decide) (.step .start allowed entry)).2.1

/-- Thread mode on the process stack, with floating-point registers that cannot be pushed. -/
def Cpu.blocked : Cpu :=
  { Cpu.atRest false with
    processSp := true
    control := fun _ => { nPriv := false, spsel := true }
    fpca := true
    lspen := false
    fpuEnabled := false }

/-- An entry that the disabled unit stops has the handler's number and the process stack. -/
theorem pointers_mixed : ¬ ∀ (F : Features) (E : Environment) (start s : Session),
      Nested start.activations start.cpu.exception → start.cpu.StackSelected →
      Run F E (fun _ _ => True) start s → s.cpu.StackSelected := by
  intro always
  have entry : Step .v7m allNonSecure ⟨Cpu.blocked, []⟩ (.interrupt 16#32)
      ⟨(Cpu.blocked.takeIrq .v7m allNonSecure 16#32).cpu, _⟩ :=
    .interrupt [] (by decide) (by decide)
  have selected := always _ _ _ _ (.outermost _) (by decide) (.step .start trivial entry)
  have process : true = false := selected
  cases process

end Tlib.CortexM
