import Tlib.CortexM.StackPointers

/-!
Contract: what the steps of exception entry and return do to the stacks.

Owns: which stack is active after each step, and which of the four pointers a step leaves alone.
-/

namespace Tlib.CortexM

open Tlib.Library.WordStack

variable {cpu cpu' : Cpu} {F : Features} {E : Environment}

theorem selectHandlerStack_relocates (cpu : Cpu) (lr : Word) :
    Relocates cpu (cpu.selectHandlerStack F lr) := by
  unfold Cpu.selectHandlerStack
  split
  · exact (switchV7mSecurityState_relocates cpu _).trans (switchV7mSp_relocates _ _)
  · exact switchV7mSp_relocates _ _

theorem selectHandlerStack_movesNone (cpu : Cpu) (lr : Word) :
    MovesNone cpu (cpu.selectHandlerStack F lr) := by
  unfold Cpu.selectHandlerStack
  split
  · exact (switchV7mSecurityState_movesNone cpu _).trans (switchV7mSp_movesNone _ _)
  · exact switchV7mSp_movesNone _ _

theorem selectHandlerStack_exception (cpu : Cpu) (lr : Word) :
    (cpu.selectHandlerStack F lr).exception = cpu.exception := by
  unfold Cpu.selectHandlerStack
  rw [switchV7mSp_exception]
  split
  · exact switchV7mSecurityState_exception cpu _
  · rfl

theorem selectHandlerStack_processSp (cpu : Cpu) (lr : Word) :
    (cpu.selectHandlerStack F lr).processSp = false := by
  unfold Cpu.selectHandlerStack
  rw [switchV7mSp_processSp]

theorem enterHandler_movesNone (cpu : Cpu) (lr : Word) : MovesNone cpu (cpu.enterHandler F lr) := by
  have fetched : KeepsStacks (cpu.selectHandlerStack F lr) (cpu.enterHandler F lr) :=
    ⟨rfl, rfl, rfl, rfl, rfl, rfl⟩
  exact (selectHandlerStack_movesNone cpu lr).trans (fetched.movesNone rfl)

theorem enterHandler_exception (cpu : Cpu) (lr : Word) :
    (cpu.enterHandler F lr).exception = cpu.exception :=
  selectHandlerStack_exception cpu lr

theorem enterHandler_selected (cpu : Cpu) (lr : Word) (handler : cpu.exception ≠ 0#32) :
    (cpu.enterHandler F lr).StackSelected := by
  have main : (cpu.enterHandler F lr).processSp = false := selectHandlerStack_processSp cpu lr
  have mode : (cpu.enterHandler F lr).inHandlerMode = true := by
    unfold Cpu.inHandlerMode
    rw [enterHandler_exception]
    exact decide_eq_true handler
  unfold Cpu.StackSelected Cpu.isUsingProcessSpCurrent Cpu.isUsingProcessSp
  rw [main, mode]
  rfl

theorem clearFaultmask_keepsStacks (cpu : Cpu) : KeepsStacks cpu cpu.clearFaultmask := by
  unfold Cpu.clearFaultmask
  split <;> exact ⟨rfl, rfl, rfl, rfl, rfl, rfl⟩

theorem completeIrq_keepsStacks (cpu : Cpu) : KeepsStacks cpu (cpu.completeIrq F E) := by
  unfold Cpu.completeIrq
  split <;> exact ⟨rfl, rfl, rfl, rfl, rfl, rfl⟩

theorem restoreSpsel_movesNone (cpu : Cpu) (type : Word) :
    MovesNone cpu (cpu.restoreSpsel F type) := fun _ => rfl

theorem restoreSecurityState_movesNone (cpu : Cpu) (type : Word) :
    MovesNone cpu (cpu.restoreSecurityState F type) := by
  unfold Cpu.restoreSecurityState
  split
  · exact switchV7mSecurityState_movesNone cpu _
  · exact MovesNone.refl cpu

theorem selectReturnStack_relocates (cpu : Cpu) (type : Word) :
    Relocates (cpu.restoreSpsel F type) (cpu.selectReturnStack F type) := by
  have switched : Relocates (cpu.restoreSpsel F type)
      ((cpu.restoreSpsel F type).restoreSecurityState F type) := by
    unfold Cpu.restoreSecurityState
    split
    · exact switchV7mSecurityState_relocates _ _
    · exact Relocates.refl _
  exact switched.trans (switchV7mSp_relocates _ _)

theorem selectReturnStack_movesNone (cpu : Cpu) (type : Word) :
    MovesNone cpu (cpu.selectReturnStack F type) :=
  ((restoreSpsel_movesNone cpu type).trans (restoreSecurityState_movesNone _ type)).trans
    (switchV7mSp_movesNone _ _)

theorem restoreSecurityState_control (cpu : Cpu) (type : Word) :
    (cpu.restoreSecurityState F type).control = cpu.control := by
  unfold Cpu.restoreSecurityState
  split
  · exact switchV7mSecurityState_control cpu _
  · rfl

def Cpu.returnSecure (F : Features) (cpu : Cpu) (type : Word) : Bool :=
  if F.hasTrustzone then excReturnS type else cpu.secure

/-- `CONTROL.SPSEL` of that state, which the return may write. -/
def Cpu.returnSpsel (F : Features) (cpu : Cpu) (type : Word) : Bool :=
  if cpu.returnSecure F type = (F.hasTrustzone && excReturnEs type) then excReturnSpsel type
  else (cpu.control (cpu.returnSecure F type)).spsel

def Cpu.returnStack (F : Features) (cpu : Cpu) (type : Word) : StackPointer :=
  ⟨cpu.returnSecure F type, excReturnMode type && cpu.returnSpsel F type⟩

theorem restoreSecurityState_secure (cpu : Cpu) (type : Word) :
    (cpu.restoreSecurityState F type).secure = cpu.returnSecure F type := by
  unfold Cpu.restoreSecurityState Cpu.returnSecure
  split
  · exact switchV7mSecurityState_secure cpu _
  · rfl

theorem selectReturnStack_secure (cpu : Cpu) (type : Word) :
    (cpu.selectReturnStack F type).secure = cpu.returnSecure F type := by
  unfold Cpu.selectReturnStack
  rw [switchV7mSp_secure, restoreSecurityState_secure]
  rfl

theorem selectReturnStack_control (cpu : Cpu) (type : Word) :
    (cpu.selectReturnStack F type).control = (cpu.restoreSpsel F type).control := by
  unfold Cpu.selectReturnStack
  rw [switchV7mSp_control, restoreSecurityState_control]

theorem selectReturnStack_spsel (cpu : Cpu) (type : Word) :
    ((cpu.selectReturnStack F type).control (cpu.returnSecure F type)).spsel =
      cpu.returnSpsel F type := by
  rw [selectReturnStack_control]
  unfold Cpu.restoreSpsel Cpu.returnSpsel setBank
  dsimp only
  split
  · rename_i same
    rfl
  · rfl

theorem selectReturnStack_active (cpu : Cpu) (type : Word) :
    (cpu.selectReturnStack F type).active = cpu.returnStack F type := by
  have spsel := @selectReturnStack_spsel F cpu type
  unfold Cpu.selectReturnStack at spsel
  rw [switchV7mSp_control] at spsel
  unfold Cpu.active
  rw [selectReturnStack_secure]
  unfold Cpu.selectReturnStack Cpu.returnStack Cpu.isUsingProcessSp
  rw [switchV7mSp_processSp, restoreSecurityState_secure, Bool.not_not]
  congr 2

theorem clearOnReturn_keepsStacks (cpu : Cpu) :
    KeepsStacks cpu cpu.clearOnReturn.cpu ∧ cpu.clearOnReturn.cpu.exception = cpu.exception ∧
      cpu.clearOnReturn.cpu.sp = cpu.sp ∧ cpu.clearOnReturn.cpu.memory = cpu.memory := by
  unfold Cpu.clearOnReturn
  split
  · split <;> exact ⟨⟨rfl, rfl, rfl, rfl, rfl, rfl⟩, rfl, rfl, rfl⟩
  · exact ⟨KeepsStacks.refl cpu, rfl, rfl, rfl⟩

theorem popAdditional_keepsStacks (cpu : Cpu) (type : Word) :
    KeepsStacks cpu (cpu.popAdditional F type).cpu ∧
      (cpu.popAdditional F type).cpu.exception = cpu.exception := by
  unfold Cpu.popAdditional
  split
  · split <;> exact ⟨⟨rfl, rfl, rfl, rfl, rfl, rfl⟩, rfl⟩
  · exact ⟨KeepsStacks.refl cpu, rfl⟩

theorem popBasic_keepsStacks (cpu : Cpu) : KeepsStacks cpu cpu.popBasic :=
  ⟨rfl, rfl, rfl, rfl, rfl, rfl⟩

theorem popBasic_exception (cpu : Cpu) : cpu.popBasic.exception = cpu.popped 7 &&& 0x1ff#32 := rfl

theorem popExtended_keepsStacks (cpu : Cpu) (type : Word) :
    KeepsStacks cpu (cpu.popExtended F type).cpu ∧
      (cpu.popExtended F type).cpu.exception = cpu.exception := by
  unfold Cpu.popExtended
  split
  · exact ⟨KeepsStacks.refl cpu, rfl⟩
  · split
    · exact ⟨⟨rfl, rfl, rfl, rfl, rfl, rfl⟩, rfl⟩
    · split
      · exact ⟨⟨rfl, rfl, rfl, rfl, rfl, rfl⟩, rfl⟩
      · split <;> exact ⟨⟨rfl, rfl, rfl, rfl, rfl, rfl⟩, rfl⟩

theorem popRest_keepsStacks (cpu : Cpu) (type : Word) : KeepsStacks cpu (cpu.popRest F type).cpu ∧
      (cpu.popRest F type).cpu.exception = cpu.popped 7 &&& 0x1ff#32 := by
  have basic := popBasic_keepsStacks cpu
  obtain ⟨extended, exception⟩ := @popExtended_keepsStacks F cpu.popBasic type
  rw [popBasic_exception] at exception
  have both := basic.trans extended
  unfold Cpu.popRest
  cases outcome : cpu.popBasic.popExtended F type with
  | loopExit last =>
    rw [outcome] at both exception
    exact ⟨both, exception⟩
  | done last =>
    rw [outcome] at both exception
    exact ⟨⟨both.secure, both.processSp, both.otherSp, both.otherSsMsp, both.otherSsPsp,
      both.control⟩, exception⟩

end Tlib.CortexM
