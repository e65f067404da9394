import Tlib.CortexM.ExceptionEntry
import Tlib.CortexM.SecureCalls
import Tlib.CortexM.SpecialRegisters

/-!
Contract: the four stack pointers and the cells that hold them.

Owns: where each pointer is and who moves it, and that a step which moves one keeps the others.
-/

namespace Tlib.CortexM

open Tlib.Library.WordStack

/-- An architectural stack pointer: `MSP` or `PSP` of a Security state. -/
structure StackPointer where
  (secure process : Bool)
  deriving DecidableEq, Repr

/-- A field of the state that holds a stack pointer. -/
inductive Cell where
  | sp
  | otherSp
  | otherSsMsp
  | otherSsPsp
  deriving DecidableEq, Repr

def Cpu.readCell (cpu : Cpu) : Cell → Word
  | .sp => cpu.sp
  | .otherSp => cpu.otherSp
  | .otherSsMsp => cpu.otherSsMsp
  | .otherSsPsp => cpu.otherSsPsp

def Cpu.cell (cpu : Cpu) (p : StackPointer) : Cell :=
  if p.secure = cpu.secure then if p.process = cpu.processSp then .sp else .otherSp
  else if p.process then .otherSsPsp else .otherSsMsp

def Cpu.pointer (cpu : Cpu) (p : StackPointer) : Word := cpu.readCell (cpu.cell p)

/-- The pointer in `regs[13]`. -/
def Cpu.active (cpu : Cpu) : StackPointer := ⟨cpu.secure, cpu.processSp⟩

/-- `process_sp` says what the mode and `CONTROL.SPSEL` say. -/
def Cpu.StackSelected (cpu : Cpu) : Prop := cpu.processSp = cpu.isUsingProcessSpCurrent

instance (cpu : Cpu) : Decidable cpu.StackSelected := inferInstanceAs (Decidable (_ = _))

def OnlyMoves (cpu cpu' : Cpu) (p : StackPointer) : Prop :=
  ∀ other, other ≠ p → cpu'.pointer other = cpu.pointer other

def MovesNone (cpu cpu' : Cpu) : Prop := ∀ p, cpu'.pointer p = cpu.pointer p

/-- Nothing changes of what selects a stack, nor any pointer that is not active. -/
structure KeepsStacks (cpu cpu' : Cpu) : Prop where
  secure : cpu'.secure = cpu.secure
  processSp : cpu'.processSp = cpu.processSp
  otherSp : cpu'.otherSp = cpu.otherSp
  otherSsMsp : cpu'.otherSsMsp = cpu.otherSsMsp
  otherSsPsp : cpu'.otherSsPsp = cpu.otherSsPsp
  control : cpu'.control = cpu.control

variable {cpu cpu' cpu'' : Cpu} {F : Features} {E : Environment} {p q : StackPointer}

theorem cell_injective (cpu : Cpu) : Function.Injective cpu.cell := by
  rintro ⟨pSecure, pProcess⟩ ⟨qSecure, qProcess⟩ same
  unfold Cpu.cell at same
  cases pSecure <;> cases pProcess <;> cases qSecure <;> cases qProcess <;>
    cases secure : cpu.secure <;> cases process : cpu.processSp <;> simp_all

theorem cell_active (cpu : Cpu) : cpu.cell cpu.active = .sp := by
  simp [Cpu.cell, Cpu.active]

theorem pointer_active (cpu : Cpu) : cpu.pointer cpu.active = cpu.sp := by
  rw [Cpu.pointer, cell_active]
  rfl

theorem getMsp_eq (cpu : Cpu) : cpu.getMsp = cpu.pointer ⟨cpu.secure, false⟩ := by
  cases process : cpu.processSp <;>
    simp [Cpu.getMsp, Cpu.pointer, Cpu.cell, process, Cpu.readCell]

theorem getPsp_eq (cpu : Cpu) : cpu.getPsp = cpu.pointer ⟨cpu.secure, true⟩ := by
  cases process : cpu.processSp <;>
    simp [Cpu.getPsp, Cpu.pointer, Cpu.cell, process, Cpu.readCell]

theorem otherSsMsp_eq (cpu : Cpu) : cpu.otherSsMsp = cpu.pointer ⟨!cpu.secure, false⟩ := by
  simp [Cpu.pointer, Cpu.cell, Cpu.readCell]

theorem otherSsPsp_eq (cpu : Cpu) : cpu.otherSsPsp = cpu.pointer ⟨!cpu.secure, true⟩ := by
  simp [Cpu.pointer, Cpu.cell, Cpu.readCell]

theorem MovesNone.refl (cpu : Cpu) : MovesNone cpu cpu := fun _ => rfl

theorem MovesNone.trans (first : MovesNone cpu cpu') (second : MovesNone cpu' cpu'') :
    MovesNone cpu cpu'' := fun p => (second p).trans (first p)

theorem MovesNone.then (first : MovesNone cpu cpu') (second : OnlyMoves cpu' cpu'' p) :
    OnlyMoves cpu cpu'' p := fun q other => (second q other).trans (first q)

theorem OnlyMoves.then (first : OnlyMoves cpu cpu' p) (second : MovesNone cpu' cpu'') :
    OnlyMoves cpu cpu'' p := fun q other => (second q).trans (first q other)

theorem KeepsStacks.refl (cpu : Cpu) : KeepsStacks cpu cpu := ⟨rfl, rfl, rfl, rfl, rfl, rfl⟩

theorem KeepsStacks.trans (first : KeepsStacks cpu cpu') (second : KeepsStacks cpu' cpu'') :
    KeepsStacks cpu cpu'' :=
  ⟨second.secure.trans first.secure, second.processSp.trans first.processSp,
    second.otherSp.trans first.otherSp, second.otherSsMsp.trans first.otherSsMsp,
    second.otherSsPsp.trans first.otherSsPsp, second.control.trans first.control⟩

theorem KeepsStacks.active (keeps : KeepsStacks cpu cpu') : cpu'.active = cpu.active := by
  unfold Cpu.active
  rw [keeps.secure, keeps.processSp]

theorem KeepsStacks.onlyMoves (keeps : KeepsStacks cpu cpu') : OnlyMoves cpu cpu' cpu.active := by
  intro q other
  have sameCell : cpu'.cell q = cpu.cell q := by
    unfold Cpu.cell
    rw [keeps.secure, keeps.processSp]
  have notSp : cpu.cell q ≠ .sp := by
    rw [← cell_active cpu]
    exact fun same => other (cell_injective cpu same)
  unfold Cpu.pointer
  rw [sameCell]
  cases cell : cpu.cell q with
  | sp => exact absurd cell notSp
  | otherSp => exact keeps.otherSp
  | otherSsMsp => exact keeps.otherSsMsp
  | otherSsPsp => exact keeps.otherSsPsp

theorem KeepsStacks.movesNone (keeps : KeepsStacks cpu cpu') (sp : cpu'.sp = cpu.sp) :
    MovesNone cpu cpu' := by
  intro q
  by_cases activePointer : q = cpu.active
  · rw [activePointer, pointer_active, ← keeps.active, pointer_active]
    exact sp
  · exact keeps.onlyMoves q activePointer

theorem KeepsStacks.stackSelected (keeps : KeepsStacks cpu cpu')
    (exception : cpu'.exception = cpu.exception) (selected : cpu.StackSelected) :
    cpu'.StackSelected := by
  unfold Cpu.StackSelected Cpu.isUsingProcessSpCurrent Cpu.isUsingProcessSp
    Cpu.inHandlerMode at selected ⊢
  rw [keeps.processSp, keeps.control, keeps.secure, exception]
  exact selected

def Cpu.withStacks (cpu other : Cpu) : Cpu :=
  { cpu with
    sp := other.sp
    otherSp := other.otherSp
    otherSsMsp := other.otherSsMsp
    otherSsPsp := other.otherSsPsp
    processSp := other.processSp
    secure := other.secure }

def Relocates (cpu cpu' : Cpu) : Prop := cpu' = cpu.withStacks cpu'

theorem Relocates.refl (cpu : Cpu) : Relocates cpu cpu := rfl

theorem Relocates.trans (first : Relocates cpu cpu') (second : Relocates cpu' cpu'') :
    Relocates cpu cpu'' := by
  rw [first] at second
  exact second

theorem Relocates.same {α : Type} (relocates : Relocates cpu cpu') (part : Cpu → α) :
    part cpu' = part (cpu.withStacks cpu') := congrArg part relocates

theorem switchV7mSp_relocates (cpu : Cpu) (process : Bool) :
    Relocates cpu (cpu.switchV7mSp process) := by
  unfold Cpu.switchV7mSp
  split <;> rfl

theorem switchV7mSecurityState_relocates (cpu : Cpu) (secure : Bool) :
    Relocates cpu (cpu.switchV7mSecurityState secure) := by
  unfold Cpu.switchV7mSecurityState
  split <;> rfl

theorem switchV7mSp_movesNone (cpu : Cpu) (process : Bool) :
    MovesNone cpu (cpu.switchV7mSp process) := by
  rintro ⟨pSecure, pProcess⟩
  unfold Cpu.switchV7mSp
  split
  · rename_i switched
    simp only [Cpu.pointer, Cpu.cell]
    by_cases secure : pSecure = cpu.secure
    · cases pProcess <;> cases process <;> cases current : cpu.processSp <;>
        simp_all [Cpu.readCell]
    · cases pProcess <;> simp [secure, Cpu.readCell]
  · rfl

@[simp] theorem switchV7mSp_processSp (cpu : Cpu) (process : Bool) :
    (cpu.switchV7mSp process).processSp = process := by
  unfold Cpu.switchV7mSp
  split
  · rfl
  · rename_i same
    exact Decidable.not_not.mp same

@[simp] theorem switchV7mSp_secure (cpu : Cpu) (process : Bool) :
    (cpu.switchV7mSp process).secure = cpu.secure := by
  unfold Cpu.switchV7mSp
  split <;> rfl

@[simp] theorem switchV7mSp_control (cpu : Cpu) (process : Bool) :
    (cpu.switchV7mSp process).control = cpu.control := by
  unfold Cpu.switchV7mSp
  split <;> rfl

@[simp] theorem switchV7mSp_exception (cpu : Cpu) (process : Bool) :
    (cpu.switchV7mSp process).exception = cpu.exception := by
  unfold Cpu.switchV7mSp
  split <;> rfl

theorem switchV7mSecurityState_movesNone (cpu : Cpu) (secure : Bool) :
    MovesNone cpu (cpu.switchV7mSecurityState secure) := by
  rintro ⟨pSecure, pProcess⟩
  unfold Cpu.switchV7mSecurityState
  split
  · rfl
  · rename_i other
    have changed : cpu.secure = !secure := by
      cases secure <;> cases now : cpu.secure <;> simp_all
    generalize cpu.isUsingProcessSp cpu.inHandlerMode secure = process
    simp only [Cpu.pointer, Cpu.cell, changed, Cpu.getMsp, Cpu.getPsp]
    cases pSecure <;> cases secure <;> cases pProcess <;> cases process <;>
      cases current : cpu.processSp <;> simp [Cpu.readCell]

@[simp] theorem switchV7mSecurityState_secure (cpu : Cpu) (secure : Bool) :
    (cpu.switchV7mSecurityState secure).secure = secure := by
  unfold Cpu.switchV7mSecurityState
  split
  · rename_i same
    exact same.symm
  · rfl

@[simp] theorem switchV7mSecurityState_control (cpu : Cpu) (secure : Bool) :
    (cpu.switchV7mSecurityState secure).control = cpu.control := by
  unfold Cpu.switchV7mSecurityState
  split <;> rfl

@[simp] theorem switchV7mSecurityState_exception (cpu : Cpu) (secure : Bool) :
    (cpu.switchV7mSecurityState secure).exception = cpu.exception := by
  unfold Cpu.switchV7mSecurityState
  split <;> rfl

theorem switchV7mSecurityState_selected (secure : Bool)
    (selected : secure = cpu.secure → cpu.StackSelected) :
    (cpu.switchV7mSecurityState secure).StackSelected := by
  unfold Cpu.switchV7mSecurityState
  split
  · rename_i same
    exact selected same
  · rfl

theorem accessRefused_keepsStacks (cpu : Cpu) (address : Word) (isSecure : Bool)
    (refusal : Translation) : KeepsStacks cpu (cpu.accessRefused address isSecure refusal) := by
  cases refusal <;> exact ⟨rfl, rfl, rfl, rfl, rfl, rfl⟩

theorem accessRefused_exception (cpu : Cpu) (address : Word) (isSecure : Bool)
    (refusal : Translation) :
    (cpu.accessRefused address isSecure refusal).exception = cpu.exception := by
  cases refusal <;> rfl

theorem v7mPush_keepsStacks (cpu : Cpu) (val : Word) : KeepsStacks cpu (cpu.v7mPush val).1 := by
  unfold Cpu.v7mPush
  split
  · exact ⟨rfl, rfl, rfl, rfl, rfl, rfl⟩
  · rename_i refusal _
    have refused := accessRefused_keepsStacks cpu (cpu.sp - 4#32) cpu.secure
      (cpu.getPhysAddr .store (cpu.sp - 4#32) cpu.secure (!cpu.inPrivilegedMode))
    exact ⟨refused.secure, refused.processSp, refused.otherSp, refused.otherSsMsp,
      refused.otherSsPsp, refused.control⟩

theorem v7mPush_exception (cpu : Cpu) (val : Word) :
    (cpu.v7mPush val).1.exception = cpu.exception := by
  unfold Cpu.v7mPush
  split
  · rfl
  · exact accessRefused_exception _ _ _ _

theorem v7mPushAll_keepsStacks (cpu : Cpu) (vals : List Word) :
    KeepsStacks cpu (cpu.v7mPushAll vals).1 := by
  induction vals generalizing cpu with
  | nil => exact KeepsStacks.refl cpu
  | cons val vals ih =>
    exact (v7mPush_keepsStacks cpu val).trans (ih _)

theorem v7mPushAll_exception (cpu : Cpu) (vals : List Word) :
    (cpu.v7mPushAll vals).1.exception = cpu.exception := by
  induction vals generalizing cpu with
  | nil => rfl
  | cons val vals ih =>
    exact (ih _).trans (v7mPush_exception cpu val)

def Cpu.stack (cpu : Cpu) : Stack 32 := { memory := cpu.memory, sp := cpu.sp }

def Cpu.withStack (cpu : Cpu) (stack : Stack 32) : Cpu :=
  { cpu with sp := stack.sp, memory := stack.memory }

def Cpu.GrantsBelow (cpu : Cpu) (top : Word) (first count : Nat) : Prop :=
  ∀ k, first ≤ k → k < count →
    cpu.getPhysAddr .store (top - BitVec.ofNat 32 (4 * (k + 1))) cpu.secure false = .success

theorem v7mPushAll_granted (vals : List Word) (privileged : cpu.inPrivilegedMode = true)
    (granted : cpu.GrantsBelow cpu.sp 0 vals.length) :
    cpu.v7mPushAll vals = (cpu.withStack (cpu.stack.pushAll vals), false) := by
  induction vals generalizing cpu with
  | nil => rfl
  | cons val vals ih =>
    have first : cpu.v7mPush val = (cpu.pushWord val, false) := by
      have success := granted 0 (Nat.le_refl 0) (Nat.succ_pos _)
      unfold Cpu.v7mPush
      rw [privileged, Bool.not_true]
      rw [success]
    have rest : (cpu.pushWord val).GrantsBelow (cpu.pushWord val).sp 0 vals.length := by
      intro k _ inside
      have success := granted (k + 1) (Nat.zero_le _) (Nat.succ_lt_succ inside)
      have address : (cpu.pushWord val).sp - BitVec.ofNat 32 (4 * (k + 1)) =
          cpu.sp - BitVec.ofNat 32 (4 * (k + 1 + 1)) := by
        show cpu.sp - BitVec.ofNat 32 4 - _ = _
        rw [← sub_add_eq_sub_sub, ofNat_add_ofNat]
        rw [show 4 + 4 * (k + 1) = 4 * (k + 1 + 1) by omega]
      rw [address]
      exact success
    have stillPrivileged : (cpu.pushWord val).inPrivilegedMode = true := privileged
    simp only [Cpu.v7mPushAll, first, ih stillPrivileged rest]
    rfl

end Tlib.CortexM
