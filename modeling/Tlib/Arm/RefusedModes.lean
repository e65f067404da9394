import Tlib.Arm.ModeBanks

/-!
Contract: writes of the CPSR on the 64-bit core in AArch32 state.

Owns: which mode changes are refused, what a refused one still does to the registers, and runs of
writes that fit.
-/

namespace Tlib.Arm.RefusedModes

open Function Tlib.Arm.ModeBanks Option
open BitVec hiding not_not

def modeHyp : Mode := 0x1a

def bankNumber (mode : Mode) : Option Nat :=
  match mode.toNat with
  | 0x10 | 0x1f => some 0
  | 0x13 => some 1
  | 0x17 => some 2
  | 0x1b => some 3
  | 0x12 => some 4
  | 0x11 => some 5
  | 0x1a => some 6
  | 0x16 => some 7
  | _ => none

def r14BankNumber (mode : Mode) : Option Nat :=
  if mode = modeHyp then some 0 else bankNumber mode

def banking : Banking := ⟨bankNumber, r14BankNumber⟩

theorem banking_bank : banking.bankNumber = bankNumber := rfl

theorem banking_r14Bank : banking.r14BankNumber = r14BankNumber := rfl

inductive CpsrWriteType where
  | byInstr
  | exceptionReturn
  deriving DecidableEq

/-- The security state is given where it decides: it is Secure with an AArch32 EL3. -/
structure Env where
  (hasEl2 hasEl3 secureAa32El3 : Bool)
  uncachedCpsr : Word
  /-- NZCV, Q, T, IT, GE and AIF at their places in the CPSR. -/
  flags : Word
  file : RegisterFile

def cpsrIl : Word := 1 <<< 20
def cpsrAif : Word := 0x1c0
def cachedCpsrBits : Word := 0xfe0ffde0

/-- NZCV, Q, T, the parts of IT, and GE, each of which is written as a whole. -/
def flagGroups : List Word := [0xf0000000, 0x08000000, 0x20, 0x06000000, 0xfc00, 0xf0000]

def writeGroup (val mask flags group : Word) : Word :=
  if mask &&& group ≠ 0 then (flags &&& ~~~group) ||| (val &&& group) else flags

namespace Env

variable (env : Env)

def mode : Mode := env.uncachedCpsr.setWidth 5

/-- `arm_cpu_mode_to_el`; `none` is -1. -/
def armCpuModeToEl (mode : Mode) : Option Nat :=
  match mode.toNat with
  | 0x10 => some 0
  | 0x11 | 0x12 | 0x13 | 0x17 | 0x1b | 0x1f => some 1
  | 0x1a => if env.hasEl2 then some 2 else none
  | 0x16 => if env.hasEl3 then some 3 else none
  | _ => none

def armCurrentEl : Nat :=
  match env.mode.toNat with
  | 0x10 => 0
  | 0x1a => 2
  | 0x16 => 3
  | _ => if env.secureAa32El3 then 3 else 1

def isTargetModeValid (currentMode targetMode : Mode) (writeType : CpsrWriteType) : Bool :=
  if targetMode = currentMode then true
  else
    match env.armCpuModeToEl targetMode with
    | none => false
    | some targetEl =>
      if writeType = .byInstr then
        if currentMode = modeHyp ∨ targetMode = modeHyp then false
        else decide (targetEl ≤ env.armCurrentEl)
      else true

/-- `(env->uncached_cpsr ^ val) & mode_mask` -/
def changesMode (val mask : Word) : Bool :=
  decide (((env.uncachedCpsr ^^^ val).setWidth 5 &&& (mask.setWidth 5 : Mode)) ≠ 0)

def targetMode (val mask : Word) : Mode := val.setWidth 5 &&& mask.setWidth 5

def accepts (val mask : Word) (writeType : CpsrWriteType) : Bool :=
  env.isTargetModeValid (env.mode &&& mask.setWidth 5) (targetMode val mask) writeType

/-- The flags after `cpsr_write`. -/
def writeFlags (val mask : Word) : Word :=
  let flags := flagGroups.foldl (writeGroup val mask) env.flags
  (flags &&& ~~~(cpsrAif &&& mask)) ||| (val &&& (cpsrAif &&& mask))

/-- `cpsr_write`; `none` is an abort. -/
def cpsrWrite (val mask : Word) (writeType : CpsrWriteType) : Option Env :=
  let refused := env.changesMode val mask && !env.accepts val mask writeType
  let switched :=
    if env.changesMode val mask then env.file.switchMode banking env.mode (targetMode val mask)
    else some env.file
  let flags := env.writeFlags val mask
  let mask := if refused then (mask &&& ~~~0x1f) ||| cpsrIl else mask
  let val := if refused then val ||| cpsrIl else val
  let mask := mask &&& ~~~cachedCpsrBits
  switched.map fun file =>
    { env with
      uncachedCpsr := (env.uncachedCpsr &&& ~~~mask) ||| (val &&& mask)
      flags := flags
      file := file }

end Env

/-! ### What a write may do -/

/-- Nothing changes but IL and what the mask selects. -/
structure LeavesRegisters (env env' : Env) (mask : Word) : Prop where
  file : env'.file = env.file
  mode : env'.mode = env.mode
  il : env'.uncachedCpsr.getLsbD 20 = true
  uncached : ∀ i, i ≠ 20 → mask.getLsbD i = false →
    env'.uncachedCpsr.getLsbD i = env.uncachedCpsr.getLsbD i
  flags : ∀ i, (∀ group ∈ cpsrAif :: flagGroups, group.getLsbD i = true → mask &&& group = 0) →
    env'.flags.getLsbD i = env.flags.getLsbD i

/-- The mode is the one asked for, and every register has its value. -/
structure TakesOver (env env' : Env) (target : Mode) : Prop where
  mode : env'.mode = target
  view : env'.file.view banking env'.mode = env.file.view banking env.mode

def WriteSound (env : Env) (val mask : Word) (writeType : CpsrWriteType) : Prop :=
  env.changesMode val mask = true → ∃ env', env.cpsrWrite val mask writeType = some env' ∧
      if env.accepts val mask writeType = true then TakesOver env env' (Env.targetMode val mask)
      else LeavesRegisters env env' mask

structure NothingToExchange (f : RegisterFile) (old mode : Mode) : Prop where
  bank : ∃ i, bankNumber mode = some i ∧ f.bankedR13 i = f.regs 13 ∧ f.bankedSpsr i = f.spsr
  r14Bank : ∃ j, r14BankNumber mode = some j ∧ f.bankedR14 j = f.regs 14
  oldBank : ∀ i, bankNumber old = some i → f.bankedR13 i = f.regs 13 ∧ f.bankedSpsr i = f.spsr
  oldR14Bank : ∀ j, r14BankNumber old = some j → f.bankedR14 j = f.regs 14
  high : old = modeFiq ∨ mode = modeFiq → f.fiqRegs = highRegs f.regs ∧ f.usrRegs = highRegs f.regs

theorem swapHigh_eq_self {f : RegisterFile} {old mode : Mode}
    (high : old = modeFiq ∨ mode = modeFiq →
      f.fiqRegs = highRegs f.regs ∧ f.usrRegs = highRegs f.regs) : f.swapHigh old mode = f := by
  have same : setHighRegs f.regs (highRegs f.regs) = f.regs := by
    funext r
    unfold setHighRegs
    split_ifs with inside
    · exact congrArg f.regs (by dsimp only; omega)
    · rfl
  unfold RegisterFile.swapHigh
  split_ifs with fromFiq toFiq
  · obtain ⟨fiq, usr⟩ := high (Or.inl fromFiq)
    rw [← fiq, show setHighRegs f.regs f.usrRegs = f.regs by rw [usr, same]]
  · obtain ⟨fiq, usr⟩ := high (Or.inr toFiq)
    rw [← usr, show setHighRegs f.regs f.fiqRegs = f.regs by rw [fiq, same]]
  · rfl

theorem high_of_exchanged {f : RegisterFile} {old mode : Mode} {i j i' j' : Nat}
    (same : ((f.swapHigh old mode).saveBank i j).loadBank i' j' = f)
    (fiq : old = modeFiq ∨ mode = modeFiq) :
    f.fiqRegs = highRegs f.regs ∧ f.usrRegs = highRegs f.regs := by
  have fiqRegs := congrArg RegisterFile.fiqRegs same
  have usrRegs := congrArg RegisterFile.usrRegs same
  have regs (k : Fin 5) := (@RegisterFile.loadBank_regs ((f.swapHigh old mode).saveBank i j) i' j'
    (8 + k) (by omega)).symm.trans (congrFun (congrArg RegisterFile.regs same) (8 + k))
  unfold RegisterFile.swapHigh at fiqRegs usrRegs regs
  by_cases fromFiq : old = modeFiq
  · simp only [if_pos fromFiq] at fiqRegs regs
    exact ⟨fiqRegs.symm, funext fun k => (setHighRegs_high _ _ k).symm.trans (regs k)⟩
  · have toFiq : mode = modeFiq := fiq.resolve_left fromFiq
    simp only [if_neg fromFiq, if_pos toFiq] at usrRegs regs
    exact ⟨funext fun k => (setHighRegs_high _ _ k).symm.trans (regs k), usrRegs.symm⟩

theorem switchMode_eq_self_iff {f : RegisterFile} {old mode : Mode} {i j : Nat}
    (differ : mode ≠ old) (oldBank : bankNumber old = some i)
    (oldR14Bank : r14BankNumber old = some j) :
    f.switchMode banking old mode = some f ↔ NothingToExchange f old mode := by
  rw [RegisterFile.switchMode, if_neg differ, banking_bank, banking_r14Bank, oldBank, oldR14Bank]
  constructor
  · intro done
    cases bank : bankNumber mode with
    | none => rw [bank] at done; cases done
    | some i' =>
      cases r14Bank : r14BankNumber mode with
      | none => rw [bank, r14Bank] at done; cases done
      | some j' =>
        rw [bank, r14Bank] at done
        have same : ((f.swapHigh old mode).saveBank i j).loadBank i' j' = f := some.inj done
        have regs := congrFun (congrArg RegisterFile.regs same)
        have inUse {r : Nat} (le : 13 ≤ r) : (f.swapHigh old mode).regs r = f.regs r :=
          RegisterFile.swapHigh_regs (Or.inr le)
        have r13 : update _ i _ = f.bankedR13 := congrArg RegisterFile.bankedR13 same
        have r14 : update _ j _ = f.bankedR14 := congrArg RegisterFile.bankedR14 same
        have spsr : update _ i _ = f.bankedSpsr := congrArg RegisterFile.bankedSpsr same
        have spsr' := congrArg RegisterFile.spsr same
        refine ⟨⟨i', bank, ?_, ?_⟩, ⟨j', r14Bank, ?_⟩, fun k eq => ?_, fun k eq => ?_,
          high_of_exchanged same⟩
        · exact (congrFun r13 i').symm.trans ((RegisterFile.loadBank_r13 i' j').symm.trans (regs 13))
        · exact (congrFun spsr i').symm.trans spsr'
        · exact (congrFun r14 j').symm.trans ((RegisterFile.loadBank_r14 i' j').symm.trans (regs 14))
        · obtain rfl := some.inj (oldBank.symm.trans eq)
          have live := (@RegisterFile.swapHigh_banked f mode old).2.2.2
          exact ⟨(congrFun r13 i).symm.trans ((update_self _ _ _).trans (inUse (by decide))),
            (congrFun spsr i).symm.trans ((update_self _ _ _).trans live)⟩
        · obtain rfl := some.inj (oldR14Bank.symm.trans eq)
          exact (congrFun r14 j).symm.trans ((update_self _ _ _).trans (inUse (by decide)))
  · intro equal
    obtain ⟨⟨i', bank, r13, spsr⟩, ⟨j', r14Bank, r14⟩, oldEqual, oldR14Equal, high⟩ := equal
    obtain ⟨oldR13, oldSpsr⟩ := oldEqual i oldBank
    have saved : f.saveBank i j = f := by
      have kept : update f.bankedSpsr i f.spsr = f.bankedSpsr := by rw [← oldSpsr, update_eq_self]
      rw [RegisterFile.saveBank, ← oldR13, ← oldR14Equal j oldR14Bank, kept, update_eq_self,
        update_eq_self]
    have loaded : f.loadBank i' j' = f := by
      rw [RegisterFile.loadBank, r13, r14, spsr, update_eq_self, update_eq_self]
    rw [bank, r14Bank, swapHigh_eq_self high]
    exact congrArg some ((congrArg (RegisterFile.loadBank · i' j') saved).trans loaded)

theorem getLsbD_written (old val mask : Word) (i : Nat) :
    ((old &&& ~~~mask) ||| (val &&& mask)).getLsbD i =
      if mask.getLsbD i = true then val.getLsbD i else old.getLsbD i := by
  have small : old.getLsbD i = true → i < 32 := lt_of_getLsbD
  rw [getLsbD_or, getLsbD_and, getLsbD_and, getLsbD_not]
  cases mask.getLsbD i <;> cases bit : old.getLsbD i <;> simp_all

theorem writeGroup_getLsbD {val mask flags group : Word} {i : Nat}
    (outside : group.getLsbD i = true → mask &&& group = 0) :
    (writeGroup val mask flags group).getLsbD i = flags.getLsbD i := by
  unfold writeGroup
  split_ifs with selected
  · rw [getLsbD_written, if_neg (fun isIn => selected (outside isIn))]
  · rfl

theorem writeFlags_getLsbD {env : Env} {val mask : Word} {i : Nat}
    (outside : ∀ group ∈ cpsrAif :: flagGroups, group.getLsbD i = true → mask &&& group = 0) :
    (env.writeFlags val mask).getLsbD i = env.flags.getLsbD i := by
  have groups : ∀ (list : List Word) (flags : Word),
      (∀ group ∈ list, group.getLsbD i = true → mask &&& group = 0) →
      (list.foldl (writeGroup val mask) flags).getLsbD i = flags.getLsbD i := by
    intro list
    induction list with
    | nil => exact fun _ _ => rfl
    | cons group rest ih =>
      intro flags outside
      rw [List.foldl_cons, ih _ fun other member => outside other (List.mem_cons_of_mem _ member)]
      exact writeGroup_getLsbD (outside group List.mem_cons_self)
  have aif : (cpsrAif &&& mask).getLsbD i ≠ true := by
    intro isIn
    rw [getLsbD_and, Bool.and_eq_true] at isIn
    have empty := congrArg (getLsbD · i) (outside cpsrAif List.mem_cons_self isIn.1)
    rw [getLsbD_and, isIn.1, isIn.2] at empty
    simp at empty
  rw [Env.writeFlags, getLsbD_written, if_neg aif]
  exact groups flagGroups env.flags fun group member =>
    outside group (List.mem_cons_of_mem _ member)

theorem and_xor_and (a b m : Mode) : (a ^^^ b) &&& m = (a &&& m) ^^^ (b &&& m) := by
  refine eq_of_getLsbD_eq fun i _ => ?_
  simp only [getLsbD_and, getLsbD_xor]
  cases m.getLsbD i <;> simp

theorem merged_eq_iff (old val m : Mode) :
    (old &&& ~~~m) ||| (val &&& m) = val &&& m ↔ old &&& ~~~m = 0 := by
  constructor
  · intro merged
    refine eq_of_getLsbD_eq fun i less => ?_
    have bit := congrArg (getLsbD · i) merged
    simp only [getLsbD_or, getLsbD_and, getLsbD_not] at bit ⊢
    revert bit
    cases m.getLsbD i <;> simp
  · intro zero
    rw [zero]
    exact zero_or

section Write

variable {env : Env} {val mask : Word} {writeType : CpsrWriteType} {b : Nat}

theorem targetMode_ne (changes : env.changesMode val mask = true) :
    Env.targetMode val mask ≠ env.mode &&& mask.setWidth 5 := by
  intro same
  refine of_decide_eq_true changes ?_
  rw [setWidth_xor, and_xor_and]
  exact BitVec.xor_eq_zero_iff.mpr same.symm

theorem targetMode_ne_mode (changes : env.changesMode val mask = true) :
    Env.targetMode val mask ≠ env.mode := by
  intro same
  refine targetMode_ne changes ?_
  rw [← same, Env.targetMode, BitVec.and_assoc, BitVec.and_self]

theorem bank_of_el {mode : Mode} {el : Nat} (hasEl : env.armCpuModeToEl mode = some el) :
    ∃ i, bankNumber mode = some i := by
  unfold Env.armCpuModeToEl at hasEl
  unfold bankNumber
  split at hasEl <;> simp_all

theorem r14Bank_of_bank {mode : Mode} {i : Nat} (bank : bankNumber mode = some i) :
    ∃ j, r14BankNumber mode = some j := by
  unfold r14BankNumber
  split_ifs
  · exact ⟨0, rfl⟩
  · exact ⟨i, bank⟩

theorem target_el (changes : env.changesMode val mask = true)
    (accepts : env.accepts val mask writeType = true) :
    ∃ el, env.armCpuModeToEl (Env.targetMode val mask) = some el := by
  unfold Env.accepts Env.isTargetModeValid at accepts
  rw [if_neg (targetMode_ne changes)] at accepts
  cases hasEl : env.armCpuModeToEl (Env.targetMode val mask) with
  | none => rw [hasEl] at accepts; cases accepts
  | some el => exact ⟨el, rfl⟩

theorem cpsrIl_getLsbD (i : Nat) : cpsrIl.getLsbD i = decide (i = 20) := by
  have all : ∀ i < 32, cpsrIl.getLsbD i = decide (i = 20) := by decide
  by_cases small : i < 32
  · exact all i small
  · rw [getLsbD_of_ge _ _ (by omega), decide_eq_false (by omega)]

theorem refused_iff (legal : bankNumber env.mode = some b)
    (changes : env.changesMode val mask = true)
    (refuses : env.accepts val mask writeType = false) :
    (∃ env', env.cpsrWrite val mask writeType = some env' ∧ LeavesRegisters env env' mask) ↔
      NothingToExchange env.file env.mode (Env.targetMode val mask) := by
  obtain ⟨j, r14Bank⟩ := r14Bank_of_bank legal
  rw [← switchMode_eq_self_iff (targetMode_ne_mode changes) legal r14Bank]
  unfold Env.cpsrWrite
  simp only [changes, refuses, Bool.not_false, Bool.and_self, if_true]
  constructor
  · rintro ⟨env', done, leaves⟩
    obtain ⟨file, switched, rfl⟩ := map_eq_some_iff.mp done
    rw [switched, show file = env.file from leaves.file]
  · intro same
    rw [same]
    refine ⟨_, rfl, rfl, ?_, ?_, fun i notIl outside => ?_, fun i => writeFlags_getLsbD⟩
    · refine (@written_mode cachedCpsrBits (by decide) _ _ _).trans ?_
      have none : ((mask &&& ~~~0x1f ||| cpsrIl).setWidth 5 : Mode) = 0 := by
        rw [setWidth_or, setWidth_and]
        exact or_zero.trans and_zero
      rw [none]
      show _ = env.uncachedCpsr.setWidth 5
      simpa using and_modeBits (env.uncachedCpsr.setWidth 5)
    · have selected : ((mask &&& ~~~0x1f ||| cpsrIl) &&& ~~~cachedCpsrBits).getLsbD 20 = true := by
        simp [cpsrIl_getLsbD, cachedCpsrBits]
      rw [getLsbD_written, if_pos selected, getLsbD_or, cpsrIl_getLsbD]
      simp
    · have kept : ((mask &&& ~~~0x1f ||| cpsrIl) &&& ~~~cachedCpsrBits).getLsbD i ≠ true := by
        rw [getLsbD_and, getLsbD_or, getLsbD_and, outside, cpsrIl_getLsbD,
          decide_eq_false notIl]
        simp
      rw [getLsbD_written, if_neg kept]

theorem accepted_iff (legal : bankNumber env.mode = some b)
    (changes : env.changesMode val mask = true)
    (accepts : env.accepts val mask writeType = true) :
    (∃ env', env.cpsrWrite val mask writeType = some env' ∧
        TakesOver env env' (Env.targetMode val mask)) ↔
      env.mode &&& ~~~(mask.setWidth 5) = 0 := by
  obtain ⟨el, hasEl⟩ := target_el changes accepts
  obtain ⟨i, bank⟩ := bank_of_el hasEl
  obtain ⟨j, r14Bank⟩ := r14Bank_of_bank legal
  obtain ⟨j', r14Bank'⟩ := r14Bank_of_bank bank
  obtain ⟨file, switched, same⟩ :=
    @RegisterFile.switchMode_view banking env.file _ _ _ _ _ _ legal r14Bank bank r14Bank'
  have written := @written_mode cachedCpsrBits (by decide) env.uncachedCpsr val mask
  unfold Env.cpsrWrite
  simp only [changes, accepts, switched, Bool.not_true, Bool.and_false, if_true, map_some,
    Bool.false_eq_true, if_false]
  constructor
  · rintro ⟨_, done, takes⟩
    cases done
    exact (merged_eq_iff _ _ _).mp (written.symm.trans takes.mode)
  · intro zero
    have mode : _ = Env.targetMode val mask := written.trans ((merged_eq_iff _ _ _).mpr zero)
    exact ⟨_, rfl, mode, (congrArg (file.view banking) mode).trans same⟩

end Write

/-- A refused change has nothing to exchange, and an accepted one selects every mode bit that is
set. -/
def WriteFits (env : Env) (val mask : Word) (writeType : CpsrWriteType) : Prop :=
  env.changesMode val mask = true →
    if env.accepts val mask writeType = true then env.mode &&& ~~~(mask.setWidth 5) = 0
    else NothingToExchange env.file env.mode (Env.targetMode val mask)

theorem writeSound_of_fits_iff {env : Env} {b : Nat} (legal : bankNumber env.mode = some b)
    (val mask : Word) (writeType : CpsrWriteType) :
    WriteSound env val mask writeType ↔ WriteFits env val mask writeType := by
  refine forall_congr' fun changes => ?_
  by_cases accepts : env.accepts val mask writeType = true
  · simp only [if_pos accepts]
    exact accepted_iff legal changes accepts
  · simp only [if_neg accepts]
    exact refused_iff legal changes (Bool.not_eq_true _ ▸ accepts)

/-! ### Runs -/

def Env.Legal (env : Env) : Prop := ∃ b, bankNumber env.mode = some b

theorem unchanged_keeps {env : Env} {val mask : Word} (writeType : CpsrWriteType)
    (keeps : env.changesMode val mask = false) :
    ∃ env', env.cpsrWrite val mask writeType = some env' ∧ env'.file = env.file ∧
      env'.mode = env.mode := by
  have equal : env.mode &&& mask.setWidth 5 = val.setWidth 5 &&& (mask.setWidth 5 : Mode) := by
    have differ := of_decide_eq_false keeps
    rw [not_not, setWidth_xor, and_xor_and] at differ
    exact BitVec.xor_eq_zero_iff.mp differ
  unfold Env.cpsrWrite
  simp only [keeps, Bool.false_and, Bool.false_eq_true, if_false, map_some]
  refine ⟨_, rfl, rfl, (@written_mode cachedCpsrBits (by decide) _ _ _).trans ?_⟩
  rw [← equal]
  refine eq_of_getLsbD_eq fun i less => ?_
  simp only [Env.mode, getLsbD_or, getLsbD_and, getLsbD_not]
  cases (mask.setWidth 5 : Mode).getLsbD i <;> simp [less]

theorem cpsrWrite_keeps {env : Env} (legal : env.Legal) {val mask : Word}
    {writeType : CpsrWriteType} (fits : WriteFits env val mask writeType) :
    ∃ env', env.cpsrWrite val mask writeType = some env' ∧ env'.Legal ∧
      env'.file.view banking env'.mode = env.file.view banking env.mode := by
  obtain ⟨b, bank⟩ := legal
  by_cases changes : env.changesMode val mask = true
  · obtain ⟨env', done, sound⟩ := (writeSound_of_fits_iff bank val mask writeType).mpr fits changes
    refine ⟨env', done, ?_⟩
    split_ifs at sound with accepts
    · obtain ⟨el, hasEl⟩ := target_el changes accepts
      rw [Env.Legal, sound.view, sound.mode]
      exact ⟨bank_of_el hasEl, rfl⟩
    · rw [Env.Legal, sound.file, sound.mode]
      exact ⟨⟨b, bank⟩, rfl⟩
  · obtain ⟨env', done, file, mode⟩ :=
      unchanged_keeps writeType (Bool.not_eq_true _ ▸ changes : env.changesMode val mask = false)
    refine ⟨env', done, ?_⟩
    rw [Env.Legal, file, mode]
    exact ⟨⟨b, bank⟩, rfl⟩

inductive Step where
  | cpsrWrite (val mask : Word) (writeType : CpsrWriteType)
  | writeReg (r : GeneralReg) (val : Word)
  | writeSpsr (val : Word)

def bank (mode : Mode) : Nat := (bankNumber mode).getD 0

def r14Bank (mode : Mode) : Nat := (r14BankNumber mode).getD 0

def Step.next (env : Env) (known : ArchReg → Word) : Step → Option (Env × (ArchReg → Word))
  | cpsrWrite val mask writeType => (env.cpsrWrite val mask writeType).map (·, known)
  | writeReg r val =>
    some ({ env with file := env.file.setReg r val },
      update known (r.named env.mode (bank env.mode) (r14Bank env.mode)) val)
  | writeSpsr val =>
    some ({ env with file := { env.file with spsr := val } },
      update known (.spsr (bank env.mode)) val)

def runSteps (env : Env) (known : ArchReg → Word) : List Step → Option (Env × (ArchReg → Word))
  | [] => some (env, known)
  | step :: rest => (step.next env known).bind fun next => runSteps next.1 next.2 rest

def Step.Fits (env : Env) : Step → Prop
  | cpsrWrite val mask writeType => WriteFits env val mask writeType
  | _ => True

/-- A run all of whose writes fit. -/
inductive FitRun : Env → List Step → Prop
  | nil (env : Env) : FitRun env []
  | cons {env : Env} {step : Step} {rest : List Step} (fits : step.Fits env)
      (later : ∀ known next, step.next env known = some next → FitRun next.1 rest) :
      FitRun env (step :: rest)

theorem step_known {env : Env} (legal : env.Legal) {step : Step} (fits : step.Fits env) :
    ∃ next, step.next env (env.file.view banking env.mode) = some next ∧ next.1.Legal ∧
      next.2 = next.1.file.view banking next.1.mode := by
  obtain ⟨b, isBank⟩ := legal
  obtain ⟨j, isR14Bank⟩ := r14Bank_of_bank isBank
  have bank_eq : bank env.mode = b := congrArg (·.getD 0) isBank
  have r14_eq : r14Bank env.mode = j := congrArg (·.getD 0) isR14Bank
  cases step with
  | cpsrWrite val mask writeType =>
    obtain ⟨env', done, legal, same⟩ := cpsrWrite_keeps ⟨b, isBank⟩ fits
    exact ⟨_, congrArg (Option.map _) done, legal, same.symm⟩
  | writeReg r val =>
    refine ⟨_, rfl, ⟨b, isBank⟩, ?_⟩
    rw [bank_eq, r14_eq]
    exact (@RegisterFile.setReg_view banking env.file env.mode _ _ isBank isR14Bank r val).symm
  | writeSpsr val =>
    refine ⟨_, rfl, ⟨b, isBank⟩, ?_⟩
    rw [bank_eq]
    exact (@RegisterFile.setSpsr_view banking env.file env.mode _ isBank val).symm

theorem run_known {env : Env} (legal : env.Legal) {steps : List Step} (run : FitRun env steps) :
    ∃ last, runSteps env (env.file.view banking env.mode) steps = some last ∧
      last.2 = last.1.file.view banking last.1.mode := by
  induction run with
  | nil env => exact ⟨_, rfl, rfl⟩
  | @cons env step rest fits later ih =>
    obtain ⟨next, done, legal, same⟩ := step_known legal fits
    obtain ⟨last, ends, known⟩ := ih _ next done legal
    refine ⟨last, ?_, known⟩
    rw [runSteps, done, bind_some, same]
    exact ends

/-- A write of the CPSR does what is demanded exactly when it fits, and after a run of writes that
fit every register has the value last written to it. -/
theorem writes_sound (env : Env) (legal : env.Legal) :
    (∀ val mask writeType, WriteSound env val mask writeType ↔ WriteFits env val mask writeType) ∧
    ∀ steps, FitRun env steps →
      ∃ last, runSteps env (env.file.view banking env.mode) steps = some last ∧
        last.2 = last.1.file.view banking last.1.mode :=
  ⟨fun val mask writeType => legal.elim fun _ bank => writeSound_of_fits_iff bank val mask writeType,
    fun _ run => run_known legal run⟩

def svcEnv : Env :=
  ⟨true, true, false, 0x13, 0,
    ⟨fun _ => 1, 2, fun _ => 0, fun _ => 0, fun _ => 0, fun _ => 0, fun _ => 0⟩⟩

/-- From SVC to IRQ. -/
theorem writes_sound_sample : svcEnv.Legal ∧ WriteSound svcEnv 0x12 0x1f .byInstr :=
  have legal : svcEnv.Legal := ⟨1, rfl⟩
  ⟨legal, ((writes_sound svcEnv legal).1 0x12 0x1f .byInstr).mpr fun _ => by
    rw [if_pos (by decide)]
    decide⟩

/-- SVC asks for Hyp and is refused, but r13 is the one of Hyp afterwards. -/
theorem refused_exchanges : svcEnv.accepts 0x1a 0x1f .byInstr = false ∧
    (svcEnv.cpsrWrite 0x1a 0x1f .byInstr).map (fun env => (env.mode, env.file.regs 13)) =
      some (0x13, 0) ∧
    svcEnv.file.regs 13 = 1 ∧ (svcEnv.cpsrWrite 0x14 0x1f .byInstr).isNone = true := by
  decide

end Tlib.Arm.RefusedModes
