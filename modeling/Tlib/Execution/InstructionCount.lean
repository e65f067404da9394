import Tlib.Execution.BlockHeader
import Tlib.Softmmu.MmuWindows

/-!
Contract: the instruction count of a block that is left in the middle.

Owns: the search for the executing instruction, and the exits of each target that correct the count
or leave it.
-/

namespace Tlib.Execution

open Tlib.Softmmu List

/-- The generated code of a block: where it starts, and where each instruction ends. -/
structure HostCode where
  start : Nat
  ends : List Nat
  ascending : (start :: ends).Pairwise (· ≤ ·)
deriving DecidableEq

def HostCode.icount (code : HostCode) : Nat := code.ends.length

/-- The host PC lies in the code of the `k`-th instruction, counted from one. -/
structure HostCode.Executes (code : HostCode) (k hostPc : Nat) : Prop where
  start_le : code.start ≤ hostPc
  row : ∃ before hostEnd behind, code.ends = before ++ hostEnd :: behind ∧
    before.length + 1 = k ∧ (∀ past ∈ before, past ≤ hostPc) ∧ hostPc < hostEnd

/-- The loop of `cpu_get_data_for_pc`. -/
def searchRows (searchedPc : Nat) : List Nat → Int → Bool → Int
  | [], _, _ => -1
  | hostEnd :: rest, i, skipCurrentInstruction =>
    if hostEnd > searchedPc then
      if skipCurrentInstruction then searchRows searchedPc rest (i + 1) false else i
    else searchRows searchedPc rest (i + 1) skipCurrentInstruction

/-- `cpu_get_data_for_pc` with a host PC -/
def cpuGetDataForPc (code : HostCode) (searchedPc : Nat) (skipCurrentInstruction : Bool) : Int :=
  if code.start > searchedPc then -1
  else searchRows searchedPc code.ends 1 skipCurrentInstruction

/-- The counters, and the number of executed instructions or `-1`. -/
def adjustInstructionsCount (count : InstructionsCount) (includeLastInstruction : Bool)
    (executedInstructions : Int) : InstructionsCount × Int :=
  if executedInstructions = -1 then (count, -1)
  else
    let executedInstructions :=
      if 0 < executedInstructions ∧ includeLastInstruction = false then executedInstructions - 1
      else executedInstructions
    if executedInstructions ≠ -1 then
      ({ count with
          value := count.value + BitVec.ofInt 32 executedInstructions
          totalValue := count.totalValue + BitVec.ofInt 64 executedInstructions
          declaration := 0 }, executedInstructions)
    else (count, executedInstructions)

/-- `cpu_restore_state_and_restore_instructions_count` -/
def restoreInstructionsCount (count : InstructionsCount) (code : HostCode) (searchedPc : Nat)
    (includeLastInstruction : Bool) : InstructionsCount × Int :=
  adjustInstructionsCount count includeLastInstruction (cpuGetDataForPc code searchedPc false)

/-- `cpu_restore_state_to_next_instruction` -/
def restoreToNextInstruction (count : InstructionsCount) (code : HostCode) (searchedPc : Nat) :
    InstructionsCount × Int :=
  adjustInstructionsCount count false (cpuGetDataForPc code searchedPc true)

/-- `tb_find_pc` -/
abbrev FindPc := Nat → Option HostCode

/-- `cpu_loop_exit_restore`; `none` when no block has the host PC. -/
def cpuLoopExitRestore (tbFindPc : FindPc) (count : InstructionsCount) (pc : Nat) :
    Option InstructionsCount :=
  (tbFindPc pc).map fun code => (restoreInstructionsCount count code pc true).1

/-- `interrupt_current_translation_block_internal`, and whether it leaves the block. -/
def interruptCurrentTranslationBlock (tbFindPc : FindPc) (count : InstructionsCount)
    (globalRetaddr : Nat) (restoreToCurrentInstruction : Bool) : InstructionsCount × Bool :=
  match tbFindPc globalRetaddr with
  | none => (count, false)
  | some code =>
    let (count, executedInstructions) :=
      if restoreToCurrentInstruction then
        restoreInstructionsCount count code globalRetaddr false
      else restoreToNextInstruction count code globalRetaddr
    (count, executedInstructions ≠ -1)

/-- How targets raise the faults of an external MMU. -/
inductive FaultTarget where
  /-- `arch_raise_mmu_fault_exception` restores the state and leaves, external aborts are unknown. -/
  | restoring
  /-- It does nothing. -/
  | rl78
  /-- It restores and leaves; external aborts are known. -/
  | arm64 (isA64 : Bool)
deriving DecidableEq

/-- `arch_raise_mmu_fault_exception`: the counters, and whether it leaves the block. -/
def archRaiseMmuFault (tbFindPc : FindPc) (count : InstructionsCount) (retaddr : Nat) :
    FaultTarget → Option (InstructionsCount × Bool)
  | .rl78 => some (count, false)
  | _ => (cpuLoopExitRestore tbFindPc count retaddr).map fun count => (count, true)

/-- `arch_raise_external_abort`; `raise_exception` leaves the counters as they are. -/
def archRaiseExternalAbort (tbFindPc : FindPc) (count : InstructionsCount) (retaddr : Nat) :
    FaultTarget → Option (InstructionsCount × Bool)
  | .arm64 true => some (count, true)
  | .arm64 false => archRaiseMmuFault tbFindPc count retaddr (.arm64 false)
  | _ => none

/-- What `tlb_fill` does to the counters when the external MMU denies an access. -/
def externalMmuFault (target : FaultTarget) (tbFindPc : FindPc) (currentTb : HostCode)
    (count : InstructionsCount) (globalRetaddr retaddr : Nat) :
    ExternalMmuResult → Option (InstructionsCount × Bool)
  | .noFault =>
    let (count, _) := restoreInstructionsCount count currentTb retaddr false
    archRaiseMmuFault tbFindPc count retaddr target
  | .fault =>
    let (count, leaves) := interruptCurrentTranslationBlock tbFindPc count globalRetaddr false
    if leaves then some (count, true) else archRaiseMmuFault tbFindPc count retaddr target
  | .faultExternalAbort => archRaiseExternalAbort tbFindPc count retaddr target

section Search

variable {code : HostCode} {k hostPc : Nat}

theorem searchRows_append {before rest : List Nat} {i : Int} {skip : Bool}
    (past : ∀ hostEnd ∈ before, hostEnd ≤ hostPc) :
    searchRows hostPc (before ++ rest) i skip = searchRows hostPc rest (i + before.length) skip := by
  induction before generalizing i with
  | nil => simp
  | cons hostEnd before ih =>
    have notBehind : ¬ hostEnd > hostPc := Nat.not_lt.mpr (past hostEnd mem_cons_self)
    rw [cons_append, searchRows, if_neg notBehind,
      ih fun later member => past later (mem_cons_of_mem hostEnd member)]
    congr 1
    simp only [length_cons]
    omega

section

variable (executes : code.Executes k hostPc)

include executes

theorem HostCode.Executes.pos : 0 < k := by
  obtain ⟨_, _, _, _, number, _, _⟩ := executes.row
  omega

theorem HostCode.Executes.le : k ≤ code.icount := by
  obtain ⟨before, hostEnd, behind, rows, number, _, _⟩ := executes.row
  unfold HostCode.icount
  rw [rows, length_append, length_cons]
  omega

theorem cpuGetDataForPc_executes : cpuGetDataForPc code hostPc false = k := by
  obtain ⟨before, hostEnd, behind, rows, number, past, inside⟩ := executes.row
  rw [cpuGetDataForPc, if_neg (Nat.not_lt.mpr executes.start_le), rows, searchRows_append past,
    searchRows, if_pos inside]
  simp only [Bool.false_eq_true, if_false]
  omega

theorem cpuGetDataForPc_executes_skip :
    cpuGetDataForPc code hostPc true = if k = code.icount then -1 else (k : Int) + 1 := by
  obtain ⟨before, hostEnd, behind, rows, number, past, inside⟩ := executes.row
  have length : code.icount = before.length + 1 + behind.length := by
    unfold HostCode.icount
    rw [rows, length_append, length_cons]
    omega
  rw [cpuGetDataForPc, if_neg (Nat.not_lt.mpr executes.start_le), rows, searchRows_append past,
    searchRows, if_pos inside, if_pos rfl, length]
  cases behind with
  | nil => simp [searchRows, number]
  | cons next behind =>
    have ordered := code.ascending
    rw [rows, pairwise_cons] at ordered
    have nextBehind : hostEnd ≤ next :=
      (pairwise_cons.mp (pairwise_append.mp ordered.2).2.1).1 next mem_cons_self
    rw [searchRows, if_pos (inside.trans_le nextBehind)]
    simp only [Bool.false_eq_true, if_false, length_cons]
    omega

end

end Search

def InstructionsCount.restored (count : InstructionsCount) (executed : Nat) : InstructionsCount :=
  { count with
    value := count.value + BitVec.ofNat 32 executed
    totalValue := count.totalValue + BitVec.ofNat 64 executed
    declaration := 0 }

section Restore

variable {tbFindPc : FindPc} {code : HostCode} {k hostPc globalRetaddr : Nat}
  {count : InstructionsCount}

theorem adjustInstructionsCount_nat (includeLast : Bool) {executed : Nat} (pos : 0 < executed) :
    adjustInstructionsCount count includeLast executed =
      (count.restored (if includeLast then executed else executed - 1),
        ((if includeLast then executed else executed - 1 : Nat) : Int)) := by
  unfold adjustInstructionsCount
  cases includeLast with
  | true =>
    simp only [Bool.true_eq_false, and_false, if_false, if_true]
    rfl
  | false =>
    have less : (executed : Int) - 1 = ((executed - 1 : Nat) : Int) := by omega
    have notFailed' : ((executed - 1 : Nat) : Int) ≠ -1 := by omega
    have some : 0 < (executed : Int) := by omega
    simp only [Bool.false_eq_true, and_true, if_false]
    rw [if_pos some, less, if_pos notFailed', BitVec.ofInt_natCast, BitVec.ofInt_natCast]
    rfl

theorem restoreInstructionsCount_executes (executes : code.Executes k hostPc)
    (includeLast : Bool) :
    restoreInstructionsCount count code hostPc includeLast =
      (count.restored (if includeLast then k else k - 1),
        ((if includeLast then k else k - 1 : Nat) : Int)) := by
  rw [restoreInstructionsCount, cpuGetDataForPc_executes executes]
  exact adjustInstructionsCount_nat includeLast executes.pos

theorem restoreToNextInstruction_executes (executes : code.Executes k hostPc) :
    restoreToNextInstruction count code hostPc =
      if k = code.icount then (count, -1) else (count.restored k, (k : Int)) := by
  rw [restoreToNextInstruction, cpuGetDataForPc_executes_skip executes]
  by_cases last : k = code.icount
  · rw [if_pos last, if_pos last]
    rfl
  · have next : (k : Int) + 1 = ((k + 1 : Nat) : Int) := by omega
    rw [if_neg last, if_neg last, next, adjustInstructionsCount_nat false (Nat.succ_pos k)]
    simp

theorem cpuLoopExitRestore_executes (found : tbFindPc hostPc = some code)
    (executes : code.Executes k hostPc) :
    cpuLoopExitRestore tbFindPc count hostPc = some (count.restored k) := by
  rw [cpuLoopExitRestore, found, Option.map_some, restoreInstructionsCount_executes executes]
  rfl

theorem archRaiseMmuFault_of_ne {target : FaultTarget} (raises : target ≠ .rl78) :
    archRaiseMmuFault tbFindPc count hostPc target =
      (cpuLoopExitRestore tbFindPc count hostPc).map fun count => (count, true) := by
  cases target with
  | rl78 => exact absurd rfl raises
  | restoring => rfl
  | arm64 isA64 => rfl

theorem interruptCurrentTranslationBlock_executes (found : tbFindPc globalRetaddr = some code)
    (executes : code.Executes k globalRetaddr) (toCurrent : Bool) :
    interruptCurrentTranslationBlock tbFindPc count globalRetaddr toCurrent =
      if toCurrent then (count.restored (k - 1), true)
      else if k = code.icount then (count, false) else (count.restored k, true) := by
  rw [interruptCurrentTranslationBlock, found]
  cases toCurrent with
  | true =>
    have notFailed : ((k - 1 : Nat) : Int) ≠ -1 := by omega
    simp [restoreInstructionsCount_executes executes]
  | false =>
    have notFailed : (k : Int) ≠ -1 := by omega
    by_cases last : k = code.icount <;>
      simp [restoreToNextInstruction_executes executes, last]

theorem interruptCurrentTranslationBlock_none (missing : tbFindPc globalRetaddr = none)
    (toCurrent : Bool) :
    interruptCurrentTranslationBlock tbFindPc count globalRetaddr toCurrent = (count, false) := by
  rw [interruptCurrentTranslationBlock, missing]

end Restore

end Tlib.Execution
