import Tlib.TranslationCache.Runs

/-!
Contract: the instruction counters and the header of a block.

Owns: `cpu_sync_instructions_count`, the counters before and after the header, and the exits that it
takes.
-/

namespace Tlib.Execution

open Tlib.TranslationCache

/-- The `instructions_count_*` fields of the CPU. -/
structure InstructionsCount where
  (limit value declaration : BitVec 32)
  totalValue : BitVec 64
deriving DecidableEq, Repr

namespace InstructionsCount

/-- `cpu_sync_instructions_count` -/
def sync (count : InstructionsCount) : InstructionsCount :=
  { count with
    value := count.value + count.declaration
    totalValue := count.totalValue + count.declaration.setWidth 64
    declaration := 0 }

/-- `instructions_count_limit - instructions_count_value` -/
def left (count : InstructionsCount) : BitVec 32 := count.limit - count.value

@[simp] theorem sync_limit (count : InstructionsCount) : count.sync.limit = count.limit := rfl

@[simp] theorem sync_declaration (count : InstructionsCount) : count.sync.declaration = 0 := rfl

end InstructionsCount

/-- The part of the CPU state that the header reads and writes. -/
structure Cpu where
  instructionsCount : InstructionsCount
  (exceptionIndex exitRequest tbRestartRequest : Int)
  currentTb : Option TbId

namespace Cpu

/-- `cpu->current_tb = tb` -/
def enter (cpu : Cpu) (tb : TbId) : Cpu := { cpu with currentTb := some tb }

def sync (cpu : Cpu) : Cpu := { cpu with instructionsCount := cpu.instructionsCount.sync }

def restart (cpu : Cpu) : Cpu := { cpu with tbRestartRequest := 1 }

end Cpu

/-- `prepare_block_for_execution`; the block runs when the result is zero. -/
def prepareBlockForExecution (T : Target) (s : State) (cpu : Cpu) (tb : TbId) :
    Option (State × Cpu × Int) :=
  if 0 ≤ cpu.exceptionIndex then some (s, cpu.enter tb, 1)
  else if cpu.exitRequest ≠ 0 then some (s, cpu.enter tb, cpu.exitRequest)
  else
    let cpu := (cpu.enter tb).sync
    let instructionsLeft := cpu.instructionsCount.left
    if instructionsLeft = 0 then some (s, cpu.restart, 1)
    else if instructionsLeft.toNat < (s.tbs tb).icount then
      -- too long: out of the jump cache, so that the main loop finds a shorter one
      some (tbJmpCacheRemove T s tb, cpu.restart, 1)
    else if (s.tbs tb).dirtyFlag then
      (tbPhysInvalidate T s tb none).map fun s => (s, cpu.restart, 1)
    else some (s, cpu, cpu.tbRestartRequest)

/-- The header comes to the test of `dirty_flag`. -/
def Cpu.testsDirtyFlag (cpu : Cpu) (icount : Nat) : Prop :=
  cpu.exceptionIndex < 0 ∧ cpu.exitRequest = 0 ∧ cpu.instructionsCount.sync.left ≠ 0 ∧
    icount ≤ cpu.instructionsCount.sync.left.toNat

section Dirty

variable {T : Target} {s : State} {σ : Shape}

theorem prepareBlockForExecution_of_dirty (rep : Represents T s σ) {tb : TbId}
    (dirty : (s.tbs tb).dirtyFlag = true) (cpu : Cpu) :
    ∃ s' cpu' result, prepareBlockForExecution T s cpu tb = some (s', cpu', result) ∧ result ≠ 0 ∧
      (s.Hashed T tb → cpu.testsDirtyFlag (s.tbs tb).icount → s'.Gone T tb) := by
  unfold prepareBlockForExecution Cpu.testsDirtyFlag
  by_cases pending : 0 ≤ cpu.exceptionIndex
  · refine ⟨s, cpu.enter tb, 1, if_pos pending, by decide, fun _ tests => ?_⟩
    omega
  rw [if_neg pending]
  by_cases exits : cpu.exitRequest = 0
  swap
  · exact ⟨s, cpu.enter tb, cpu.exitRequest, if_pos exits, exits,
      fun _ tests => absurd tests.2.1 exits⟩
  rw [if_neg (not_not.mpr exits)]
  have sameCount : ((cpu.enter tb).sync).instructionsCount.left =
      cpu.instructionsCount.sync.left := rfl
  simp only [sameCount]
  by_cases spent : cpu.instructionsCount.sync.left = 0
  · exact ⟨s, _, 1, if_pos spent, by decide, fun _ tests => absurd spent tests.2.2.1⟩
  rw [if_neg spent]
  by_cases tooLong : cpu.instructionsCount.sync.left.toNat < (s.tbs tb).icount
  · refine ⟨_, _, 1, if_pos tooLong, by decide, fun _ tests => ?_⟩
    omega
  rw [if_neg tooLong, if_pos dirty]
  by_cases hashed : s.Hashed T tb
  · obtain ⟨s', invalidated, gone⟩ := tbPhysInvalidate_gone rep hashed
    exact ⟨s', _, 1, by rw [invalidated]; rfl, by decide, fun _ _ => gone⟩
  · obtain ⟨s', _, invalidated, -⟩ := tbPhysInvalidate_total rep tb
    exact ⟨s', _, 1, by rw [invalidated]; rfl, by decide, fun inBucket => absurd inBucket hashed⟩

end Dirty

end Tlib.Execution
