import Mathlib.Data.BitVec
import Tlib.Execution.InstructionCount

/-!
Contract: the instruction budget of `tlib_execute`.

Owns: the loops around generated code as far as the counters go, the faults of the external MMU in
the middle of a block, and the runs that stay within the limit. Does not own: what the instructions
compute.
-/

namespace Tlib.Execution

open Tlib.TranslationCache List Option
open Tlib.Softmmu

def excpInterrupt : Int := 0x10000
def excpWfi : Int := 0x10001

/-- Where a call of `tlib_execute` stands. -/
inductive Phase where
  | whileTest (result : Int)
  | top
  | loop
  | tests
  | header (code : HostCode)
  | hook (code : HostCode)
  | body (code : HostCode)
  | returned (result : Int)
deriving DecidableEq

structure RunState where
  cpu : Cpu
  globalRetaddr : Nat
  localCounter : BitVec 32
  phase : Phase
  /-- The guest instructions that the call has executed. The code does not have it. -/
  executed : Nat

/-- What happens next; `k` is the executing instruction and `hostPc` a host PC in its code. -/
inductive Event where
  | cpuExec (hasWork : Bool)
  | request (exceptionIndex exitRequest : Int)
  | dispatch (returnOnException wfi : Bool)
  | sync
  | find (code : HostCode)
  | prepare (T : Target) (s : State) (tb : TbId)
  | blockBegin (result : Bool)
  | ioAccess (k hostPc : Nat)
  | exitTb
  | chained (code : HostCode)
  | loopExitRestore (k hostPc : Nat)
  | interrupt (k hostPc : Nat) (exceptionType : Int) (restoreToCurrentInstruction : Bool)
  | tryExitCpuLoop (k hostPc : Nat)
  | externalMmuFault (target : FaultTarget) (k hostPc : Nat) (result : ExternalMmuResult)

namespace RunState

def count (r : RunState) : InstructionsCount := r.cpu.instructionsCount

def setCount (r : RunState) (count : InstructionsCount) : RunState :=
  { r with cpu := { r.cpu with instructionsCount := count } }

def setException (r : RunState) (exceptionIndex : Int) : RunState :=
  { r with cpu := { r.cpu with exceptionIndex := exceptionIndex } }

def setExitRequest (r : RunState) (exitRequest : Int) : RunState :=
  { r with cpu := { r.cpu with exitRequest := exitRequest } }

def setRetaddr (r : RunState) (hostPc : Nat) : RunState := { r with globalRetaddr := hostPc }

def goto (r : RunState) (phase : Phase) : RunState := { r with phase := phase }

def execute (r : RunState) (executed : Nat) : RunState :=
  { r with executed := r.executed + executed }

/-- The end of `tlib_execute`. -/
def finish (r : RunState) (result : Int) : RunState :=
  (r.setCount { r.count with value := r.localCounter }).goto (.returned result)

/-- What `tlib_execute` does behind `cpu_exec`. -/
def leaveCpuExec (r : RunState) (result : Int) : RunState :=
  let count := r.count.sync
  let r := { r with localCounter := r.localCounter + count.value }.setCount
    { count with limit := count.limit - count.value, value := 0 }
  if r.cpu.exitRequest ≠ 0 then (r.setExitRequest 0).finish result
  else r.goto (.whileTest result)

/-- The test of the loop of `tlib_execute`, and the beginning of `cpu_exec`. -/
def cpuExec (r : RunState) (result : Int) (hasWork : Bool) : RunState :=
  if result = excpInterrupt ∧ 0 < r.count.limit.toNat then
    if hasWork then (r.setException (-1)).goto .top else r.leaveCpuExec excpWfi
  else r.finish result

def dispatch (r : RunState) (returnOnException wfi : Bool) : RunState :=
  if 0 ≤ r.cpu.exceptionIndex then
    if returnOnException ∨ excpInterrupt ≤ r.cpu.exceptionIndex then
      r.leaveCpuExec r.cpu.exceptionIndex
    else
      -- behind `do_interrupt`
      if wfi then (r.setException (-1)).leaveCpuExec 0 else (r.setException (-1)).goto .loop
  else r.goto .loop

/-- The tests of the inner loop up to `tb_find_fast`, which finds a block. -/
def find (r : RunState) (code : HostCode) : RunState :=
  if r.cpu.exceptionIndex ≠ -1 then r.goto .top
  else
    let r := if r.count.value = r.count.limit then r.setExitRequest 1 else r
    if r.cpu.exitRequest ≠ 0 then (r.setException excpInterrupt).goto .top
    else if r.cpu.tbRestartRequest ≠ 0 then
      { r with cpu := { r.cpu with tbRestartRequest := 0 } }.goto .top
    else r.goto (.header code)

/-- The header of a block; an exit from it goes through `EXIT_TB_FORCE`. -/
def prepare (r : RunState) (code : HostCode) (T : Target) (s : State) (tb : TbId) :
    Option RunState :=
  (prepareBlockForExecution T s r.cpu tb).map fun (_, cpu, result) =>
    if result = 0 then { r with cpu := cpu }.goto (.hook code)
    else ({ r with cpu := cpu }.setException excpInterrupt).goto .top

/-- `block_begin_event`, and the declaration of the block's instructions. -/
def blockBegin (r : RunState) (code : HostCode) (result : Bool) : RunState :=
  if result then
    (r.setCount { r.count with declaration := BitVec.ofNat 32 code.icount }).goto (.body code)
  else ((r.setExitRequest 1).setException excpInterrupt).goto .top

/-- `interrupt_current_translation_block` at the `k`-th instruction. -/
def interrupt (tbFindPc : FindPc) (r : RunState) (k : Nat) (exceptionType : Int)
    (restoreToCurrentInstruction : Bool) : RunState :=
  let (count, leaves) := interruptCurrentTranslationBlock tbFindPc r.count r.globalRetaddr
    restoreToCurrentInstruction
  if leaves then
    (((r.setCount count).setException exceptionType).execute
      (if restoreToCurrentInstruction then k - 1 else k)).goto .top
  else (r.setCount count).setException exceptionType

/-- The counters behind a denied access, and whether it has left the block. -/
def externalMmuFault (r : RunState) (k : Nat) (fault : InstructionsCount × Bool) : RunState :=
  let denied := (r.setCount fault.1).setExitRequest 1
  if fault.2 then (denied.execute k).goto .top else denied

end RunState

open RunState in
/-- The next state; `none` where an event cannot happen, or the code aborts. -/
def step (tbFindPc : FindPc) (r : RunState) (e : Event) : Option RunState :=
  match r.phase, e with
  | .whileTest result, .cpuExec hasWork => some (r.cpuExec result hasWork)
  | .whileTest _, _ => none
  | .returned _, _ => none
  | _, .request exceptionIndex exitRequest =>
    some ((r.setException exceptionIndex).setExitRequest exitRequest)
  | .top, .dispatch returnOnException wfi => some (r.dispatch returnOnException wfi)
  | .loop, .sync => some ((r.setCount r.count.sync).goto .tests)
  | .tests, .find code => some (r.find code)
  | .header code, .prepare T s tb =>
    if (s.tbs tb).icount = code.icount then r.prepare code T s tb else none
  | .hook code, .blockBegin result => some (r.blockBegin code result)
  | .body _, .ioAccess _ hostPc => some (r.setRetaddr hostPc)
  | .body code, .exitTb => some ((r.execute code.icount).goto .loop)
  | .body code, .chained next => some ((r.execute code.icount).goto (.header next))
  | .body _, .loopExitRestore k hostPc =>
    (cpuLoopExitRestore tbFindPc r.count hostPc).map fun count =>
      ((r.setCount count).execute k).goto .top
  | .body _, .interrupt k _ exceptionType toCurrent =>
    some (r.interrupt tbFindPc k exceptionType toCurrent)
  | .body _, .tryExitCpuLoop k hostPc =>
    if 0 ≤ r.cpu.exceptionIndex then
      some ((r.setRetaddr hostPc).interrupt tbFindPc k r.cpu.exceptionIndex false)
    else some r
  | .body code, .externalMmuFault target k hostPc result =>
    (externalMmuFault target tbFindPc code r.count r.globalRetaddr hostPc result).map
      (r.externalMmuFault k)
  | _, _ => none

/-! ### Runs -/

def Event.executing : Event → Option (Nat × Nat)
  | .ioAccess k hostPc => some (k, hostPc)
  | .loopExitRestore k hostPc => some (k, hostPc)
  | .interrupt k hostPc _ _ => some (k, hostPc)
  | .tryExitCpuLoop k hostPc => some (k, hostPc)
  | .externalMmuFault _ k hostPc _ => some (k, hostPc)
  | _ => none

/-- A host PC in the code of the executing instruction. -/
def InInsn (tbFindPc : FindPc) (code : HostCode) (k hostPc : Nat) : Prop :=
  tbFindPc hostPc = some code ∧ code.Executes k hostPc

def Possible (tbFindPc : FindPc) (r : RunState) (e : Event) : Prop :=
  ∀ code k hostPc, r.phase = .body code → e.executing = some (k, hostPc) →
    InInsn tbFindPc code k hostPc

/-- `global_retaddr` was set by the executing instruction, or is in no block. -/
def FreshRetaddr (tbFindPc : FindPc) (r : RunState) (code : HostCode) (k : Nat) : Prop :=
  tbFindPc r.globalRetaddr = none ∨ InInsn tbFindPc code k r.globalRetaddr

def RestoresOnce (tbFindPc : FindPc) (r : RunState) (e : Event) : Prop :=
  match r.phase, e with
  | .body code, .interrupt k _ _ _ => FreshRetaddr tbFindPc r code k
  | .body _, .externalMmuFault target k _ .noFault => k = 1 ∧ target ≠ .rl78
  | .body code, .externalMmuFault _ k _ .fault => FreshRetaddr tbFindPc r code k
  | .body code, .externalMmuFault target k _ .faultExternalAbort =>
    target = .arm64 true → k = code.icount
  | _, _ => True

/-- `tlib_get_executed_instructions` -/
def RunState.readCount (r : RunState) : RunState :=
  r.setCount { r.count with value := 0, limit := r.count.limit - r.count.value }

/-- The beginning of `tlib_execute`. -/
def RunState.tlibExecute (r : RunState) (maxInsns : BitVec 32) : Option RunState :=
  if r.count.value ≠ 0 then none
  else some { r.setCount { r.count with limit := maxInsns } with
    localCounter := 0, executed := 0, phase := .whileTest excpInterrupt }

/-- The states of calls of `tlib_execute` with a budget, one after the other. -/
inductive Reached (tbFindPc : FindPc) (Allowed : RunState → Event → Prop) :
    BitVec 32 → RunState → Prop
  | first {maxInsns : BitVec 32} {r r' : RunState} :
      r.count.value = 0 → r.count.declaration = 0 → r.tlibExecute maxInsns = some r' →
      Reached tbFindPc Allowed maxInsns r'
  | next {before maxInsns : BitVec 32} {r r' : RunState} {result : Int} :
      Reached tbFindPc Allowed before r → r.phase = .returned result →
      r.readCount.tlibExecute maxInsns = some r' → Reached tbFindPc Allowed maxInsns r'
  | step {maxInsns : BitVec 32} {r r' : RunState} {e : Event} :
      Reached tbFindPc Allowed maxInsns r → Possible tbFindPc r e → Allowed r e →
      step tbFindPc r e = some r' → Reached tbFindPc Allowed maxInsns r'

/-! ### Counters within the budget -/

namespace InstructionsCount

variable {count : InstructionsCount} {executed : Nat}

def Within (count : InstructionsCount) : Prop :=
  count.value.toNat + count.declaration.toNat ≤ count.limit.toNat

theorem toNat_add_of_le {a b : BitVec 32} {limit : BitVec 32} (le : a.toNat + b.toNat ≤ limit.toNat) :
    (a + b).toNat = a.toNat + b.toNat := by
  exact Nat.mod_eq_of_lt (by omega)

theorem Within.sync_value (within : count.Within) :
    count.sync.value.toNat = count.value.toNat + count.declaration.toNat :=
  toNat_add_of_le within

theorem Within.sync (within : count.Within) : count.sync.Within := by
  unfold Within at *
  rw [sync_declaration, sync_limit, Within.sync_value within]
  simpa using within

theorem Within.left (within : count.Within) :
    count.left.toNat = count.limit.toNat - count.value.toNat := by
  have le : count.value ≤ count.limit := by
    unfold Within at within
    rw [BitVec.le_def]
    omega
  exact BitVec.toNat_sub_of_le le

theorem toNat_ofNat_of_le {limit : BitVec 32} (le : executed ≤ limit.toNat) :
    (BitVec.ofNat 32 executed).toNat = executed := by
  exact Nat.mod_eq_of_lt (by omega)

theorem Within.restored_value (within : count.Within)
    (le : executed ≤ count.declaration.toNat) :
    (count.restored executed).value.toNat = count.value.toNat + executed := by
  unfold Within at within
  have fits : executed ≤ count.limit.toNat := by omega
  have small := toNat_ofNat_of_le fits
  have sum : count.value.toNat + (BitVec.ofNat 32 executed).toNat ≤ count.limit.toNat := by
    omega
  calc (count.restored executed).value.toNat
      = count.value.toNat + (BitVec.ofNat 32 executed).toNat := toNat_add_of_le sum
    _ = count.value.toNat + executed := by rw [small]

theorem Within.restored (within : count.Within) (le : executed ≤ count.declaration.toNat) :
    (count.restored executed).Within := by
  have value := within.restored_value le
  unfold Within at *
  change _ + (0 : BitVec 32).toNat ≤ count.limit.toNat
  simp
  omega

end InstructionsCount

/-! ### The invariant -/

structure InBudget (maxInsns : BitVec 32) (r : RunState) : Prop where
  total : r.count.limit.toNat + r.localCounter.toNat = maxInsns.toNat
  within : r.count.Within

/-- All that is counted or declared has been executed. -/
structure Settled (maxInsns : BitVec 32) (r : RunState) : Prop extends InBudget maxInsns r where
  executed : r.executed = r.localCounter.toNat + r.count.value.toNat + r.count.declaration.toNat

/-- The instructions of the block that runs are declared and not yet executed. -/
structure Running (maxInsns : BitVec 32) (r : RunState) (code : HostCode) : Prop extends
    InBudget maxInsns r where
  declared : r.count.declaration.toNat = code.icount
  executed : r.executed = r.localCounter.toNat + r.count.value.toNat

/-- The value that is left is the number of executed instructions. -/
structure Returned (maxInsns : BitVec 32) (r : RunState) : Prop where
  value : r.count.value.toNat = r.executed
  executed_le : r.executed ≤ maxInsns.toNat
  declaration : r.count.declaration = 0

def AccountedAt (maxInsns : BitVec 32) (r : RunState) : Phase → Prop
  | .returned _ => Returned maxInsns r
  | .whileTest _ => Settled maxInsns r ∧ r.count.value = 0 ∧ r.count.declaration = 0
  | .hook code =>
    Settled maxInsns r ∧ r.count.declaration = 0 ∧
      r.count.value.toNat + code.icount ≤ r.count.limit.toNat
  | .body code => Running maxInsns r code
  | _ => Settled maxInsns r

def Accounted (maxInsns : BitVec 32) (r : RunState) : Prop := AccountedAt maxInsns r r.phase

section Steps

variable {tbFindPc : FindPc} {maxInsns : BitVec 32} {r r' : RunState} {code : HostCode}

section

variable (settled : Settled maxInsns r)

include settled

theorem Settled.of_same (count : r'.count = r.count)
    (counter : r'.localCounter = r.localCounter) (executed : r'.executed = r.executed) :
    Settled maxInsns r' := by
  refine ⟨⟨?_, ?_⟩, ?_⟩
  · rw [count, counter]
    exact settled.total
  · rw [count]
    exact settled.within
  · rw [count, counter, executed]
    exact settled.executed

theorem Settled.sync : Settled maxInsns (r.setCount r.count.sync) where
  total := settled.total
  within := settled.within.sync
  executed := by
    have executed := settled.executed
    have value := settled.within.sync_value
    change r.executed = r.localCounter.toNat + r.count.sync.value.toNat + (0 : BitVec 32).toNat
    simp
    omega

theorem Settled.leaveCpuExec (result : Int) : Accounted maxInsns (r.leaveCpuExec result) := by
  have total := settled.total
  have executed := settled.executed
  have value := settled.within.sync_value
  have within := settled.within
  unfold InstructionsCount.Within at within
  have fits : r.localCounter.toNat + r.count.sync.value.toNat ≤ maxInsns.toNat := by omega
  have counter := InstructionsCount.toNat_add_of_le fits
  have limit : (r.count.sync.limit - r.count.sync.value).toNat =
      r.count.limit.toNat - r.count.sync.value.toNat := settled.within.sync.left
  unfold RunState.leaveCpuExec
  dsimp only
  split
  · refine ⟨?_, ?_, rfl⟩
    · change (r.localCounter + r.count.sync.value).toNat = r.executed
      omega
    · change r.executed ≤ _
      omega
  · refine ⟨⟨⟨?_, ?_⟩, ?_⟩, rfl, rfl⟩
    · change (r.count.sync.limit - r.count.sync.value).toNat +
        (r.localCounter + r.count.sync.value).toNat = _
      omega
    · change (0 : BitVec 32).toNat + (0 : BitVec 32).toNat ≤ _
      simp
    · change r.executed = (r.localCounter + r.count.sync.value).toNat +
        (0 : BitVec 32).toNat + (0 : BitVec 32).toNat
      simp only [BitVec.ofNat_eq_ofNat, BitVec.toNat_ofNat, Nat.zero_mod]
      omega

theorem Settled.cpuExec (value : r.count.value = 0)
    (declaration : r.count.declaration = 0) (result : Int) (hasWork : Bool) :
    Accounted maxInsns (r.cpuExec result hasWork) := by
  have executed := settled.executed
  have total := settled.total
  unfold RunState.cpuExec
  split
  · split
    · exact settled.of_same rfl rfl rfl
    · exact settled.leaveCpuExec excpWfi
  · refine ⟨?_, ?_, declaration⟩
    · change r.localCounter.toNat = r.executed
      rw [executed, value, declaration]
      simp
    · change r.executed ≤ _
      rw [executed, value, declaration]
      simp
      omega

theorem Settled.dispatch (returnOnException wfi : Bool) :
    Accounted maxInsns (r.dispatch returnOnException wfi) := by
  unfold RunState.dispatch
  split
  · split
    · exact settled.leaveCpuExec _
    · have handled : Settled maxInsns (r.setException (-1)) := settled.of_same rfl rfl rfl
      split
      · exact handled.leaveCpuExec 0
      · exact handled.of_same rfl rfl rfl
  · exact settled.of_same rfl rfl rfl

theorem Settled.find (code : HostCode) : Accounted maxInsns (r.find code) := by
  unfold RunState.find
  split
  · exact settled.of_same rfl rfl rfl
  · dsimp only
    generalize tested : (if r.count.value = r.count.limit then r.setExitRequest 1 else r) = next
    have same : Settled maxInsns next := by
      rw [← tested]
      split
      · exact settled.of_same rfl rfl rfl
      · exact settled
    split
    · exact same.of_same rfl rfl rfl
    · split
      · exact same.of_same rfl rfl rfl
      · exact same.of_same rfl rfl rfl

end

theorem prepareBlockForExecution_count {T : Target} {s s' : State} {cpu cpu' : Cpu} {tb : TbId}
    {result : Int} (done : prepareBlockForExecution T s cpu tb = some (s', cpu', result)) :
    (cpu'.instructionsCount = cpu.instructionsCount ∨
        cpu'.instructionsCount = cpu.instructionsCount.sync) ∧
      (result = 0 → cpu'.instructionsCount = cpu.instructionsCount.sync ∧
        (s.tbs tb).icount ≤ cpu.instructionsCount.sync.left.toNat) := by
  unfold prepareBlockForExecution at done
  by_cases pending : 0 ≤ cpu.exceptionIndex
  · rw [if_pos pending] at done
    cases done
    exact ⟨.inl rfl, fun zero => absurd zero (by decide)⟩
  rw [if_neg pending] at done
  by_cases exits : cpu.exitRequest ≠ 0
  · rw [if_pos exits] at done
    cases done
    exact ⟨.inl rfl, fun zero => absurd zero exits⟩
  rw [if_neg exits] at done
  dsimp only at done
  split at done
  · cases done
    exact ⟨.inr rfl, fun zero => absurd zero (by decide)⟩
  · split at done
    · cases done
      exact ⟨.inr rfl, fun zero => absurd zero (by decide)⟩
    next fits =>
      split at done
      · obtain ⟨invalidated, _, same⟩ := map_eq_some_iff.mp done
        cases same
        exact ⟨.inr rfl, fun zero => absurd zero (by decide)⟩
      · cases done
        exact ⟨.inr rfl, fun _ => ⟨rfl, Nat.le_of_not_lt fits⟩⟩

theorem Settled.prepare (settled : Settled maxInsns r) {T : Target} {s : State} {tb : TbId}
    (icount : (s.tbs tb).icount = code.icount) (done : r.prepare code T s tb = some r') :
    Accounted maxInsns r' := by
  obtain ⟨⟨s', cpu', result⟩, prepared, rfl⟩ := map_eq_some_iff.mp done
  obtain ⟨counts, runs⟩ := prepareBlockForExecution_count prepared
  have same : Settled maxInsns { r with cpu := cpu' } := by
    rcases counts with equal | equal
    · exact settled.of_same equal rfl rfl
    · exact settled.sync.of_same equal rfl rfl
  dsimp only
  split
  next zero =>
    obtain ⟨equal, fits⟩ := runs zero
    have left := settled.within.sync.left
    have within := settled.within.sync
    unfold InstructionsCount.Within at within
    refine ⟨same.of_same rfl rfl rfl, ?_, ?_⟩
    · change cpu'.instructionsCount.declaration = 0
      rw [equal]
      rfl
    · change cpu'.instructionsCount.value.toNat + code.icount ≤ cpu'.instructionsCount.limit.toNat
      rw [equal, ← icount]
      change (s.tbs tb).icount ≤ r.count.sync.left.toNat at fits
      change r.count.sync.value.toNat + _ ≤ r.count.sync.limit.toNat
      omega
  · exact same.of_same rfl rfl rfl

theorem Settled.blockBegin (settled : Settled maxInsns r) (declaration : r.count.declaration = 0)
    (fits : r.count.value.toNat + code.icount ≤ r.count.limit.toNat) (result : Bool) :
    Accounted maxInsns (r.blockBegin code result) := by
  have executed := settled.executed
  unfold RunState.blockBegin
  split
  · have small : (BitVec.ofNat 32 code.icount).toNat = code.icount :=
      InstructionsCount.toNat_ofNat_of_le (by omega : code.icount ≤ r.count.limit.toNat)
    refine ⟨⟨settled.total, ?_⟩, small, ?_⟩
    · change r.count.value.toNat + (BitVec.ofNat 32 code.icount).toNat ≤ r.count.limit.toNat
      rw [small]
      exact fits
    · change r.executed = r.localCounter.toNat + r.count.value.toNat
      rw [executed, declaration]
      simp
  · exact settled.of_same rfl rfl rfl

section

variable (running : Running maxInsns r code)

include running

theorem Running.exitTb : Settled maxInsns (r.execute code.icount) where
  toInBudget := ⟨running.total, running.within⟩
  executed := by
    change r.executed + code.icount = _
    rw [running.executed, ← running.declared]
    rfl

theorem Running.restored {executed : Nat}
    (le : executed ≤ code.icount) :
    Settled maxInsns ((r.setCount (r.count.restored executed)).execute executed) := by
  have le' : executed ≤ r.count.declaration.toNat := by
    rw [running.declared]
    exact le
  refine ⟨⟨running.total, running.within.restored le'⟩, ?_⟩
  change r.executed + executed = r.localCounter.toNat + (r.count.restored executed).value.toNat +
    (0 : BitVec 32).toNat
  rw [running.within.restored_value le', running.executed]
  simp
  omega

theorem Running.of_same (count : r'.count = r.count)
    (counter : r'.localCounter = r.localCounter) (executed : r'.executed = r.executed) :
    Running maxInsns r' code := by
  refine ⟨⟨?_, ?_⟩, ?_, ?_⟩
  · rw [count, counter]
    exact running.total
  · rw [count]
    exact running.within
  · rw [count]
    exact running.declared
  · rw [count, counter, executed]
    exact running.executed

theorem Running.interrupt (phase : r.phase = .body code)
    {k : Nat} (le : k ≤ code.icount) (fresh : FreshRetaddr tbFindPc r code k)
    (exceptionType : Int) (toCurrent : Bool) :
    Accounted maxInsns (r.interrupt tbFindPc k exceptionType toCurrent) := by
  have stays : Accounted maxInsns ((r.setCount r.count).setException exceptionType) := by
    change AccountedAt maxInsns _ r.phase
    rw [phase]
    exact running.of_same rfl rfl rfl
  unfold RunState.interrupt
  rcases fresh with missing | ⟨found, executes⟩
  · rw [interruptCurrentTranslationBlock_none missing]
    exact stays
  · rw [interruptCurrentTranslationBlock_executes found executes]
    cases toCurrent with
    | true => exact (running.restored (Nat.le_trans (Nat.sub_le k 1) le)).of_same rfl rfl rfl
    | false =>
      by_cases last : k = code.icount
      · simp only [Bool.false_eq_true, if_false, if_pos last]
        exact stays
      · simp only [Bool.false_eq_true, if_false, if_neg last, if_true]
        exact (running.restored le).of_same rfl rfl rfl

theorem Running.loopExitRestore {k hostPc : Nat}
    (inInsn : InInsn tbFindPc code k hostPc) {count : InstructionsCount}
    (done : cpuLoopExitRestore tbFindPc r.count hostPc = some count) :
    Settled maxInsns ((r.setCount count).execute k) := by
  rw [cpuLoopExitRestore_executes inInsn.1 inInsn.2] at done
  cases done
  exact running.restored inInsn.2.le

theorem Running.archRaiseMmuFault {k hostPc : Nat} (inInsn : InInsn tbFindPc code k hostPc)
    (phase : r.phase = .body code) (target : FaultTarget) {fault : InstructionsCount × Bool}
    (done : archRaiseMmuFault tbFindPc r.count hostPc target = some fault) :
    Accounted maxInsns (r.externalMmuFault k fault) := by
  unfold Execution.archRaiseMmuFault at done
  split at done
  · cases done
    change AccountedAt maxInsns _ r.phase
    rw [phase]
    exact running.of_same rfl rfl rfl
  · obtain ⟨count, restored, rfl⟩ := map_eq_some_iff.mp done
    exact (running.loopExitRestore inInsn restored).of_same rfl rfl rfl

theorem Running.externalMmuFault {target : FaultTarget} {k hostPc : Nat}
    (inInsn : InInsn tbFindPc code k hostPc) {result : ExternalMmuResult}
    (phase : r.phase = .body code)
    (once : RestoresOnce tbFindPc r (.externalMmuFault target k hostPc result))
    {fault : InstructionsCount × Bool}
    (done : externalMmuFault target tbFindPc code r.count r.globalRetaddr hostPc result =
      some fault) : Accounted maxInsns (r.externalMmuFault k fault) := by
  unfold RestoresOnce at once
  rw [phase] at once
  unfold Execution.externalMmuFault at done
  cases result with
  | noFault =>
    -- at the first instruction the first correction adds nothing
    obtain ⟨rfl, raises⟩ := once
    rw [restoreInstructionsCount_executes inInsn.2] at done
    simp only [Bool.false_eq_true, if_false, Nat.sub_self] at done
    rw [archRaiseMmuFault_of_ne raises, cpuLoopExitRestore_executes inInsn.1 inInsn.2] at done
    cases done
    have twice : (r.count.restored 0).restored 1 = r.count.restored 1 := by
      simp [InstructionsCount.restored]
    rw [twice]
    exact (running.restored inInsn.2.le).of_same rfl rfl rfl
  | fault =>
    rcases once with missing | ⟨found, executes⟩
    · rw [interruptCurrentTranslationBlock_none missing] at done
      exact running.archRaiseMmuFault inInsn phase target done
    · rw [interruptCurrentTranslationBlock_executes found executes] at done
      by_cases last : k = code.icount
      · simp only [Bool.false_eq_true, if_false, if_pos last] at done
        exact running.archRaiseMmuFault inInsn phase target done
      · simp only [Bool.false_eq_true, if_false, if_neg last, if_true] at done
        cases done
        exact (running.restored inInsn.2.le).of_same rfl rfl rfl
  | faultExternalAbort =>
    rcases target with _ | _ | isA64
    · cases done
    · cases done
    · cases isA64 with
      | false => exact running.archRaiseMmuFault inInsn phase (.arm64 false) done
      | true =>
        -- the whole block stays declared
        cases done
        rw [once rfl]
        exact running.exitTb.of_same rfl rfl rfl

end

theorem accountedAt_request {phase : Phase} (accounted : AccountedAt maxInsns r phase)
    (exceptionIndex exitRequest : Int) :
    AccountedAt maxInsns ((r.setException exceptionIndex).setExitRequest exitRequest) phase := by
  cases phase with
  | returned result => exact ⟨accounted.value, accounted.executed_le, accounted.declaration⟩
  | whileTest result => exact ⟨accounted.1.of_same rfl rfl rfl, accounted.2⟩
  | hook code => exact ⟨accounted.1.of_same rfl rfl rfl, accounted.2⟩
  | body code => exact Running.of_same accounted rfl rfl rfl
  | top => exact Settled.of_same accounted rfl rfl rfl
  | loop => exact Settled.of_same accounted rfl rfl rfl
  | tests => exact Settled.of_same accounted rfl rfl rfl
  | header code => exact Settled.of_same accounted rfl rfl rfl

theorem Running.step {e : Event} (running : Running maxInsns r code) (phase : r.phase = .body code)
    (possible : Possible tbFindPc r e) (once : RestoresOnce tbFindPc r e)
    (done : step tbFindPc r e = some r') : Accounted maxInsns r' := by
  unfold Execution.step at done
  rw [phase] at done
  cases e with
  | request exceptionIndex exitRequest =>
    cases done
    change AccountedAt maxInsns _ r.phase
    rw [phase]
    exact running.of_same rfl rfl rfl
  | ioAccess k hostPc =>
    cases done
    change AccountedAt maxInsns _ r.phase
    rw [phase]
    exact running.of_same rfl rfl rfl
  | exitTb =>
    cases done
    exact running.exitTb.of_same rfl rfl rfl
  | chained next =>
    cases done
    exact running.exitTb.of_same rfl rfl rfl
  | loopExitRestore k hostPc =>
    obtain ⟨count, restored, rfl⟩ := map_eq_some_iff.mp done
    exact (running.loopExitRestore (possible code k hostPc phase rfl) restored).of_same
      rfl rfl rfl
  | interrupt k hostPc exceptionType toCurrent =>
    cases done
    have inInsn := possible code k hostPc phase rfl
    have fresh : FreshRetaddr tbFindPc r code k := by
      unfold RestoresOnce at once
      rw [phase] at once
      exact once
    exact running.interrupt phase inInsn.2.le fresh exceptionType toCurrent
  | tryExitCpuLoop k hostPc =>
    dsimp only at done
    split at done
    · cases done
      have inInsn := possible code k hostPc phase rfl
      have moved : Running maxInsns (r.setRetaddr hostPc) code := running.of_same rfl rfl rfl
      exact moved.interrupt phase inInsn.2.le (.inr inInsn) r.cpu.exceptionIndex false
    · cases done
      change AccountedAt maxInsns _ r.phase
      rw [phase]
      exact running
  | externalMmuFault target k hostPc result =>
    obtain ⟨fault, restored, rfl⟩ := map_eq_some_iff.mp done
    exact running.externalMmuFault (possible code k hostPc phase rfl) phase once restored
  | cpuExec hasWork => cases done
  | dispatch returnOnException wfi => cases done
  | sync => cases done
  | find next => cases done
  | prepare T s tb => cases done
  | blockBegin result => cases done

theorem step_accounted_outside {e : Event} (accounted : Accounted maxInsns r)
    (outside : ∀ code, r.phase ≠ .body code) (done : step tbFindPc r e = some r') :
    Accounted maxInsns r' := by
  unfold Accounted at accounted
  have requested := accountedAt_request accounted
  unfold Execution.step at done
  cases phase : r.phase with
  | body code => exact absurd phase (outside code)
  | whileTest result =>
    rw [phase] at done accounted
    cases e <;> try cases done
    exact accounted.1.cpuExec accounted.2.1 accounted.2.2 result _
  | returned result =>
    rw [phase] at done
    cases e <;> cases done
  | top =>
    rw [phase] at done accounted
    cases e <;> try cases done
    · exact requested _ _
    · exact Settled.dispatch accounted _ _
  | loop =>
    rw [phase] at done accounted
    cases e <;> try cases done
    · exact requested _ _
    · exact (Settled.sync accounted).of_same rfl rfl rfl
  | tests =>
    rw [phase] at done accounted
    cases e <;> try cases done
    · exact requested _ _
    · exact Settled.find accounted _
  | header code =>
    rw [phase] at done accounted
    cases e <;> try cases done
    · exact requested _ _
    · dsimp only at done
      split at done
      next icount => exact Settled.prepare accounted icount done
      · cases done
  | hook code =>
    rw [phase] at done accounted
    cases e <;> try cases done
    · exact requested _ _
    · exact Settled.blockBegin accounted.1 accounted.2.1 accounted.2.2 _

theorem step_accounted {e : Event} (accounted : Accounted maxInsns r)
    (possible : Possible tbFindPc r e) (once : RestoresOnce tbFindPc r e)
    (done : step tbFindPc r e = some r') : Accounted maxInsns r' := by
  by_cases inside : ∃ code, r.phase = .body code
  · obtain ⟨code, phase⟩ := inside
    unfold Accounted at accounted
    rw [phase] at accounted
    exact Running.step accounted phase possible once done
  · exact step_accounted_outside accounted (fun code phase => inside ⟨code, phase⟩) done

theorem accounted_tlibExecute (declaration : r.count.declaration = 0)
    (begun : r.tlibExecute maxInsns = some r') : Accounted maxInsns r' := by
  unfold RunState.tlibExecute at begun
  split at begun
  · cases begun
  next value =>
    rw [not_not] at value
    cases begun
    refine ⟨⟨⟨?_, ?_⟩, ?_⟩, value, declaration⟩
    · change maxInsns.toNat + (0 : BitVec 32).toNat = maxInsns.toNat
      simp
    · change r.count.value.toNat + r.count.declaration.toNat ≤ maxInsns.toNat
      rw [value, declaration]
      simp
    · change 0 = (0 : BitVec 32).toNat + r.count.value.toNat + r.count.declaration.toNat
      rw [value, declaration]
      rfl

theorem AccountedAt.inBudget {phase : Phase} (accounted : AccountedAt maxInsns r phase)
    (open' : ∀ result, phase ≠ .returned result) :
    InBudget maxInsns r ∧ r.executed ≤
      r.localCounter.toNat + r.count.value.toNat + r.count.declaration.toNat := by
  cases phase with
  | returned result => exact absurd rfl (open' result)
  | whileTest result => exact ⟨accounted.1.toInBudget, accounted.1.executed.le⟩
  | hook code => exact ⟨accounted.1.toInBudget, accounted.1.executed.le⟩
  | body code =>
    have running : Running maxInsns r code := accounted
    refine ⟨running.toInBudget, ?_⟩
    rw [running.executed]
    omega
  | top => exact ⟨Settled.toInBudget accounted, (Settled.executed accounted).le⟩
  | loop => exact ⟨Settled.toInBudget accounted, (Settled.executed accounted).le⟩
  | tests => exact ⟨Settled.toInBudget accounted, (Settled.executed accounted).le⟩
  | header code => exact ⟨Settled.toInBudget accounted, (Settled.executed accounted).le⟩

theorem Reached.accounted (reached : Reached tbFindPc (RestoresOnce tbFindPc) maxInsns r) :
    Accounted maxInsns r := by
  induction reached with
  | first value declaration begun => exact accounted_tlibExecute declaration begun
  | @next _ _ r _ result before returned begun ih =>
    have declaration : r.readCount.count.declaration = 0 := by
      unfold Accounted at ih
      rw [returned] at ih
      exact ih.declaration
    exact accounted_tlibExecute declaration begun
  | step before possible once done ih => exact step_accounted ih possible once done

/-- In runs that correct the counters once per exit: what is counted and declared fits
into the limit, so that no subtraction underflows; the call executes no more than its
budget; and the value that it leaves is what it executed. -/
theorem instructionsCount_within_budget
    (reached : Reached tbFindPc (RestoresOnce tbFindPc) maxInsns r) :
    r.executed ≤ maxInsns.toNat ∧
      (∀ result, r.phase = .returned result → r.count.value.toNat = r.executed) ∧
      ((∀ result, r.phase ≠ .returned result) →
        r.count.value.toNat + r.count.declaration.toNat ≤ r.count.limit.toNat ∧
          r.count.left.toNat = r.count.limit.toNat - r.count.value.toNat ∧
          r.count.sync.left.toNat =
            r.count.limit.toNat - (r.count.value.toNat + r.count.declaration.toNat)) := by
  have accounted : AccountedAt maxInsns r r.phase := reached.accounted
  by_cases finished : ∃ result, r.phase = .returned result
  · obtain ⟨result, returned⟩ := finished
    rw [returned] at accounted ⊢
    refine ⟨accounted.executed_le, fun _ _ => accounted.value, ?_⟩
    intro open'
    exact absurd rfl (open' result)
  · have open' : ∀ result, r.phase ≠ .returned result := fun result same => finished ⟨result, same⟩
    obtain ⟨⟨total, within⟩, executed⟩ := accounted.inBudget open'
    have fits := within
    unfold InstructionsCount.Within at fits
    refine ⟨by omega, fun result returned => absurd returned (open' result), fun _ => ?_⟩
    refine ⟨within, within.left, ?_⟩
    rw [← within.sync_value]
    exact within.sync.left

theorem Reached.mono {Allowed Wider : RunState → Event → Prop}
    (reached : Reached tbFindPc Allowed maxInsns r)
    (wider : ∀ r e, Allowed r e → Wider r e) : Reached tbFindPc Wider maxInsns r := by
  induction reached with
  | first value declaration begun => exact .first value declaration begun
  | next _ returned begun ih => exact .next ih returned begun
  | step _ possible allowed done ih => exact .step ih possible (wider _ _ allowed) done

end Steps

/-! ### A block of two instructions -/

def runEvents (tbFindPc : FindPc) (events : List Event) (r : RunState) : Option RunState :=
  events.foldlM (step tbFindPc) r

theorem reached_runEvents {tbFindPc : FindPc} {maxInsns : BitVec 32} {events : List Event}
    (plain : ∀ e ∈ events, e.executing = none) :
    ∀ {r r' : RunState}, Reached tbFindPc (RestoresOnce tbFindPc) maxInsns r →
      runEvents tbFindPc events r = some r' →
      Reached tbFindPc (RestoresOnce tbFindPc) maxInsns r' := by
  induction events with
  | nil =>
    intro r r' reached done
    cases done
    exact reached
  | cons e events ih =>
    intro r r' reached done
    obtain ⟨middle, first, later⟩ := bind_eq_some_iff.mp done
    have none := plain e mem_cons_self
    have possible : Possible tbFindPc r e := by
      intro code k hostPc _ executing
      rw [none] at executing
      cases executing
    have once : RestoresOnce tbFindPc r e := by
      unfold RestoresOnce
      split
      · cases none
      · cases none
      · cases none
      · cases none
      · trivial
    exact ih (fun e' member => plain e' (mem_cons_of_mem e member))
      (reached.step possible once first) later

def twoInsns : HostCode where
  start := 100
  ends := [110, 120]
  ascending := by decide

def findTwoInsns : FindPc := fun pc => if 100 ≤ pc ∧ pc < 120 then some twoInsns else none

def twoInsnsCache : State :=
  { emptyCache sampleBuffer with
    tbs := fun _ => { TranslationBlock.allocated 0 with icount := 2 } }

/-- `tlib_execute(2)` on a fresh CPU. -/
def freshCall : RunState where
  cpu :=
    { instructionsCount := { limit := 2, value := 0, declaration := 0, totalValue := 0 }
      exceptionIndex := -1, exitRequest := 0, tbRestartRequest := 0, currentTb := none }
  globalRetaddr := 0
  localCounter := 0
  phase := .whileTest excpInterrupt
  executed := 0

def intoBody : List Event :=
  [.cpuExec true, .dispatch false false, .sync, .find twoInsns,
    .prepare sampleTarget twoInsnsCache 0, .blockBegin true]

def toReturn : List Event := [.exitTb, .sync, .find twoInsns, .dispatch false false]

def insideBlock : RunState := (runEvents findTwoInsns intoBody freshCall).getD freshCall

theorem freshCall_reached : Reached findTwoInsns (RestoresOnce findTwoInsns) 2 freshCall :=
  .first (r := freshCall) rfl rfl rfl

theorem intoBody_plain : ∀ e ∈ intoBody, e.executing = none := by
  intro e member
  simp only [intoBody, mem_cons, not_mem_nil, or_false] at member
  rcases member with rfl | rfl | rfl | rfl | rfl | rfl <;> rfl

theorem toReturn_plain : ∀ e ∈ toReturn, e.executing = none := by
  intro e member
  simp only [toReturn, mem_cons, not_mem_nil, or_false] at member
  rcases member with rfl | rfl | rfl | rfl <;> rfl

theorem insideBlock_reached : Reached findTwoInsns (RestoresOnce findTwoInsns) 2 insideBlock :=
  reached_runEvents intoBody_plain freshCall_reached rfl

/-- The block runs to its end: the value is 2. -/
theorem instructionsCount_within_budget_sample :
    ∃ r, Reached findTwoInsns (RestoresOnce findTwoInsns) 2 r ∧
      r.phase = .returned excpInterrupt ∧ r.count.value = 2 ∧
      r.count.value.toNat = r.executed ∧ r.executed ≤ 2 := by
  obtain ⟨r, done, phase, value⟩ : ∃ r, runEvents findTwoInsns toReturn insideBlock = some r ∧
      r.phase = .returned excpInterrupt ∧ r.count.value = 2 := ⟨_, rfl, rfl, rfl⟩
  have reached := reached_runEvents toReturn_plain insideBlock_reached done
  have budget := instructionsCount_within_budget reached
  exact ⟨r, reached, phase, value, budget.2.1 _ phase, budget.1⟩

/-- An access at the second instruction is denied by the external MMU, and the second
answer of the handler is that there is no fault: the counters are corrected twice, the
value is above the limit and what is left of the budget underflows. -/
theorem instructionsCount_exceeds_limit :
    ∃ r, Reached findTwoInsns (fun _ _ => True) 2 r ∧ r.phase = .top ∧ r.executed = 2 ∧
      r.count.limit = 2 ∧ r.count.value = 3 ∧ r.count.declaration = 0 ∧
      r.count.left = 2 ^ 32 - 1 := by
  have second : InInsn findTwoInsns twoInsns 2 115 :=
    ⟨rfl, by decide, [110], 120, [], rfl, rfl, by decide, by decide⟩
  have possible : Possible findTwoInsns insideBlock (.externalMmuFault .restoring 2 115 .noFault) := by
    intro code k hostPc phase executing
    cases phase
    cases executing
    exact second
  exact ⟨_, (insideBlock_reached.mono fun _ _ _ => trivial).step possible trivial rfl, rfl, rfl,
    rfl, rfl, rfl, rfl⟩

end Tlib.Execution
