import Tlib.Rl78.BlockExits

/-!
Contract: chained blocks of the RL78, against blocks that are all found by their keys.

Owns: the loop of `cpu_exec` with the jumps it patches. Does not own: which block is returned
where several have the key, and when blocks are invalidated.
-/

namespace Tlib.Rl78.Chaining

open Tlib.Library.StateTriples Function Option

variable {σ : Type} {B : Bus σ}

/-- Where the CPU is: in the loop, or behind a block at the jump of a slot. -/
inductive Control where
  | loop (nextTb : Option (Nat × Nat))
  | left (tb slot : Nat)
deriving DecidableEq, Repr

/-- The machine, with the program counter of the next block also at a patched jump. -/
structure Emulator (σ : Type) where
  machine : Machine σ
  blocks : Nat → Option Block
  jmpTarget : Nat × Nat → Option Nat
  tbInvalidated : Bool
  control : Control

namespace Emulator

variable (s : Emulator σ)

def key : Key := cpuGetTbCpuState s.machine.cpu

/-- `tb_add_jump`: a slot that is patched stays as it is. -/
def tbAddJump (slot : Nat × Nat) (tb : Nat) : Emulator σ :=
  if s.jmpTarget slot = none then
    { s with jmpTarget := update s.jmpTarget slot (some tb) }
  else s

/-- What the loop does before a block that it has found is run. -/
def patch (chain : Bool) (tb : Nat) (nextTb : Option (Nat × Nat)) : Emulator σ :=
  match if s.tbInvalidated then none else nextTb with
  | some slot => if chain then ({ s with tbInvalidated := false }).tbAddJump slot tb
      else { s with tbInvalidated := false }
  | none => { s with tbInvalidated := false }

/-- The block was left. -/
def leave (tb : Nat) (exit : Exit) (machine : Machine σ) : Emulator σ :=
  { s with
    machine := machine
    control :=
      match exit with
      | .chain slot => .left tb slot
      | _ => .loop none }

def runBlock (B : Bus σ) (tb : Nat) (block : Block) : Emulator σ :=
  s.leave tb ((block.run B).run s.machine).1 ((block.run B).run s.machine).2

/-- A new block with the key of the CPU; its slots are not patched. -/
def generate (code : Nat → Nat) (tb : Nat) : Option (Emulator σ) :=
  match s.control, s.blocks tb, genIntermediateCode code s.key.pc s.key.skip with
  | .loop _, none, some block =>
    some
      { s with
        blocks := update s.blocks tb (some block)
        jmpTarget := fun slot => if slot.1 = tb then none else s.jmpTarget slot }
  | _, _, _ => none

/-- A block with the key of the CPU is found, and the slot may be patched. -/
def execute (B : Bus σ) (tb : Nat) (chain : Bool) : Option (Emulator σ) :=
  match s.control, s.blocks tb with
  | .loop nextTb, some block =>
    if block.key = s.key then some ((s.patch chain tb nextTb).runBlock B tb block) else none
  | _, _ => none

def followed : Option Block :=
  match s.control with
  | .left tb slot => (s.jmpTarget (tb, slot)).bind s.blocks
  | .loop _ => none

/-- The jump of a slot leads to the block it is patched to, or back to the loop. -/
def follow (B : Bus σ) : Option (Emulator σ) :=
  match s.control with
  | .left tb slot =>
    match s.jmpTarget (tb, slot) with
    | some next => (s.blocks next).map fun block => s.runBlock B next block
    | none => some { s with control := .loop (some (tb, slot)) }
  | .loop _ => none

/-- `tb_phys_invalidate`: jumps to the block are taken back. -/
def invalidate (tb : Nat) : Emulator σ :=
  { s with
    blocks := update s.blocks tb none
    jmpTarget := fun slot => if s.jmpTarget slot = some tb then none else s.jmpTarget slot
    tbInvalidated := true }

def interrupt (B : Bus σ) : Option (Emulator σ) :=
  match s.control with
  | .loop nextTb =>
    some
      { s with
        machine := ((processInterrupt B).run s.machine).2
        control := .loop (if acceptsInterrupt s.machine.cpu then none else nextTb) }
  | .left _ _ => none

end Emulator

inductive Event (σ : Type) where
  | generate (code : Nat → Nat) (tb : Nat)
  | execute (tb : Nat) (chain : Bool)
  | follow
  | force
  | invalidate (tb : Nat)
  | interrupt
  | latch (irqIndex : Int) (irqPriority : Nat)
  | devices (bus : σ)
  | reset

/-- `EXIT_TB_FORCE` and a reset lead back to the loop without a slot to patch. -/
def Event.apply (B : Bus σ) (s : Emulator σ) : Event σ → Option (Emulator σ)
  | .generate code tb => s.generate code tb
  | .execute tb chain => s.execute B tb chain
  | .follow => s.follow B
  | .force => some { s with control := .loop none }
  | .invalidate tb => some (s.invalidate tb)
  | .interrupt => s.interrupt B
  | .latch irqIndex irqPriority =>
    some { s with machine.cpu.irqIndex := irqIndex, machine.cpu.irqPriority := irqPriority }
  | .devices bus => some { s with machine := s.machine.setBus bus }
  | .reset => some { s with machine := ((cpuReset B).run s.machine).2, control := .loop none }

def Event.block (s : Emulator σ) : Event σ → Option Block
  | .execute tb _ => s.blocks tb
  | .follow => s.followed
  | _ => none

def start (B : Bus σ) (m : Machine σ) : Emulator σ :=
  { machine := ((cpuReset B).run m).2
    blocks := fun _ => none
    jmpTarget := fun _ => none
    tbInvalidated := false
    control := .loop none }

/-- No block is run that can be left through one slot with both values of `skip_en`. -/
def Event.Meets (s : Emulator σ) (event : Event σ) : Prop :=
  ∀ block, event.block s = some block → block.joinsSkips = false

/-- The runs whose steps all meet the condition, with the blocks that are run. -/
inductive Reaches (B : Bus σ) : List Block → Emulator σ → Prop where
  | start (m : Machine σ) : Reaches B [] (start B m)
  | step {trace : List Block} {s s' : Emulator σ} (event : Event σ) : Reaches B trace s →
      event.Meets s → event.apply B s = some s' → Reaches B (trace ++ (event.block s).toList) s'

def KeysAgree (s : Emulator σ) : Prop :=
  ∀ tb slot next, s.control = .left tb slot → s.jmpTarget (tb, slot) = some next →
    ∃ block, s.blocks next = some block ∧ block.key = s.key

/-- What is left of the emulator without chaining. -/
structure Store (σ : Type) where
  machine : Machine σ
  blocks : Nat → Option Block

def Emulator.store (s : Emulator σ) : Store σ := { machine := s.machine, blocks := s.blocks }

/-- Steps without chaining: a block is run only when it has been found by the key of the CPU. -/
inductive UnchainedStep (B : Bus σ) : Store σ → Option Block → Store σ → Prop where
  | generate {s : Store σ} {block : Block} (code : Nat → Nat) (tb : Nat) : s.blocks tb = none →
      genIntermediateCode code (cpuGetTbCpuState s.machine.cpu).pc
        (cpuGetTbCpuState s.machine.cpu).skip = some block →
      UnchainedStep B s none { s with blocks := update s.blocks tb (some block) }
  | execute {s : Store σ} {block : Block} (tb : Nat) : s.blocks tb = some block →
      block.key = cpuGetTbCpuState s.machine.cpu →
      UnchainedStep B s (some block) { s with machine := ((block.run B).run s.machine).2 }
  | stay (s : Store σ) : UnchainedStep B s none s
  | invalidate (s : Store σ) (tb : Nat) :
      UnchainedStep B s none { s with blocks := update s.blocks tb none }
  | interrupt (s : Store σ) :
      UnchainedStep B s none { s with machine := ((processInterrupt B).run s.machine).2 }
  | latch (s : Store σ) (irqIndex : Int) (irqPriority : Nat) : UnchainedStep B s none
        { s with machine.cpu.irqIndex := irqIndex, machine.cpu.irqPriority := irqPriority }
  | devices (s : Store σ) (bus : σ) :
      UnchainedStep B s none { s with machine := s.machine.setBus bus }
  | reset (s : Store σ) :
      UnchainedStep B s none { s with machine := ((cpuReset B).run s.machine).2 }

inductive ReachesUnchained (B : Bus σ) : List Block → Store σ → Prop where
  | start (m : Machine σ) : ReachesUnchained B [] (start B m).store
  | step {trace : List Block} {s s' : Store σ} {block : Option Block} :
      ReachesUnchained B trace s → UnchainedStep B s block s' →
      ReachesUnchained B (trace ++ block.toList) s'

def Control.slot : Control → Option (Nat × Nat)
  | .loop nextTb => nextTb
  | .left tb slot => some (tb, slot)

/-- Patched jumps lead to blocks with the key behind the slot. -/
structure Linked (s : Emulator σ) : Prop where
  range : InRange s.machine.cpu
  regular : ∀ tb block, s.blocks tb = some block → Regular block.insn
  jump : ∀ tb block slot next, s.blocks tb = some block → s.jmpTarget (tb, slot) = some next →
    ∃ found, s.blocks next = some found ∧ found.key = block.exitKey slot

structure Coherent (s : Emulator σ) : Prop extends linked : Linked s where
  keys : KeysAgree s
  exits : s.tbInvalidated = false → ∀ tb slot, s.control.slot = some (tb, slot) →
    ∃ block, s.blocks tb = some block ∧ block.exitKey slot = s.key

variable {s : Emulator σ}

theorem Coherent.start (m : Machine σ) : Coherent (start B m) where
  range :=
    { psw := ⟨Nat.zero_le 1, Nat.le_refl 3, Nat.zero_le 3, Nat.zero_le 1, Nat.zero_le 1,
        Nat.zero_le 1⟩
      regs_le := fun _ => Nat.zero_le 0xFF
      cs_le := Nat.zero_le 0xF
      skipEn_le := Nat.zero_le 1
      skipReq_le := Nat.zero_le 1 }
  regular _ _ found := nomatch found
  jump _ _ _ _ found := nomatch found
  keys _ _ _ control := nomatch control
  exits _ _ _ control := nomatch control

theorem Linked.leave {tb : Nat} {block : Block} {exit : Exit} {machine : Machine σ}
    (linked : Linked s) (found : s.blocks tb = some block)
    (single : block.joinsSkips = false) (left : Left block exit machine) :
    Coherent (s.leave tb exit machine) := by
  have at_slot {tb' slot : Nat} (control : (s.leave tb exit machine).control.slot = some (tb', slot)) :
      tb' = tb ∧ (s.leave tb exit machine).key = block.exitKey slot := by
    cases exit with
    | chain slot' =>
      have same : some (tb, slot') = some (tb', slot) := control
      simp only [some.injEq, Prod.mk.injEq] at same
      refine ⟨same.1.symm, left.key single slot ?_⟩
      rw [same.2]
    | fallThrough => exact absurd control (by simp [Emulator.leave, Control.slot])
    | noChain => exact absurd control (by simp [Emulator.leave, Control.slot])
  refine ⟨⟨left.range, linked.regular, linked.jump⟩, ?_, ?_⟩
  · intro tb' slot next control target
    obtain ⟨sameTb, key⟩ := at_slot (congrArg Control.slot control)
    rw [sameTb] at target
    rw [key]
    exact linked.jump tb block slot next found target
  · intro _ tb' slot control
    obtain ⟨sameTb, key⟩ := at_slot control
    rw [sameTb, key]
    exact ⟨block, found, rfl⟩

theorem Linked.runBlock {tb : Nat} {block : Block} (linked : Linked s)
    (found : s.blocks tb = some block) (key : block.key = s.key)
    (single : block.joinsSkips = false) : Coherent (s.runBlock B tb block) := by
  have flags (skip : block.skip = false) : s.machine.cpu.skipEn = 0 := by
    have same : block.skip = decide (s.machine.cpu.skipEn ≠ 0) := congrArg Key.skip key
    rw [skip] at same
    exact not_not.mp (of_decide_eq_false same.symm)
  exact linked.leave found single
    (Block.run_left (linked.regular tb block found) linked.range flags)

theorem Linked.tbAddJump {tb slot next : Nat} {block found : Block} (linked : Linked s)
    (isBlock : s.blocks tb = some block) (isFound : s.blocks next = some found)
    (key : found.key = block.exitKey slot) : Linked (s.tbAddJump (tb, slot) next) := by
  unfold Emulator.tbAddJump
  split
  next =>
    refine ⟨linked.range, linked.regular, ?_⟩
    intro tb' block' slot' next' isBlock' target
    dsimp only at target
    by_cases same : (tb', slot') = (tb, slot)
    · rw [same, update_self] at target
      cases target
      cases same
      rw [isBlock] at isBlock'
      cases isBlock'
      exact ⟨found, isFound, key⟩
    · rw [update_of_ne same] at target
      exact linked.jump tb' block' slot' next' isBlock' target
  next => exact linked

theorem Linked.clearFlag (linked : Linked s) : Linked { s with tbInvalidated := false } :=
  ⟨linked.range, linked.regular, linked.jump⟩

theorem patch_machine (chain : Bool) (tb : Nat) (nextTb : Option (Nat × Nat)) :
    (s.patch chain tb nextTb).machine = s.machine ∧ (s.patch chain tb nextTb).blocks = s.blocks := by
  unfold Emulator.patch Emulator.tbAddJump
  split
  · split
    · split <;> exact ⟨rfl, rfl⟩
    · exact ⟨rfl, rfl⟩
  · exact ⟨rfl, rfl⟩

theorem Coherent.patch {tb : Nat} {found : Block} {nextTb : Option (Nat × Nat)}
    (coherent : Coherent s) (control : s.control = .loop nextTb)
    (isFound : s.blocks tb = some found) (key : found.key = s.key) (chain : Bool) :
    Linked (s.patch chain tb nextTb) := by
  have clear := coherent.linked.clearFlag
  unfold Emulator.patch
  split
  next slot from_slot =>
    split
    next =>
      cases flag : s.tbInvalidated with
      | true =>
        rw [flag] at from_slot
        cases from_slot
      | false =>
        rw [flag] at from_slot
        obtain ⟨block, isBlock, exitKey⟩ := coherent.exits flag slot.1 slot.2 (by
          rw [control]
          exact from_slot)
        exact clear.tbAddJump isBlock isFound (key.trans exitKey.symm)
    next => exact clear
  next => exact clear

/-- A step keeps the invariant, and is a step without chaining. -/
def Sound (B : Bus σ) (s : Emulator σ) (block : Option Block) (s' : Emulator σ) : Prop :=
  Coherent s' ∧ UnchainedStep B s.store block s'.store

theorem Coherent.generate {s' : Emulator σ} {code : Nat → Nat} {tb : Nat} (coherent : Coherent s)
    (step : s.generate code tb = some s') : Sound B s none s' := by
  unfold Emulator.generate at step
  split at step
  next control unused found =>
    cases step
    have other {tb' : Nat} {block' : Block} (isBlock : s.blocks tb' = some block') : tb' ≠ tb := by
      intro same
      rw [same, unused] at isBlock
      cases isBlock
    refine ⟨⟨⟨coherent.range, ?_, ?_⟩, ?_, ?_⟩, .generate code tb unused found⟩
    · intro tb' block' isBlock
      dsimp only at isBlock
      by_cases same : tb' = tb
      · rw [same, update_self] at isBlock
        cases isBlock
        exact (genIntermediateCode_some found).regular
      · rw [update_of_ne same] at isBlock
        exact coherent.regular tb' block' isBlock
    · intro tb' block' slot next isBlock target
      dsimp only at isBlock target ⊢
      by_cases same : tb' = tb
      · rw [if_pos same] at target
        cases target
      · rw [if_neg same] at target
        rw [update_of_ne same] at isBlock
        obtain ⟨next', isNext, key⟩ := coherent.jump tb' block' slot next isBlock target
        refine ⟨next', ?_, key⟩
        rw [update_of_ne (other isNext)]
        exact isNext
    · intro tb' slot next control' _
      rw [control] at control'
      cases control'
    · intro flag tb' slot at_slot
      obtain ⟨block', isBlock, key⟩ := coherent.exits flag tb' slot at_slot
      refine ⟨block', ?_, key⟩
      dsimp only
      rw [update_of_ne (other isBlock)]
      exact isBlock
  next => cases step

theorem Coherent.execute {s' : Emulator σ} {tb : Nat} {chain : Bool} (coherent : Coherent s)
    (single : ∀ block, s.blocks tb = some block → block.joinsSkips = false)
    (step : s.execute B tb chain = some s') : Sound B s (s.blocks tb) s' := by
  unfold Emulator.execute at step
  split at step
  next nextTb block control found =>
    split at step
    next key =>
      cases step
      have linked := coherent.patch control found key chain
      obtain ⟨machine, blocks⟩ := @patch_machine σ s chain tb nextTb
      have isBlock : (s.patch chain tb nextTb).blocks tb = some block := by
        rw [blocks]
        exact found
      have sameKey : block.key = (s.patch chain tb nextTb).key := by
        unfold Emulator.key
        rw [machine]
        exact key
      refine ⟨linked.runBlock isBlock sameKey (single block found), ?_⟩
      have run : ((s.patch chain tb nextTb).runBlock B tb block).store =
          { s.store with machine := ((block.run B).run s.store.machine).2 } := by
        unfold Emulator.runBlock Emulator.leave Emulator.store
        rw [machine, blocks]
      rw [run, found]
      exact .execute tb found key
    next => cases step
  next => cases step

theorem Coherent.follow {s' : Emulator σ} (coherent : Coherent s)
    (single : ∀ block, s.followed = some block → block.joinsSkips = false)
    (step : s.follow B = some s') : Sound B s s.followed s' := by
  unfold Emulator.follow at step
  cases control : s.control with
  | loop nextTb =>
    rw [control] at step
    cases step
  | left tb slot =>
    have followed : s.followed = (s.jmpTarget (tb, slot)).bind s.blocks := by
      unfold Emulator.followed
      rw [control]
    rw [followed] at single ⊢
    rw [control] at step
    dsimp only at step
    cases target : s.jmpTarget (tb, slot) with
    | some next =>
      rw [target] at step single
      rw [map_eq_some_iff] at step
      obtain ⟨block, found, result⟩ := step
      cases result
      obtain ⟨block', isNext, key⟩ := coherent.keys tb slot next control target
      rw [found] at isNext
      cases isNext
      rw [bind_some] at single ⊢
      rw [found]
      exact ⟨coherent.linked.runBlock found key (single block found), .execute next found key⟩
    | none =>
      rw [target] at step
      cases step
      refine ⟨⟨⟨coherent.range, coherent.regular, coherent.jump⟩,
        (fun _ _ _ control' => nomatch control'), ?_⟩, .stay _⟩
      intro flag tb' slot' at_slot
      refine coherent.exits flag tb' slot' ?_
      rw [control]
      exact at_slot

theorem Coherent.invalidate (coherent : Coherent s) (tb : Nat) :
    Sound B s none (s.invalidate tb) := by
  have kept {slot : Nat × Nat} {next : Nat}
      (target : (if s.jmpTarget slot = some tb then none else s.jmpTarget slot) = some next) :
      s.jmpTarget slot = some next ∧ next ≠ tb := by
    split at target
    next => cases target
    next notTb =>
      refine ⟨target, fun same => notTb ?_⟩
      rw [target, same]
  refine ⟨⟨⟨coherent.range, ?_, ?_⟩, ?_, fun flag => by cases flag⟩, .invalidate _ tb⟩
  · intro tb' block isBlock
    unfold Emulator.invalidate at isBlock
    dsimp only at isBlock
    by_cases same : tb' = tb
    · rw [same, update_self] at isBlock
      cases isBlock
    · rw [update_of_ne same] at isBlock
      exact coherent.regular tb' block isBlock
  · intro tb' block slot next isBlock target
    unfold Emulator.invalidate at isBlock target ⊢
    dsimp only at isBlock target ⊢
    obtain ⟨target', notTb⟩ := kept target
    by_cases same : tb' = tb
    · rw [same, update_self] at isBlock
      cases isBlock
    · rw [update_of_ne same] at isBlock
      rw [update_of_ne notTb]
      exact coherent.jump tb' block slot next isBlock target'
  · intro tb' slot next control target
    unfold Emulator.invalidate at target ⊢
    dsimp only at target ⊢
    obtain ⟨target', notTb⟩ := kept target
    rw [update_of_ne notTb]
    exact coherent.keys tb' slot next control target'

theorem Coherent.setMachine {machine : Machine σ} (coherent : Coherent s)
    (range : InRange machine.cpu) (key : cpuGetTbCpuState machine.cpu = s.key) :
    Coherent { s with machine := machine } := by
  refine ⟨⟨range, coherent.regular, coherent.jump⟩, ?_, ?_⟩
  · intro tb slot next control target
    obtain ⟨block, found, same⟩ := coherent.keys tb slot next control target
    exact ⟨block, found, same.trans key.symm⟩
  · intro flag tb slot at_slot
    obtain ⟨block, found, same⟩ := coherent.exits flag tb slot at_slot
    exact ⟨block, found, same.trans key.symm⟩

theorem Coherent.restart {machine : Machine σ} (coherent : Coherent s)
    (range : InRange machine.cpu) :
    Coherent { s with machine := machine, control := .loop none } :=
  ⟨⟨range, coherent.regular, coherent.jump⟩, (fun _ _ _ control => nomatch control),
    (fun _ _ _ at_slot => nomatch at_slot)⟩

theorem cpuReset_inRange (m : Machine σ) : InRange ((cpuReset B).run m).2.cpu :=
  (Coherent.start (B := B) m).range

def Accepting (m : Machine σ) : Prop := InRange m.cpu ∧ m.cpu.irqPriority ≤ 3

theorem Accepting.setSp {m : Machine σ} (accepting : Accepting m) (sp : Nat) :
    Accepting (m.setSp sp) := ⟨{ accepting.1 with }, accepting.2⟩

theorem stbPhys_accepting (paddr data : Nat) : Keeps Accepting (stbPhys B paddr data) :=
  Keeps.modify fun _ holds => holds

theorem doInterrupt_inRange (exceptionIndex : Nat) :
    Triple Accepting (doInterrupt B exceptionIndex) fun _ m => InRange m.cpu := by
  refine Triple.bind Keeps.get fun read => ?_
  refine Triple.bind (Q := fun _ => Accepting) ?_ fun _ => ?_
  · exact fun m holds => holds.setSp _
  refine Triple.bind (stbPhys_accepting _ _) fun _ m holds => ?_
  exact
    { psw := { holds.1.psw with isp_le := holds.2, ie_le := Nat.zero_le 1 }
      regs_le := holds.1.regs_le
      cs_le := holds.1.cs_le
      skipEn_le := holds.1.skipEn_le
      skipReq_le := holds.1.skipReq_le }

theorem Coherent.interrupt {s' : Emulator σ} (coherent : Coherent s)
    (step : s.interrupt B = some s') : Sound B s none s' := by
  unfold Emulator.interrupt at step
  cases control : s.control with
  | left tb slot =>
    rw [control] at step
    cases step
  | loop nextTb =>
    rw [control] at step
    cases step
    refine ⟨?_, .interrupt s.store⟩
    cases accepts : acceptsInterrupt s.machine.cpu with
    | true =>
      have priority : s.machine.cpu.irqPriority ≤ 3 := by
        have isp := coherent.range.psw.isp_le
        unfold acceptsInterrupt at accepts
        simp only [Bool.and_eq_true, decide_eq_true_eq] at accepts
        omega
      have run : (processInterrupt B).run s.machine =
          (doInterrupt B s.machine.cpu.irqIndex.toNat).run s.machine := by
        show ((if acceptsInterrupt s.machine.cpu then _ else _ : Exec σ Unit).run s.machine) = _
        rw [if_pos accepts]
      rw [run]
      exact coherent.restart (doInterrupt_inRange _ _ ⟨coherent.range, priority⟩)
    | false =>
      have run : ((processInterrupt B).run s.machine).2 = s.machine := by
        show ((if acceptsInterrupt s.machine.cpu then _ else _ : Exec σ Unit).run s.machine).2 = _
        rw [if_neg (by rw [accepts]; simp)]
        rfl
      rw [run]
      have unchanged : { s with control := .loop nextTb } = s := by
        rw [← control]
      exact unchanged ▸ coherent

theorem Coherent.apply {s' : Emulator σ} {event : Event σ} (coherent : Coherent s)
    (meets : event.Meets s) (step : event.apply B s = some s') :
    Sound B s (event.block s) s' := by
  cases event with
  | generate code tb => exact coherent.generate step
  | execute tb chain => exact coherent.execute meets step
  | follow => exact coherent.follow meets step
  | force =>
    cases step
    exact ⟨coherent.restart coherent.range, .stay _⟩
  | invalidate tb =>
    cases step
    exact coherent.invalidate tb
  | interrupt => exact coherent.interrupt step
  | latch irqIndex irqPriority =>
    cases step
    exact ⟨coherent.setMachine { coherent.range with } rfl, .latch _ irqIndex irqPriority⟩
  | devices bus =>
    cases step
    exact ⟨coherent.setMachine coherent.range rfl, .devices _ bus⟩
  | reset =>
    cases step
    exact ⟨coherent.restart (cpuReset_inRange s.machine), .reset _⟩

theorem Reaches.coherent {trace : List Block} (reaches : Reaches B trace s) : Coherent s := by
  induction reaches with
  | start m => exact .start m
  | step event _ meets step coherent => exact (coherent.apply meets step).1

theorem Reaches.unchained {trace : List Block} (reaches : Reaches B trace s) :
    ReachesUnchained B trace s.store := by
  induction reaches with
  | start m => exact .start m
  | step event reached meets step unchained =>
    exact .step unchained (reached.coherent.apply meets step).2

/-- In every run whose steps all meet the condition, patched jumps lead to blocks with the key of
the CPU in every state; the blocks that are run, and the states of the machine, are those of a
run without chaining. -/
theorem chained_of_reaches {trace : List Block} (reaches : Reaches B trace s) :
    KeysAgree s ∧ ReachesUnchained B trace s.store :=
  ⟨reaches.coherent.keys, reaches.unchained⟩

def runs (B : Bus σ) (s : Emulator σ) : List (Event σ) → Option (Emulator σ)
  | [] => some s
  | event :: rest => (event.apply B s).bind fun s' => runs B s' rest

def runsMeet (B : Bus σ) (s : Emulator σ) : List (Event σ) → Bool
  | [] => true
  | event :: rest =>
    (event.block s).all (fun block => !block.joinsSkips) &&
      (event.apply B s).all fun s' => runsMeet B s' rest

theorem reaches_of_runs {events : List (Event σ)} {trace : List Block} {s' : Emulator σ}
    (reaches : Reaches B trace s) (run : runs B s events = some s')
    (meet : runsMeet B s events = true) : ∃ trace', Reaches B trace' s' := by
  induction events generalizing s trace with
  | nil =>
    cases run
    exact ⟨trace, reaches⟩
  | cons event rest ih =>
    unfold runs at run
    unfold runsMeet at meet
    rw [bind_eq_some_iff] at run
    obtain ⟨next, step, run⟩ := run
    rw [step, all_some, Bool.and_eq_true] at meet
    refine ih (.step event reaches (fun block found => ?_) step) run meet.2
    have single := meet.1
    rw [found, all_some] at single
    simpa using single

/-- `SKC`; `SKZ`; `NOT1 CY`; `BR $0`. -/
def skipCode (address : Nat) : Nat :=
  [0x61, 0xC8, 0x61, 0xE8, 0x71, 0xC0, 0xEF, 0xF8].getD address 0

def loopEvents : List (Event Unit) :=
  [.generate skipCode 0, .execute 0 true, .follow, .generate skipCode 1, .execute 1 true,
    .follow, .generate skipCode 2, .execute 2 true, .follow, .generate skipCode 3,
    .execute 3 true, .follow, .execute 0 true, .follow]

theorem skip_skipped :
    ∃ s, runs zeroBus (start zeroBus anyMachine) loopEvents = some s ∧ s.control = .left 1 0 ∧
      s.jmpTarget (1, 0) = some 2 ∧ (s.blocks 2).map Block.key = some { pc := 4, skip := true } ∧
      s.key = { pc := 4, skip := false } := by
  have probe : (runs zeroBus (start zeroBus anyMachine) loopEvents).map (fun s =>
      (s.control, s.jmpTarget (1, 0), (s.blocks 2).map Block.key, s.key)) =
        some (.left 1 0, some 2, some { pc := 4, skip := true }, { pc := 4, skip := false }) := by
    decide +kernel
  obtain ⟨s, run, result⟩ := map_eq_some_iff.mp probe
  simp only [Prod.mk.injEq] at result
  exact ⟨s, run, result⟩

/-- A loop of skips and branches comes to a block whose key is not that of the state. -/
theorem keys_disagree :
    ∃ s, runs zeroBus (start zeroBus anyMachine) loopEvents = some s ∧ ¬KeysAgree s := by
  obtain ⟨s, run, control, target, key, now⟩ := skip_skipped
  refine ⟨s, run, fun agree => ?_⟩
  obtain ⟨block, found, same⟩ := agree 1 0 2 control target
  rw [found, map_some, same, now] at key
  cases key

/-- `NOP`; `BR $0`. -/
def nopCode (address : Nat) : Nat := [0x00, 0xEF, 0xFD].getD address 0

def nopEvents : List (Event Unit) :=
  [.generate nopCode 0, .execute 0 true, .follow, .generate nopCode 1, .execute 1 true, .follow,
    .execute 0 true, .follow]

theorem nop_reaches : ∃ trace s, Reaches zeroBus trace s ∧ s.control = .left 1 1 ∧
    s.jmpTarget (1, 1) = some 0 := by
  have probe : (runs zeroBus (start zeroBus anyMachine) nopEvents).map (fun s =>
      (s.control, s.jmpTarget (1, 1))) = some (.left 1 1, some 0) := by
    decide +kernel
  have meet : runsMeet zeroBus (start zeroBus anyMachine) nopEvents = true := by decide +kernel
  obtain ⟨s, run, result⟩ := map_eq_some_iff.mp probe
  obtain ⟨trace, reaches⟩ := reaches_of_runs (.start anyMachine) run meet
  simp only [Prod.mk.injEq] at result
  exact ⟨trace, s, reaches, result⟩

/-- The second round of the loop runs through patched jumps. -/
theorem chained_of_reaches_nop : ∃ trace, ∃ s : Emulator Unit, s.control = .left 1 1 ∧
    s.jmpTarget (1, 1) = some 0 ∧ KeysAgree s ∧ ReachesUnchained zeroBus trace s.store := by
  obtain ⟨trace, s, reaches, control, target⟩ := nop_reaches
  obtain ⟨keys, unchained⟩ := chained_of_reaches reaches
  exact ⟨trace, s, control, target, keys, unchained⟩

end Tlib.Rl78.Chaining
