import Tlib.Rl78.Blocks

/-!
Contract: the state in which a block is left through a slot.

Owns: the address behind each slot, the key at an exit, and the exits that agree with the key the
next block is found by.
-/

namespace Tlib.Rl78

open Tlib.Library.Words Tlib.Library.StateTriples

variable {σ : Type} {B : Bus σ} {ctx : Context} {insn : Instruction} {m : Machine σ}

def jumpTarget (ctx : Context) (insn : Instruction) : Nat :=
  match insn.mnemonic with
  | .bt | .bf => branchTarget ctx insn.operand1
  | .call | .br =>
    match insn.operand0 with
    | .abs16 constOp => constOp &&& 0xFFFF
    | .abs20 constOp => constOp &&& 0xFFFFF
    | .rel8 rel => add32 ctx.pc (signed8 rel)
    | .rel16 rel => add32 ctx.pc (signed16 rel)
    | _ => ctx.pc
  | _ => branchTarget ctx insn.operand0

def slotDest (ctx : Context) (insn : Instruction) (slot : Nat) : Nat :=
  if slot = 0 then ctx.pc else jumpTarget ctx insn

def Exits (ctx : Context) (insn : Instruction) (exit : Exit) (m : Machine σ) : Prop :=
  ∀ slot, exit = .chain slot → m.cpu.pc = slotDest ctx insn slot ∧ useGotoTb ctx m.cpu.pc = true

/-- Nothing is asked of the state before. -/
def Anywhere (_ : Machine σ) : Prop := True

theorem genGotoTb_exits {slot dest : Nat} (is : slotDest ctx insn slot = dest) :
    Triple Anywhere (genGotoTb (σ := σ) ctx slot dest) (Exits ctx insn) := by
  intro m _ slot' chained
  have exit : (if useGotoTb ctx dest then Exit.chain slot else .noChain) = .chain slot' := chained
  split at exit
  next near =>
    cases exit
    exact ⟨is.symm, near⟩
  next => cases exit

theorem noChain_exits {f : Exec σ Exit} (never : ∀ m slot, (f.run m).1 ≠ .chain slot) :
    Triple Anywhere f (Exits ctx insn) := fun m _ slot chained => absurd chained (never m slot)

theorem exits_after {α : Type} {f : Exec σ α} {g : α → Exec σ Exit}
    (rest : ∀ a, Triple Anywhere (g a) (Exits ctx insn)) :
    Triple Anywhere (f >>= g) (Exits ctx insn) :=
  Triple.bind (Q := fun _ => Anywhere) (fun _ _ => trivial) rest

theorem genExitTb_exits (dest : Nat) : Triple Anywhere (genExitTb (σ := σ) dest) (Exits ctx insn) :=
  noChain_exits fun _ _ => nofun

theorem fallThrough_exits : Triple Anywhere (pure .fallThrough : Exec σ Exit) (Exits ctx insn) :=
  noChain_exits fun _ _ => nofun

theorem rl78GenBranch_exits {op : Operand} (taken : Bool)
    (is : jumpTarget ctx insn = branchTarget ctx op) :
    Triple Anywhere (rl78GenBranch (σ := σ) ctx op taken) (Exits ctx insn) := by
  cases taken with
  | true => exact genGotoTb_exits is
  | false => exact fallThrough_exits

theorem transCall_exits (is : insn.mnemonic = .call) :
    Triple Anywhere (transCall B ctx insn) (Exits ctx insn) := by
  have dest : slotDest ctx insn 1 = jumpTarget ctx insn := rfl
  unfold jumpTarget at dest
  rw [is] at dest
  unfold transCall
  split
  next => exact exits_after fun _ => exits_after fun _ => genExitTb_exits _
  iterate 3 next op =>
    rw [op] at dest
    exact exits_after fun _ => genGotoTb_exits dest
  next => exact fallThrough_exits

theorem transBr_exits (is : insn.mnemonic = .br) :
    Triple Anywhere (transBr (σ := σ) ctx insn) (Exits ctx insn) := by
  have dest : slotDest ctx insn 1 = jumpTarget ctx insn := rfl
  unfold jumpTarget at dest
  rw [is] at dest
  unfold transBr
  split
  next => exact exits_after fun _ => genExitTb_exits _
  iterate 4 next op =>
    rw [op] at dest
    exact genGotoTb_exits dest
  next => exact fallThrough_exits

theorem branchOn_exits (condition : Psw → Bool)
    (is : jumpTarget ctx insn = branchTarget ctx insn.operand0) :
    Triple Anywhere (branchOn (σ := σ) ctx insn condition) (Exits ctx insn) :=
  exits_after fun _ => rl78GenBranch_exits _ is

theorem rl78GenRet_exits (restorePsw : Bool) :
    Triple Anywhere (rl78GenRet B ctx restorePsw) (Exits ctx insn) := by
  cases restorePsw <;> exact noChain_exits fun _ _ => nofun

theorem translate_exits : Triple Anywhere (translate B ctx insn) (Exits ctx insn) := by
  unfold translate
  split
  next is => exact transCall_exits is
  next =>
    unfold transCallt
    split
    next => exact exits_after fun _ => exits_after fun _ => genExitTb_exits _
    next => exact fallThrough_exits
  next => exact noChain_exits fun _ _ => nofun
  next => exact rl78GenRet_exits false
  iterate 2 next => exact rl78GenRet_exits true
  next is => exact transBr_exits is
  iterate 6 next is => exact branchOn_exits _ (by simp only [jumpTarget, is])
  iterate 2 next is =>
    exact exits_after fun _ => rl78GenBranch_exits _ (by simp only [jumpTarget, is])
  next =>
    unfold transBtclr
    split
    next => exact exits_after fun _ => genExitTb_exits _
    next => exact fallThrough_exits
  next => exact exits_after fun _ => fallThrough_exits

/-- The registers are in range, and `skip_en` has a value. -/
def SkipIs (value : Nat) (m : Machine σ) : Prop := InRange m.cpu ∧ m.cpu.skipEn = value

theorem skipIs_free (value : Nat) : Free (σ := σ) (SkipIs value) :=
  free_of_latched fun skipEn _ _ => skipEn = value

theorem setSkip_skipIs {en req : Nat} (range : InRange m.cpu) (enLe : en ≤ 1) (reqLe : req ≤ 1) :
    SkipIs en (m.setSkip en req) :=
  ⟨{ range with skipEn_le := enLe, skipReq_le := reqLe }, rfl⟩

theorem translate_skips (skips : insn.mnemonic.skips = true) : ∃ condition,
    translate B ctx insn = do
      rl78GenSkip condition
      return .fallThrough := by
  unfold Mnemonic.skips at skips
  unfold translate
  split at skips
  next is => rw [is]; exact ⟨fun psw => psw.cy = 1, rfl⟩
  next is => rw [is]; exact ⟨fun psw => psw.cy ≠ 1, rfl⟩
  next is => rw [is]; exact ⟨fun psw => psw.z = 1, rfl⟩
  next is => rw [is]; exact ⟨fun psw => psw.z ≠ 1, rfl⟩
  next is => rw [is]; exact ⟨fun psw => psw.z ||| psw.cy ≠ 1, rfl⟩
  next is => rw [is]; exact ⟨fun psw => psw.z ||| psw.cy = 1, rfl⟩
  next => cases skips

/-- `skip_en` after an instruction that found it cleared. -/
def skipEnAfter (insn : Instruction) : Nat := if insn.mnemonic.skips then 1 else 0

theorem translate_skipIs (regular : Regular insn) :
    Triple (SkipIs 0) (translate B ctx insn) fun _ => SkipIs (skipEnAfter insn) := by
  unfold skipEnAfter
  cases skips : insn.mnemonic.skips with
  | false => exact translate_keeps_free (skipIs_free 0) regular skips
  | true =>
    intro m holds
    obtain ⟨condition, is⟩ := @translate_skips _ B ctx _ skips
    rw [is, if_pos rfl]
    refine setSkip_skipIs holds.1 (Nat.le_refl 1) ?_
    split <;> omega

/-- What `cpu_get_tb_cpu_state` returns; `cs_base` is always 0. -/
structure Key where
  pc : Nat
  skip : Bool
deriving DecidableEq, Repr

def cpuGetTbCpuState (cpu : Cpu) : Key := { pc := cpu.pc, skip := cpu.skipEn ≠ 0 }

def Block.key (block : Block) : Key := { pc := block.ctx.tbPc, skip := block.skip }

def Block.exitKey (block : Block) (slot : Nat) : Key :=
  { pc := slotDest block.ctx block.insn slot, skip := block.insn.mnemonic.skips }

def Block.joinsSkips (block : Block) : Bool :=
  block.skip && block.insn.mnemonic.skips && useGotoTb block.ctx block.ctx.pc

def LeftWith (ctx : Context) (insn : Instruction) (exit : Exit) (m : Machine σ) : Prop :=
  SkipIs (skipEnAfter insn) m ∧ Exits ctx insn exit m

theorem key_of_leftWith {block : Block} {exit : Exit} {slot : Nat}
    (leftWith : LeftWith block.ctx block.insn exit m) (chained : exit = .chain slot) :
    cpuGetTbCpuState m.cpu = block.exitKey slot := by
  unfold cpuGetTbCpuState Block.exitKey
  rw [leftWith.1.2, (leftWith.2 slot chained).1]
  unfold skipEnAfter
  cases block.insn.mnemonic.skips <;> rfl

theorem translate_leftWith (regular : Regular insn) :
    Triple (SkipIs 0) (translate B ctx insn) (LeftWith ctx insn) :=
  fun m holds => ⟨translate_skipIs regular m holds, translate_exits m trivial⟩

theorem next_leftWith :
    Triple (SkipIs (skipEnAfter insn)) (genGotoTb (σ := σ) ctx 0 ctx.pc) (LeftWith ctx insn) :=
  fun m holds => ⟨genGotoTb_keeps (skipIs_free _) 0 ctx.pc m holds, genGotoTb_exits rfl m trivial⟩

theorem end_leftWith :
    Triple (SkipIs (skipEnAfter insn)) (genExitTb (σ := σ) ctx.pc) (LeftWith ctx insn) :=
  fun m holds => ⟨genExitTb_keeps (skipIs_free _) ctx.pc m holds, genExitTb_exits _ m trivial⟩

theorem genEpilogue_leftWith (regular : Regular insn) :
    Triple (SkipIs 0) (genEpilogue B ctx insn) (LeftWith ctx insn) := by
  unfold genEpilogue
  refine Triple.bind (translate_leftWith regular) fun exit => ?_
  cases exit with
  | fallThrough =>
    refine Triple.bind (Q := fun _ => SkipIs (skipEnAfter insn)) (fun _ left => left.1) fun m' => ?_
    exact Triple.ite (fun _ => end_leftWith) fun _ => next_leftWith
  | chain slot => exact fun _ left => left
  | noChain => exact fun _ left => left

theorem notSkipped_leftWith (regular : Regular insn) : Triple (SkipIs 0) (do
      let exit ← translate B ctx insn
      match exit with
      | .fallThrough => genGotoTb ctx 0 ctx.pc
      | exit => return exit) (LeftWith ctx insn) := by
  refine Triple.bind (translate_leftWith regular) fun exit => ?_
  cases exit with
  | fallThrough => exact fun m' left => next_leftWith m' left.1
  | chain slot => exact fun _ left => left
  | noChain => exact fun _ left => left

structure Left (block : Block) (exit : Exit) (m : Machine σ) : Prop where
  range : InRange m.cpu
  key : block.joinsSkips = false → ∀ slot, exit = .chain slot →
    cpuGetTbCpuState m.cpu = block.exitKey slot

theorem LeftWith.left {block : Block} {exit : Exit}
    (leftWith : LeftWith block.ctx block.insn exit m) : Left block exit m where
  range := leftWith.1.1
  key _ _ chained := key_of_leftWith leftWith chained

theorem skipped_left {block : Block} (skip : block.skip = true) :
    Triple (SkipIs 0) (genGotoTb (σ := σ) block.ctx 0 block.ctx.pc) (Left block) := by
  intro m holds
  have after := @genGotoTb_keeps _ block.ctx _ (skipIs_free 0) 0 block.ctx.pc m holds
  have exits := @genGotoTb_exits σ block.ctx block.insn 0 block.ctx.pc rfl m trivial
  refine ⟨after.1, fun single slot chained => ?_⟩
  obtain ⟨pc, near⟩ := exits slot chained
  have noSkip : block.insn.mnemonic.skips = false := by
    unfold Block.joinsSkips at single
    rw [skip, show useGotoTb block.ctx block.ctx.pc = true from near] at single
    simpa using single
  unfold cpuGetTbCpuState Block.exitKey
  rw [noSkip, pc, after.2]
  rfl

theorem genSkippable_left {block : Block} (skip : block.skip = true)
    (regular : Regular block.insn) (range : InRange m.cpu) :
    Left block ((genSkippable B block.ctx block.insn).run m).1
      ((genSkippable B block.ctx block.insn).run m).2 := by
  have cleared : SkipIs 0 (m.setSkip 0 0) := setSkip_skipIs range (Nat.zero_le 1) (Nat.zero_le 1)
  have rest (required : Nat) : Triple (SkipIs 0) (do
      if required ≠ 0 then genGotoTb block.ctx 0 block.ctx.pc
      else
        let exit ← translate B block.ctx block.insn
        match exit with
        | .fallThrough => genGotoTb block.ctx 0 block.ctx.pc
        | exit => return exit) (Left block) := by
    refine Triple.ite (fun _ => skipped_left skip) fun _ => ?_
    exact (notSkipped_leftWith regular).weaken (fun _ => id) fun _ _ => LeftWith.left
  exact rest m.cpu.skipReq _ cleared

theorem Block.run_left {block : Block} (regular : Regular block.insn) (range : InRange m.cpu)
    (flags : block.skip = false → m.cpu.skipEn = 0) :
    Left block ((block.run B).run m).1 ((block.run B).run m).2 := by
  have start : InRange (m.setUpdate false).cpu := range
  unfold Block.run
  cases skip : block.skip with
  | true => exact genSkippable_left skip regular start
  | false => exact (genEpilogue_leftWith regular (m.setUpdate false) ⟨start, flags skip⟩).left

end Tlib.Rl78
