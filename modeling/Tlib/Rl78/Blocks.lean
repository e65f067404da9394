import Tlib.Rl78.InstructionRanges

/-!
Contract: translation blocks of the RL78.

Owns: a block, which is one instruction, in its two variants, and the code that decides at run time
whether it is skipped.
-/

namespace Tlib.Rl78

open Tlib.Library.Words Tlib.Library.StateTriples

variable {σ : Type} {B : Bus σ} {ctx : Context} {insn : Instruction} {P : Machine σ → Prop}

/-- A block with `TB_FLAG_SKIP` or without. -/
structure Block where
  ctx : Context
  skip : Bool
  insn : Instruction
deriving DecidableEq, Repr

/-- `HALT` and `STOP` are not implemented. -/
def Mnemonic.aborts : Mnemonic → Bool
  | .halt | .stop => true
  | _ => false

/-- `gen_intermediate_code`, where it does not abort. -/
def genIntermediateCode (code : Nat → Nat) (pc : Nat) (skip : Bool) : Option Block :=
  match decode code (.start pc) with
  | (_, none) => none
  | (ctx, some insn) =>
    if insn.mnemonic.aborts then none
    else some { ctx := { useEs := ctx.useEs, pc := ctx.pc, tbPc := pc }, skip := skip, insn := insn }

/-- The end of the code of an instruction; a program status word ends the chaining. -/
def genEpilogue (B : Bus σ) (ctx : Context) (insn : Instruction) : Exec σ Exit := do
  let exit ← translate B ctx insn
  match exit with
  | .fallThrough =>
    let m ← get
    if m.update then genExitTb ctx.pc else genGotoTb ctx 0 ctx.pc
  | exit => return exit

def genSkippable (B : Bus σ) (ctx : Context) (insn : Instruction) : Exec σ Exit := do
  let m ← get
  modify fun m => m.setSkip 0 0
  if m.cpu.skipReq ≠ 0 then genGotoTb ctx 0 ctx.pc
  else
    let exit ← translate B ctx insn
    match exit with
    | .fallThrough => genGotoTb ctx 0 ctx.pc
    | exit => return exit

def Block.run (B : Bus σ) (block : Block) : Exec σ Exit := do
  modify fun m => m.setUpdate false
  if block.skip then genSkippable B block.ctx block.insn
  else genEpilogue B block.ctx block.insn

structure Generated (code : Nat → Nat) (pc : Nat) (skip : Bool) (block : Block) : Prop where
  tbPc : block.ctx.tbPc = pc
  skip_eq : block.skip = skip
  runs : block.insn.mnemonic.aborts = false
  decoded : ∃ ctx, Decoded code pc ctx block.insn ∧ ctx.useEs = block.ctx.useEs ∧
    ctx.pc = block.ctx.pc

theorem genIntermediateCode_some {code : Nat → Nat} {pc : Nat} {skip : Bool} {block : Block}
    (found : genIntermediateCode code pc skip = some block) : Generated code pc skip block := by
  unfold genIntermediateCode at found
  by_cases known : (opcodeEntry code pc).mnemonic ≠ .unknown
  · obtain ⟨ctx, insn, result, decoded⟩ := decode_known known
    rw [result] at found
    dsimp only at found
    by_cases aborts : insn.mnemonic.aborts = true
    · rw [if_pos aborts] at found
      cases found
    · rw [if_neg aborts] at found
      cases found
      exact ⟨rfl, rfl, by simpa using aborts, ctx, decoded, rfl, rfl⟩
  · obtain ⟨ctx, result, _, _⟩ := decode_unknown (not_not.mp known)
    rw [result] at found
    cases found

theorem Generated.regular {code : Nat → Nat} {pc : Nat} {skip : Bool} {block : Block}
    (generated : Generated code pc skip block) : Regular block.insn := by
  obtain ⟨ctx, decoded, _, _⟩ := generated.decoded
  exact decoded.regular

/-- Every write of a register keeps the property, except for those of the skip flags. -/
structure Free (P : Machine σ → Prop) : Prop extends stable : Stable P where
  anySp : ∀ m value, P m → P (m.setSp value)
  anyEs : ∀ m value, P m → P (m.setEs value)
  pc : ∀ m value, P m → P (m.setPc value)

theorem free_of_latched (latched : Nat → Int → Nat → Prop) : Free (σ := σ) fun m =>
    InRange m.cpu ∧ latched m.cpu.skipEn m.cpu.irqIndex m.cpu.irqPriority where
  inRange _ holds := holds.1
  reg _ place _ holds small := ⟨holds.1.setReg place small, holds.2⟩
  cy _ _ holds small := ⟨{ holds.1 with psw := { holds.1.psw with cy_le := small } }, holds.2⟩
  isp _ _ holds small := ⟨{ holds.1 with psw := { holds.1.psw with isp_le := small } }, holds.2⟩
  rbs _ _ holds small := ⟨{ holds.1 with psw := { holds.1.psw with rbs_le := small } }, holds.2⟩
  ac _ _ holds small := ⟨{ holds.1 with psw := { holds.1.psw with ac_le := small } }, holds.2⟩
  z _ _ holds small := ⟨{ holds.1 with psw := { holds.1.psw with z_le := small } }, holds.2⟩
  ie _ _ holds small := ⟨{ holds.1 with psw := { holds.1.psw with ie_le := small } }, holds.2⟩
  bus _ _ holds := holds
  update _ _ holds := holds
  sp _ _ holds _ _ := ⟨{ holds.1 with }, holds.2⟩
  es _ _ holds _ := ⟨{ holds.1 with }, holds.2⟩
  cs _ _ holds small := ⟨{ holds.1 with cs_le := small }, holds.2⟩
  anySp _ _ holds := ⟨{ holds.1 with }, holds.2⟩
  anyEs _ _ holds := ⟨{ holds.1 with }, holds.2⟩
  pc _ _ holds := ⟨{ holds.1 with }, holds.2⟩

theorem stackAddr_keeps : Keeps P (stackAddr ctx) := fun _ holds => holds

theorem segmentTarget_keeps (reg : WordRegister) : Keeps P (segmentTarget reg) :=
  fun _ holds => holds

theorem pushData_keeps : Keeps P (pushData insn) := by
  unfold pushData
  split
  all_goals exact fun _ holds => holds

section

variable (free : Free P)

include free

theorem genGotoTb_keeps (slot dest : Nat) : Keeps P (genGotoTb ctx slot dest) :=
  Keeps.bind (Keeps.modify fun m holds => free.pc m _ holds) fun _ => Keeps.pure _

theorem genExitTb_keeps (dest : Nat) : Keeps P (genExitTb dest) :=
  Keeps.bind (Keeps.modify fun m holds => free.pc m _ holds) fun _ => Keeps.pure _

theorem pushByte_keeps (data : Nat) : Keeps P (pushByte B ctx data) :=
  Keeps.bind (stackAddr_keeps) fun _ => rl78GenStore_keeps free.stable _ _ _

theorem popByte_keeps : Keeps P (popByte B ctx) :=
  Keeps.bind (stackAddr_keeps) fun _ => rl78GenLoad_keeps free.stable _ _

theorem decSp_keeps : Keeps P decSp := Keeps.modify fun m holds => free.anySp m _ holds

theorem incSp_keeps : Keeps P incSp := Keeps.modify fun m holds => free.anySp m _ holds

theorem rl78GenPrepareCall_keeps (savePsw : Bool) : Keeps P (rl78GenPrepareCall B ctx savePsw) := by
  unfold rl78GenPrepareCall
  have rest : Keeps P (do
      decSp
      pushByte B ctx ((ctx.pc >>> 16) &&& 0x0F)
      decSp
      pushByte B ctx ((ctx.pc >>> 8) &&& 0xFF)
      decSp
      pushByte B ctx (ctx.pc &&& 0xFF)) := by
    refine Keeps.bind (decSp_keeps free) fun _ => Keeps.bind (pushByte_keeps free _) fun _ => ?_
    refine Keeps.bind (decSp_keeps free) fun _ => Keeps.bind (pushByte_keeps free _) fun _ => ?_
    exact Keeps.bind (decSp_keeps free) fun _ => pushByte_keeps free _
  refine Keeps.bind (decSp_keeps free) fun _ => ?_
  cases savePsw with
  | false => exact rest
  | true =>
    refine Keeps.bind (fun _ holds => holds : Keeps P loadPsw) fun psw => ?_
    exact Keeps.bind (pushByte_keeps free _) fun _ => rest

theorem rl78GenRet_keeps (restorePsw : Bool) : Keeps P (rl78GenRet B ctx restorePsw) := by
  refine Keeps.bind (popByte_keeps free) fun pcl => Keeps.bind (incSp_keeps free) fun _ => ?_
  refine Keeps.bind (popByte_keeps free) fun pch => Keeps.bind (incSp_keeps free) fun _ => ?_
  refine Keeps.bind (popByte_keeps free) fun pcs => Keeps.bind (incSp_keeps free) fun _ => ?_
  have rest : Keeps P (do
      incSp
      genExitTb (pcl ||| shl32 pch 8 ||| shl32 pcs 16)) :=
    Keeps.bind (incSp_keeps free) fun _ => genExitTb_keeps free _
  cases restorePsw with
  | false => exact rest
  | true =>
    refine Keeps.bind (popByte_keeps free) fun psw => ?_
    exact Keeps.bind (storePsw_keeps free.data _) fun _ => rest

theorem callAbs_keeps (target : Nat) : Keeps P (callAbs B ctx target) :=
  Keeps.bind (rl78GenPrepareCall_keeps free _) fun _ => genGotoTb_keeps free _ _

theorem transCall_keeps : Keeps P (transCall B ctx insn) := by
  unfold transCall
  split
  next =>
    refine Keeps.bind (segmentTarget_keeps _) fun target => ?_
    exact Keeps.bind (rl78GenPrepareCall_keeps free _) fun _ => genExitTb_keeps free _
  iterate 3 next => exact callAbs_keeps free _
  next => exact Keeps.pure _

theorem transCallt_keeps : Keeps P (transCallt B ctx insn) := by
  unfold transCallt
  split
  next =>
    refine Keeps.bind (rl78GenLoad_keeps free.stable _ _) fun target => ?_
    exact Keeps.bind (rl78GenPrepareCall_keeps free _) fun _ => genExitTb_keeps free _
  next => exact Keeps.pure _

theorem transBr_keeps : Keeps P (transBr ctx insn) := by
  unfold transBr
  split
  next => exact Keeps.bind (segmentTarget_keeps _) fun _ => genExitTb_keeps free _
  iterate 4 next => exact genGotoTb_keeps free _ _
  next => exact Keeps.pure _

theorem transBrk_keeps : Keeps P (transBrk B ctx) := by
  refine Keeps.bind (rl78GenLoad_keeps free.stable _ _) fun target => ?_
  refine Keeps.bind (rl78GenPrepareCall_keeps free _) fun _ => ?_
  refine Keeps.bind (Keeps.modify fun m holds => free.ie m _ holds (by omega)) fun _ => ?_
  exact genExitTb_keeps free _

theorem rl78GenBranch_keeps (op : Operand) (taken : Bool) : Keeps P (rl78GenBranch ctx op taken) :=
  Keeps.ite (fun _ => genGotoTb_keeps free _ _) fun _ => Keeps.pure _

theorem branchOn_keeps (condition : Psw → Bool) : Keeps P (branchOn ctx insn condition) :=
  Keeps.bind Keeps.get fun _ => rl78GenBranch_keeps free _ _

theorem transBt_keeps : Keeps P (transBt B ctx insn) :=
  Keeps.bind (rl78GenLoadBit_keeps free.stable _) fun _ => rl78GenBranch_keeps free _ _

theorem transBf_keeps : Keeps P (transBf B ctx insn) :=
  Keeps.bind (rl78GenLoadBit_keeps free.stable _) fun _ => rl78GenBranch_keeps free _ _

theorem transBtclr_keeps : Keeps P (transBtclr B ctx insn) := by
  unfold transBtclr
  split
  next =>
    exact Keeps.bind (helperBtclr_keeps free.stable _ _ _ _) fun _ => genExitTb_keeps free _
  next => exact Keeps.pure _

theorem popData_keeps (data : Nat) : Keeps P (popData insn data) := by
  unfold popData
  split
  next => exact storeWordReg_keeps free.data _ _
  next => exact storePsw_keeps free.data _
  next => exact Keeps.pure _

theorem transPush_keeps : Keeps P (transPush B ctx insn) := by
  refine Keeps.bind pushData_keeps fun data => ?_
  refine Keeps.bind (Keeps.modify fun m holds => free.anySp m _ holds) fun _ => ?_
  exact Keeps.bind stackAddr_keeps fun _ => rl78GenStore_keeps free.stable _ _ _

theorem transPop_keeps : Keeps P (transPop B ctx insn) := by
  refine Keeps.bind stackAddr_keeps fun addr => ?_
  refine Keeps.bind (rl78GenLoad_keeps free.stable _ _) fun data => ?_
  refine Keeps.bind (Keeps.modify fun m holds => free.anySp m _ holds) fun _ => ?_
  exact popData_keeps free _

theorem movEs_keeps (isEs : writesEs insn) : Keeps P (transMov B ctx insn) := by
  unfold transMov move
  rw [show insn.operand0 = .es from isEs]
  refine Keeps.bind (rl78GenLoadOperand_keeps free.stable _ _) fun src => ?_
  exact Keeps.modify fun m holds => free.anyEs m _ holds

theorem translateStraight_keeps_free (regular : Regular insn)
    (notSkip : insn.mnemonic.skips = false) :
    Keeps P (translateStraight B ctx insn insn.mnemonic) := by
  by_cases isEs : writesEs insn
  · rw [regular.esMov isEs]
    exact movEs_keeps free isEs
  · by_cases movesSp : insn.mnemonic.movesSp = true
    · unfold Mnemonic.movesSp at movesSp
      split at movesSp
      next is =>
        rw [is]
        exact transPush_keeps free
      next is =>
        rw [is]
        exact transPop_keeps free
      next => cases movesSp
    · exact translateStraight_keeps free.stable regular isEs (by simpa using movesSp) notSkip

theorem translate_keeps_free (regular : Regular insn) (notSkip : insn.mnemonic.skips = false) :
    Keeps P (translate B ctx insn) := by
  unfold translate
  split
  next => exact transCall_keeps free
  next => exact transCallt_keeps free
  next => exact transBrk_keeps free
  iterate 3 next => exact rl78GenRet_keeps free _
  next => exact transBr_keeps free
  iterate 6 next => exact branchOn_keeps free _
  next => exact transBt_keeps free
  next => exact transBf_keeps free
  next => exact transBtclr_keeps free
  next =>
    exact Keeps.bind (translateStraight_keeps_free free regular notSkip) fun _ => Keeps.pure _

end

def zeroBus : Bus Unit where
  load _ _ s := (0, s)
  store _ _ _ s := s
  readHost _ s := (0, s)
  writeHost _ _ s := s
  lduwPhys _ s := (0, s)
  stbPhys _ _ s := s
  load_lt memop _ _ := Nat.two_pow_pos memop.bits
  readHost_lt _ _ := Nat.two_pow_pos 8
  lduwPhys_lt _ _ := Nat.two_pow_pos 16

def anyMachine : Machine Unit :=
  { cpu :=
      { psw := ⟨0, 0, 0, 0, 0, 0⟩, regs := fun _ => 0, sp := 0, pc := 0, es := 0, cs := 0
        skipEn := 0, skipReq := 0, irqIndex := 0, irqPriority := 0 }
    bus := ()
    update := false }

end Tlib.Rl78
