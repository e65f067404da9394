import Tlib.Rl78.Blocks

/-!
Contract: the widths of the registers over whole runs.

Owns: the widths and the steps of a run, and the condition on a step under which addresses stay in
the space.
-/

namespace Tlib.Rl78

open Tlib.Library.Words Tlib.Library.StateTriples

variable {σ : Type} {B : Bus σ} {ctx : Context} {insn : Instruction} {m : Machine σ}

/-! ### Widths -/

structure Widths (cpu : Cpu) : Prop extends range : InRange cpu where
  sp_even : cpu.sp % 2 = 0
  sp_lt : cpu.sp < 2 ^ 16
  es_le : cpu.es ≤ 0xF
  pc_lt : cpu.pc < 2 ^ 20

/-- The widths, but for a stack pointer that is being moved. -/
structure AtSp (sp : Nat) (m : Machine σ) : Prop where
  range : InRange m.cpu
  es_le : m.cpu.es ≤ 0xF
  pc_lt : m.cpu.pc < 2 ^ 20
  sp_eq : m.cpu.sp = sp

theorem atSp_stable (sp : Nat) : StableData (σ := σ) (AtSp sp) where
  inRange _ holds := holds.range
  reg _ place _ holds small := { holds with range := holds.range.setReg place small }
  cy _ _ holds small :=
    { holds with range := { holds.range with psw := { holds.range.psw with cy_le := small } } }
  isp _ _ holds small :=
    { holds with range := { holds.range with psw := { holds.range.psw with isp_le := small } } }
  rbs _ _ holds small :=
    { holds with range := { holds.range with psw := { holds.range.psw with rbs_le := small } } }
  ac _ _ holds small :=
    { holds with range := { holds.range with psw := { holds.range.psw with ac_le := small } } }
  z _ _ holds small :=
    { holds with range := { holds.range with psw := { holds.range.psw with z_le := small } } }
  ie _ _ holds small :=
    { holds with range := { holds.range with psw := { holds.range.psw with ie_le := small } } }
  bus _ _ holds := { holds with }
  update _ _ holds := { holds with }

theorem Widths.atSp (widths : Widths m.cpu) : AtSp m.cpu.sp m :=
  ⟨widths.range, widths.es_le, widths.pc_lt, rfl⟩

theorem AtSp.widths {sp : Nat} (holds : AtSp sp m) (even : sp % 2 = 0) (less : sp < 2 ^ 16) :
    Widths m.cpu := by
  refine { holds.range with sp_even := ?_, sp_lt := ?_, es_le := holds.es_le, pc_lt := holds.pc_lt }
  · rw [holds.sp_eq]
    exact even
  · rw [holds.sp_eq]
    exact less

theorem widths_stable : Stable (σ := σ) fun m => Widths m.cpu where
  inRange _ widths := widths.range
  reg m place value widths small :=
    ((atSp_stable _).reg m place value widths.atSp small).widths widths.sp_even widths.sp_lt
  cy m value widths small :=
    ((atSp_stable _).cy m value widths.atSp small).widths widths.sp_even widths.sp_lt
  isp m value widths small :=
    ((atSp_stable _).isp m value widths.atSp small).widths widths.sp_even widths.sp_lt
  rbs m value widths small :=
    ((atSp_stable _).rbs m value widths.atSp small).widths widths.sp_even widths.sp_lt
  ac m value widths small :=
    ((atSp_stable _).ac m value widths.atSp small).widths widths.sp_even widths.sp_lt
  z m value widths small :=
    ((atSp_stable _).z m value widths.atSp small).widths widths.sp_even widths.sp_lt
  ie m value widths small :=
    ((atSp_stable _).ie m value widths.atSp small).widths widths.sp_even widths.sp_lt
  bus _ _ widths := { widths with }
  update _ _ widths := { widths with }
  sp _ _ widths even less := { widths with sp_even := even, sp_lt := less }
  es _ _ widths small := { widths with es_le := small widths.es_le }
  cs _ _ widths small := { widths with cs_le := small }

/-! ### The stack -/

theorem stackAddr_atSp (sp : Nat) : Keeps (AtSp sp) (stackAddr (σ := σ) ctx) := fun _ holds => holds

theorem moveSp (sp : Nat) {sp' : Nat} (change : Nat → Nat) (moved : change sp = sp') :
    Triple (AtSp (σ := σ) sp) (modify fun m => m.setSp (change m.cpu.sp)) fun _ => AtSp sp' := by
  refine Triple.modify fun m holds => ⟨{ holds.range with }, holds.es_le, holds.pc_lt, ?_⟩
  rw [← moved, ← holds.sp_eq]
  rfl

theorem sub32_eq {a b : Nat} (less : b ≤ a) (small : a < 2 ^ 32) : sub32 a b = a - b := by
  unfold sub32
  omega

theorem add32_eq {a b : Nat} (small : a + b < 2 ^ 32) : add32 a b = a + b := by
  unfold add32
  omega

theorem decSp_atSp {sp : Nat} (pos : 0 < sp) (small : sp < 2 ^ 32) :
    Triple (AtSp (σ := σ) sp) decSp fun _ => AtSp (sp - 1) :=
  moveSp sp (sub32 · 1) (sub32_eq pos small)

theorem incSp_atSp {sp : Nat} (small : sp + 1 < 2 ^ 32) :
    Triple (AtSp (σ := σ) sp) incSp fun _ => AtSp (sp + 1) :=
  moveSp sp (add32 · 1) (add32_eq small)

theorem pushByte_atSp (sp data : Nat) : Keeps (AtSp sp) (pushByte B ctx data) :=
  Keeps.bind (stackAddr_atSp sp) fun _ => busStore_keeps (atSp_stable sp) _ _ _

theorem popByte_atSp (sp : Nat) :
    Triple (AtSp sp) (popByte B ctx) fun byte m => byte < 2 ^ 8 ∧ AtSp sp m :=
  Triple.bind (stackAddr_atSp sp) fun _ => busLoad_triple (atSp_stable sp) .mo8 _

theorem rl78GenPrepareCall_atSp {sp : Nat} (room : 4 ≤ sp) (small : sp < 2 ^ 32)
    (savePsw : Bool) :
    Triple (AtSp sp) (rl78GenPrepareCall B ctx savePsw) fun _ => AtSp (sp - 4) := by
  unfold rl78GenPrepareCall
  have rest : Triple (AtSp (sp - 1)) (do
      decSp
      pushByte B ctx ((ctx.pc >>> 16) &&& 0x0F)
      decSp
      pushByte B ctx ((ctx.pc >>> 8) &&& 0xFF)
      decSp
      pushByte B ctx (ctx.pc &&& 0xFF)) fun _ => AtSp (sp - 4) := by
    refine Triple.bind (decSp_atSp (by omega) (by omega)) fun _ => ?_
    refine Triple.bind (pushByte_atSp _ _) fun _ => ?_
    refine Triple.bind (decSp_atSp (by omega) (by omega)) fun _ => ?_
    refine Triple.bind (pushByte_atSp _ _) fun _ => ?_
    exact Triple.bind (decSp_atSp (by omega) (by omega)) fun _ => pushByte_atSp _ _
  refine Triple.bind (decSp_atSp (by omega) small) fun _ => ?_
  cases savePsw with
  | false => exact rest
  | true =>
    have read : Keeps (AtSp (sp - 1)) (loadPsw (σ := σ)) := fun _ holds => holds
    refine Triple.bind read fun psw => ?_
    exact Triple.bind (pushByte_atSp _ _) fun _ => rest

/-! ### Exits -/

theorem genGotoTb_atSp {sp dest : Nat} (slot : Nat) (less : dest < 2 ^ 20) :
    Keeps (AtSp (σ := σ) sp) (genGotoTb ctx slot dest) :=
  Keeps.bind
    (Keeps.modify fun _ holds => { holds with range := { holds.range with }, pc_lt := less })
    fun _ => Keeps.pure _

theorem genExitTb_atSp {sp dest : Nat} (less : dest < 2 ^ 20) :
    Keeps (AtSp (σ := σ) sp) (genExitTb dest) :=
  Keeps.bind
    (Keeps.modify fun _ holds => { holds with range := { holds.range with }, pc_lt := less })
    fun _ => Keeps.pure _

theorem shl32_lt {a count bits : Nat} (less : a < 2 ^ bits) : shl32 a count < 2 ^ (bits + count) := by
  refine (Nat.mod_le _ _).trans_lt ?_
  rw [Nat.pow_add]
  exact Nat.mul_lt_mul_of_pos_right less (Nat.two_pow_pos count)

theorem wordReg_lt {cpu : Cpu} (range : InRange cpu) (place : Nat) :
    (cpu.regs place &&& 0xFF) ||| shl32 (cpu.regs (place + 1)) 8 < 2 ^ 16 := by
  have low : cpu.regs place &&& 0xFF ≤ 0xFF := Nat.and_le_right
  have high := range.regs_le (place + 1)
  have shifted := @shl32_lt (cpu.regs (place + 1)) 8 8 (by omega)
  exact or_lt_two_pow (by omega) (by omega)

theorem loadWordReg_triple {sp : Nat} (reg : WordRegister) :
    Triple (AtSp (σ := σ) sp) (loadWordReg reg) fun value m => value < 2 ^ 16 ∧ AtSp sp m :=
  fun _ holds => ⟨wordReg_lt holds.range _, holds⟩

theorem segmentTarget_triple {sp : Nat} (reg : WordRegister) :
    Triple (AtSp (σ := σ) sp) (segmentTarget reg) fun target m =>
      target < 2 ^ 20 ∧ AtSp sp m := by
  intro m holds
  refine ⟨?_, holds⟩
  have word := (loadWordReg_triple reg m holds).1
  have segment := holds.range.cs_le
  show add32 (shl32 m.cpu.cs 16) ((loadWordReg reg).run m).1 < 2 ^ 20
  unfold add32 shl32
  omega

theorem rl78GenLw_triple {sp : Nat} (addr : Nat) :
    Triple (AtSp sp) (rl78GenLw B addr) fun value m => value < 2 ^ 16 ∧ AtSp sp m :=
  busLoad_triple (atSp_stable sp) .mo16 _

/-! ### Returns -/

def poppedSegment (B : Bus σ) (ctx : Context) (m : Machine σ) : Nat :=
  let third : Exec σ Nat := do
    let _ ← popByte B ctx
    incSp
    let _ ← popByte B ctx
    incSp
    popByte B ctx
  (third.run m).1

theorem rl78GenRet_atSp {sp : Nat} (holds : AtSp sp m) (room : sp + 4 < 2 ^ 16)
    (segment : poppedSegment B ctx m ≤ 0xF) (restorePsw : Bool) :
    AtSp (sp + 4) ((rl78GenRet B ctx restorePsw).run m).2 := by
  have rest (pcl pch pcs : Nat) (pclLess : pcl < 2 ^ 8) (pchLess : pch < 2 ^ 8) (pcsLe : pcs ≤ 0xF) :
      Triple (AtSp (sp + 3)) (do
        if restorePsw then
          let psw ← popByte B ctx
          storePsw psw
        incSp
        genExitTb (pcl ||| shl32 pch 8 ||| shl32 pcs 16)) fun _ => AtSp (sp + 4) := by
    have high := @shl32_lt pch 8 8 pchLess
    have top := @shl32_lt pcs 16 4 (by omega)
    have target : pcl ||| shl32 pch 8 ||| shl32 pcs 16 < 2 ^ 20 :=
      or_lt_two_pow (or_lt_two_pow (by omega) (by omega)) (by omega)
    have last : Triple (AtSp (σ := σ) (sp + 3)) (do
        incSp
        genExitTb (pcl ||| shl32 pch 8 ||| shl32 pcs 16)) fun _ => AtSp (sp + 4) :=
      Triple.bind (incSp_atSp (by omega)) fun _ => genExitTb_atSp target
    cases restorePsw with
    | false => exact last
    | true =>
      refine Triple.bind (popByte_atSp (sp + 3)) fun psw => Triple.assume fun _ => ?_
      exact Triple.bind (storePsw_keeps (atSp_stable (sp + 3)) _) fun _ => last
  have pcl := @popByte_atSp _ B ctx sp m holds
  have inc1 := incSp_atSp (by omega) _ pcl.2
  have pch := @popByte_atSp _ B ctx (sp + 1) _ inc1
  have inc2 := incSp_atSp (by omega) _ pch.2
  have pcs := @popByte_atSp _ B ctx (sp + 2) _ inc2
  have inc3 := incSp_atSp (by omega) _ pcs.2
  exact rest _ _ _ pcl.1 pch.1 segment _ inc3

/-! ### What an instruction needs -/

def taken (B : Bus σ) (ctx : Context) (insn : Instruction) (m : Machine σ) : Bool :=
  match insn.mnemonic with
  | .bc => m.cpu.psw.cy ≠ 0
  | .bnc => m.cpu.psw.cy = 0
  | .bz => m.cpu.psw.z ≠ 0
  | .bnz => m.cpu.psw.z = 0
  | .bh => m.cpu.psw.z ||| m.cpu.psw.cy = 0
  | .bnh => m.cpu.psw.z ||| m.cpu.psw.cy ≠ 0
  | .bt => ((rl78GenLoadBit B ctx insn.operand0).run m).1.bit ≠ 0
  | .bf => ((rl78GenLoadBit B ctx insn.operand0).run m).1.bit = 0
  | .btclr =>
    match insn.operand0 with
    | .bit kind index addr => ((helperBtclr B kind addr index ctx.useEs).run m).1 ≠ 0
    | _ => false
  | _ => false

def branchOperand (insn : Instruction) : Operand :=
  match insn.mnemonic with
  | .bt | .bf | .btclr => insn.operand1
  | _ => insn.operand0

/-- The targets that are computed from the program counter. -/
def callDest (ctx : Context) : Operand → Option Nat
  | .rel16 rel => some (add32 ctx.pc (signed16 rel))
  | .wordReg _ | .abs16 _ | .abs20 _ => none
  | _ => some ctx.pc

def calltDest (ctx : Context) : Operand → Option Nat
  | .callt _ => none
  | _ => some ctx.pc

def jumpDest (ctx : Context) : Operand → Option Nat
  | .rel8 rel => some (add32 ctx.pc (signed8 rel))
  | .rel16 rel => some (add32 ctx.pc (signed16 rel))
  | .wordReg _ | .abs16 _ | .abs20 _ => none
  | _ => some ctx.pc

def relativeDest (B : Bus σ) (ctx : Context) (insn : Instruction) (m : Machine σ) : Option Nat :=
  match insn.mnemonic with
  | .call => callDest ctx insn.operand0
  | .callt => calltDest ctx insn.operand0
  | .br => jumpDest ctx insn.operand0
  | .brk | .ret | .reti | .retb => none
  | _ => some (if taken B ctx insn m then branchTarget ctx (branchOperand insn) else ctx.pc)

def Mnemonic.calls : Mnemonic → Bool
  | .call | .callt | .brk => true
  | _ => false

def Mnemonic.returns : Mnemonic → Bool
  | .ret | .reti | .retb => true
  | _ => false

/-- The operands of an instruction leave the unmasked registers in their widths. -/
structure InstructionFits (B : Bus σ) (ctx : Context) (insn : Instruction) (m : Machine σ) :
    Prop where
  push : insn.mnemonic = .push → 2 ≤ m.cpu.sp
  pop : insn.mnemonic = .pop → m.cpu.sp + 2 < 2 ^ 16
  call : insn.mnemonic.calls = true → 4 ≤ m.cpu.sp
  ret : insn.mnemonic.returns = true → m.cpu.sp + 4 < 2 ^ 16 ∧ poppedSegment B ctx m ≤ 0xF
  es : writesEs insn → ((rl78GenLoadOperand B ctx insn.operand1 .mo8).run m).1 ≤ 0xF
  dest : ∀ dest, relativeDest B ctx insn m = some dest → dest < 2 ^ 20

/-- The widths after the code of an instruction. -/
def Leaves (ctx : Context) (exit : Exit) (m : Machine σ) : Prop :=
  Widths m.cpu ∧ (exit = .fallThrough → ctx.pc < 2 ^ 20)

theorem genGotoTb_leaves {sp dest : Nat} (slot : Nat) (less : dest < 2 ^ 20)
    (even : sp % 2 = 0) (spLess : sp < 2 ^ 16) :
    Triple (AtSp (σ := σ) sp) (genGotoTb ctx slot dest) (Leaves ctx) := by
  intro m holds
  refine ⟨(genGotoTb_atSp slot less m holds).widths even spLess, fun falls => ?_⟩
  have exit : (if useGotoTb ctx dest then Exit.chain slot else .noChain) = .fallThrough := falls
  split at exit <;> cases exit

theorem genExitTb_leaves {sp dest : Nat} (less : dest < 2 ^ 20) (even : sp % 2 = 0)
    (spLess : sp < 2 ^ 16) : Triple (AtSp (σ := σ) sp) (genExitTb dest) (Leaves ctx) := by
  intro m holds
  refine ⟨(genExitTb_atSp less m holds).widths even spLess, fun falls => ?_⟩
  cases (falls : Exit.noChain = .fallThrough)

theorem fallThrough_leaves {sp : Nat} (less : ctx.pc < 2 ^ 20) (even : sp % 2 = 0)
    (spLess : sp < 2 ^ 16) :
    Triple (AtSp (σ := σ) sp) (pure Exit.fallThrough) (Leaves ctx) :=
  fun _ holds => ⟨holds.widths even spLess, fun _ => less⟩

theorem abs16_lt (constOp : Nat) : constOp &&& 0xFFFF < 2 ^ 20 := by
  rw [and_low_word]
  omega

theorem abs20_lt (constOp : Nat) : constOp &&& 0xFFFFF < 2 ^ 20 := by
  have := Nat.and_le_right (n := constOp) (m := 0xFFFFF)
  omega

theorem branch_leaves {took : Bool} {op : Operand} (widths : Widths m.cpu)
    (less : (if took then branchTarget ctx op else ctx.pc) < 2 ^ 20) :
    Leaves ctx ((rl78GenBranch ctx op took).run m).1 ((rl78GenBranch ctx op took).run m).2 := by
  have even := widths.sp_even
  have spLess := widths.sp_lt
  cases took with
  | true => exact genGotoTb_leaves 1 less even spLess m widths.atSp
  | false => exact fallThrough_leaves less even spLess m widths.atSp

theorem popData_atSp {sp : Nat} (data : Nat) : Keeps (AtSp (σ := σ) sp) (popData insn data) := by
  unfold popData
  split
  next => exact storeWordReg_keeps (atSp_stable sp) _ _
  next => exact storePsw_keeps (atSp_stable sp) _
  next => exact Keeps.pure _

theorem rl78GenSkip_widths (widths : Widths m.cpu) (condition : Psw → Bool) :
    Widths ((rl78GenSkip condition).run m).2.cpu := by
  refine { widths with skipEn_le := Nat.le_refl 1, skipReq_le := ?_ }
  show (if condition m.cpu.psw then 1 else 0) ≤ 1
  split <;> omega

section Instructions

variable (widths : Widths m.cpu) (fits : InstructionFits B ctx insn m)

include widths fits

theorem calls_even (calls : insn.mnemonic.calls = true) :
    (m.cpu.sp - 4) % 2 = 0 ∧ m.cpu.sp - 4 < 2 ^ 16 := by
  have room := fits.call calls
  have even := widths.sp_even
  have less := widths.sp_lt
  omega

theorem callAbs_leaves {target : Nat} (calls : insn.mnemonic.calls = true)
    (less : target < 2 ^ 20) : Triple (AtSp m.cpu.sp) (callAbs B ctx target) (Leaves ctx) := by
  have after := calls_even widths fits calls
  refine Triple.bind (rl78GenPrepareCall_atSp (fits.call calls) (by omega) false) fun _ => ?_
  exact genGotoTb_leaves 1 less after.1 after.2

theorem callLoaded_leaves {target : Exec σ Nat} {bits : Nat}
    (loaded : Triple (AtSp m.cpu.sp) target fun value m' => value < 2 ^ bits ∧ AtSp m.cpu.sp m')
    (narrow : bits ≤ 20) (calls : insn.mnemonic.calls = true) :
    Triple (AtSp m.cpu.sp) (do
      let target ← target
      rl78GenPrepareCall B ctx false
      genExitTb target) (Leaves ctx) := by
  have after := calls_even widths fits calls
  refine Triple.bind loaded fun value => Triple.assume fun less => ?_
  refine Triple.bind (rl78GenPrepareCall_atSp (fits.call calls) (by omega) false) fun _ => ?_
  exact genExitTb_leaves (less.trans_le (Nat.pow_le_pow_right (by omega) narrow)) after.1 after.2

theorem transCall_leaves (is : insn.mnemonic = .call) :
    Triple (AtSp m.cpu.sp) (transCall B ctx insn) (Leaves ctx) := by
  have calls : insn.mnemonic.calls = true := by rw [is]; rfl
  have dest (dest : Nat) (found : callDest ctx insn.operand0 = some dest) : dest < 2 ^ 20 := by
    refine fits.dest dest ?_
    unfold relativeDest
    rw [is]
    exact found
  unfold transCall
  split
  next => exact callLoaded_leaves widths fits (segmentTarget_triple _) (Nat.le_refl 20) calls
  next => exact callAbs_leaves widths fits calls (abs16_lt _)
  next => exact callAbs_leaves widths fits calls (abs20_lt _)
  next op =>
    rw [op] at dest
    exact callAbs_leaves widths fits calls (dest _ rfl)
  next notReg notAbs16 notAbs20 notRel16 =>
    refine fallThrough_leaves (dest _ ?_) widths.sp_even widths.sp_lt
    unfold callDest
    split
    next op => exact absurd op (notRel16 _)
    next op => exact absurd op (notReg _)
    next op => exact absurd op (notAbs16 _)
    next op => exact absurd op (notAbs20 _)
    next => rfl

theorem transCallt_leaves (is : insn.mnemonic = .callt) :
    Triple (AtSp m.cpu.sp) (transCallt B ctx insn) (Leaves ctx) := by
  have calls : insn.mnemonic.calls = true := by rw [is]; rfl
  have dest (dest : Nat) (found : calltDest ctx insn.operand0 = some dest) : dest < 2 ^ 20 := by
    refine fits.dest dest ?_
    unfold relativeDest
    rw [is]
    exact found
  unfold transCallt
  split
  next => exact callLoaded_leaves widths fits (rl78GenLw_triple _) (by decide : 16 ≤ 20) calls
  next notCallt =>
    refine fallThrough_leaves (dest _ ?_) widths.sp_even widths.sp_lt
    unfold calltDest
    split
    next op => exact absurd op (notCallt _)
    next => rfl

theorem transBrk_leaves (is : insn.mnemonic = .brk) :
    Triple (AtSp m.cpu.sp) (transBrk B ctx) (Leaves ctx) := by
  have calls : insn.mnemonic.calls = true := by rw [is]; rfl
  have after := calls_even widths fits calls
  refine Triple.bind (rl78GenLw_triple _) fun target => Triple.assume fun less => ?_
  refine Triple.bind (rl78GenPrepareCall_atSp (fits.call calls) (by omega) true) fun _ => ?_
  refine Triple.bind (Keeps.modify fun m' holds => (atSp_stable _).ie m' 0 holds (by omega)) ?_
  exact fun _ => genExitTb_leaves (by omega) after.1 after.2

theorem rl78GenRet_leaves (returns : insn.mnemonic.returns = true) (restorePsw : Bool) :
    Leaves ctx ((rl78GenRet B ctx restorePsw).run m).1 ((rl78GenRet B ctx restorePsw).run m).2 := by
  obtain ⟨room, segment⟩ := fits.ret returns
  have even := widths.sp_even
  refine ⟨(rl78GenRet_atSp widths.atSp room segment restorePsw).widths (by omega) room, ?_⟩
  cases restorePsw <;> exact fun falls => by cases falls

theorem transBr_leaves (is : insn.mnemonic = .br) :
    Triple (AtSp (σ := σ) m.cpu.sp) (transBr ctx insn) (Leaves ctx) := by
  have even := widths.sp_even
  have less := widths.sp_lt
  have dest (dest : Nat) (found : jumpDest ctx insn.operand0 = some dest) : dest < 2 ^ 20 := by
    refine fits.dest dest ?_
    unfold relativeDest
    rw [is]
    exact found
  unfold transBr
  split
  next =>
    refine Triple.bind (segmentTarget_triple _) fun target => Triple.assume fun small => ?_
    exact genExitTb_leaves small even less
  next => exact genGotoTb_leaves 1 (abs16_lt _) even less
  next => exact genGotoTb_leaves 1 (abs20_lt _) even less
  iterate 2 next op =>
    rw [op] at dest
    exact genGotoTb_leaves 1 (dest _ rfl) even less
  next notReg notAbs16 notAbs20 notRel8 notRel16 =>
    refine fallThrough_leaves (dest _ ?_) even less
    unfold jumpDest
    split
    next op => exact absurd op (notRel8 _)
    next op => exact absurd op (notRel16 _)
    next op => exact absurd op (notReg _)
    next op => exact absurd op (notAbs16 _)
    next op => exact absurd op (notAbs20 _)
    next => rfl

/-! ### Conditional branches -/

theorem branchOn_leaves {condition : Psw → Bool}
    (taken_eq : taken B ctx insn m = condition m.cpu.psw)
    (dest : relativeDest B ctx insn m =
      some (if taken B ctx insn m then branchTarget ctx insn.operand0 else ctx.pc)) :
    Leaves ctx ((branchOn ctx insn condition).run m).1 ((branchOn ctx insn condition).run m).2 := by
  have less := fits.dest _ dest
  rw [taken_eq] at less
  exact branch_leaves widths less

theorem bitBranch_leaves {condition : BitData → Bool}
    (taken_eq : taken B ctx insn m = condition ((rl78GenLoadBit B ctx insn.operand0).run m).1)
    (dest : relativeDest B ctx insn m =
      some (if taken B ctx insn m then branchTarget ctx insn.operand1 else ctx.pc))
    (branch : Exec σ Exit)
    (branch_eq : branch = do
      let bit ← rl78GenLoadBit B ctx insn.operand0
      rl78GenBranch ctx insn.operand1 (condition bit)) :
    Leaves ctx (branch.run m).1 (branch.run m).2 := by
  have less := fits.dest _ dest
  rw [taken_eq] at less
  have after := @rl78GenLoadBit_keeps _ B ctx _ widths_stable insn.operand0 m widths
  rw [branch_eq]
  exact branch_leaves after less

theorem transBtclr_leaves (is : insn.mnemonic = .btclr) :
    Leaves ctx ((transBtclr B ctx insn).run m).1 ((transBtclr B ctx insn).run m).2 := by
  have less := fits.dest (if taken B ctx insn m then branchTarget ctx insn.operand1 else ctx.pc) (by
    unfold relativeDest branchOperand
    rw [is])
  unfold taken at less
  rw [is] at less
  unfold transBtclr
  cases op : insn.operand0 with
  | bit kind index addr =>
    rw [op] at less
    have after := helperBtclr_keeps (B := B) widths_stable kind addr index ctx.useEs m widths
    simp only [decide_eq_true_eq] at less
    exact genExitTb_leaves less after.sp_even after.sp_lt _ after.atSp
  | _ =>
    rw [op] at less
    exact fallThrough_leaves less widths.sp_even widths.sp_lt m widths.atSp

/-! ### The stack pointer and the data segment -/

theorem transPush_widths (is : insn.mnemonic = .push) :
    Widths ((transPush B ctx insn).run m).2.cpu := by
  have room := fits.push is
  have even := widths.sp_even
  have less := widths.sp_lt
  have run : Triple (AtSp m.cpu.sp) (transPush B ctx insn) fun _ => AtSp (m.cpu.sp - 2) := by
    refine Triple.bind pushData_keeps fun data => ?_
    refine Triple.bind (moveSp _ (sub32 · 2) (sub32_eq room (by omega))) fun _ => ?_
    exact Triple.bind (stackAddr_atSp _) fun _ => busStore_keeps (atSp_stable _) _ _ _
  exact (run m widths.atSp).widths (by omega) (by omega)

theorem transPop_widths (is : insn.mnemonic = .pop) :
    Widths ((transPop B ctx insn).run m).2.cpu := by
  have room := fits.pop is
  have even := widths.sp_even
  have run : Triple (AtSp m.cpu.sp) (transPop B ctx insn) fun _ => AtSp (m.cpu.sp + 2) := by
    refine Triple.bind (stackAddr_atSp _) fun addr => ?_
    refine Triple.bind (rl78GenLw_triple addr) fun data => Triple.assume fun _ => ?_
    refine Triple.bind (moveSp _ (add32 · 2) (add32_eq (by omega))) fun _ => ?_
    exact popData_atSp data
  exact (run m widths.atSp).widths (by omega) (by omega)

theorem movEs_widths (isEs : writesEs insn) : Widths ((transMov B ctx insn).run m).2.cpu := by
  have small := fits.es isEs
  have after := @rl78GenLoadOperand_keeps _ B ctx _ widths_stable insn.operand1 .mo8 m
    widths
  unfold transMov move
  rw [show insn.operand0 = .es from isEs]
  exact widths_stable.es _ _ after fun _ => small

/-! ### The table -/

theorem translateStraight_widths (regular : Regular insn) :
    Widths ((translateStraight B ctx insn insn.mnemonic).run m).2.cpu := by
  by_cases isEs : writesEs insn
  · rw [regular.esMov isEs]
    exact movEs_widths widths fits isEs
  · cases skips : insn.mnemonic.skips with
    | true =>
      unfold Mnemonic.skips at skips
      split at skips
      all_goals first
        | next is =>
          rw [is]
          exact rl78GenSkip_widths widths _
        | cases skips
    | false =>
      cases movesSp : insn.mnemonic.movesSp with
      | true =>
        unfold Mnemonic.movesSp at movesSp
        split at movesSp
        next is =>
          rw [is]
          exact transPush_widths widths fits is
        next is =>
          rw [is]
          exact transPop_widths widths fits is
        next => cases movesSp
      | false => exact translateStraight_keeps widths_stable regular isEs movesSp skips m widths

theorem translate_widths (regular : Regular insn) :
    Leaves ctx ((translate B ctx insn).run m).1 ((translate B ctx insn).run m).2 := by
  have dest := fits.dest
  unfold translate
  split
  next is => exact transCall_leaves widths fits is m widths.atSp
  next is => exact transCallt_leaves widths fits is m widths.atSp
  next is => exact transBrk_leaves widths fits is m widths.atSp
  next is => exact rl78GenRet_leaves widths fits (by rw [is]; rfl) false
  iterate 2 next is => exact rl78GenRet_leaves widths fits (by rw [is]; rfl) true
  next is => exact transBr_leaves widths fits is m widths.atSp
  iterate 6 next is => exact branchOn_leaves widths fits (by simp only [taken, is]) (by
      simp only [relativeDest, branchOperand, is])
  iterate 2 next is => exact bitBranch_leaves widths fits (by simp only [taken, is]) (by
      simp only [relativeDest, branchOperand, is]) _ rfl
  next is => exact transBtclr_leaves widths fits is
  next =>
    refine ⟨translateStraight_widths widths fits regular, fun _ => dest _ ?_⟩
    unfold relativeDest taken
    split
    all_goals first
      | contradiction
      | split
    all_goals first
      | contradiction
      | rfl

end Instructions

/-! ### Blocks -/

def Block.entry (block : Block) (m : Machine σ) : Machine σ :=
  if block.skip then (m.setUpdate false).setSkip 0 0 else m.setUpdate false

def Block.skipped (block : Block) (m : Machine σ) : Bool := block.skip && m.cpu.skipReq ≠ 0

/-- The instruction fits where it runs, and the next one follows where it is skipped. -/
structure BlockFits (B : Bus σ) (block : Block) (m : Machine σ) : Prop where
  skipped : block.skipped m = true → block.ctx.pc < 2 ^ 20
  runs : block.skipped m = false → InstructionFits B block.ctx block.insn (block.entry m)

theorem genGotoTb_next {slot dest : Nat} (widths : Widths m.cpu) (less : dest < 2 ^ 20) :
    Widths ((genGotoTb ctx slot dest).run m).2.cpu :=
  (genGotoTb_atSp slot less m widths.atSp).widths widths.sp_even widths.sp_lt

theorem afterInstruction_widths {rest : Exit → Exec σ Exit} (widths : Widths m.cpu)
    (fits : InstructionFits B ctx insn m) (regular : Regular insn)
    (falls : ctx.pc < 2 ^ 20 → Keeps (fun m => Widths m.cpu) (rest .fallThrough))
    (exits : ∀ exit, exit ≠ .fallThrough → rest exit = pure exit) :
    Widths ((translate B ctx insn >>= rest).run m).2.cpu := by
  have after := translate_widths widths fits regular
  have run : Triple (· = m) (translate B ctx insn) (Leaves ctx) := by
    intro m' same
    rw [same]
    exact after
  suffices whole : Triple (· = m) (translate B ctx insn >>= rest) fun _ m => Widths m.cpu from
    whole m rfl
  refine Triple.bind run fun exit => ?_
  by_cases ends : exit = .fallThrough
  · intro m' leaves
    rw [ends]
    exact falls (leaves.2 ends) m' leaves.1
  · rw [exits exit ends]
    exact fun _ leaves => leaves.1

theorem genEpilogue_widths (widths : Widths m.cpu) (fits : InstructionFits B ctx insn m)
    (regular : Regular insn) : Widths ((genEpilogue B ctx insn).run m).2.cpu := by
  refine afterInstruction_widths widths fits regular (fun less => ?_) fun exit ends => ?_
  · refine Keeps.bind Keeps.get fun m' => Keeps.ite (fun _ => ?_) fun _ => ?_
    · exact fun m' after => (genExitTb_atSp less m' after.atSp).widths after.sp_even after.sp_lt
    · exact fun m' after => genGotoTb_next after less
  · cases exit with
    | fallThrough => exact absurd rfl ends
    | chain => rfl
    | noChain => rfl

theorem genSkippable_widths (widths : Widths m.cpu)
    (skipped : m.cpu.skipReq ≠ 0 → ctx.pc < 2 ^ 20)
    (runs : m.cpu.skipReq = 0 → InstructionFits B ctx insn (m.setSkip 0 0))
    (regular : Regular insn) : Widths ((genSkippable B ctx insn).run m).2.cpu := by
  have cleared : Widths (m.setSkip 0 0).cpu :=
    { widths with skipEn_le := Nat.zero_le 1, skipReq_le := Nat.zero_le 1 }
  show Widths ((if m.cpu.skipReq ≠ 0 then genGotoTb ctx 0 ctx.pc else _ : Exec σ Exit).run
    (m.setSkip 0 0)).2.cpu
  split
  next required => exact genGotoTb_next cleared (skipped required)
  next notRequired =>
    have fits := runs (not_not.mp notRequired)
    refine afterInstruction_widths cleared fits regular (fun less => ?_) fun exit ends => ?_
    · exact fun m' after => genGotoTb_next after less
    · cases exit with
      | fallThrough => exact absurd rfl ends
      | chain => rfl
      | noChain => rfl

theorem Block.run_widths {block : Block} (widths : Widths m.cpu) (fits : BlockFits B block m)
    (regular : Regular block.insn) : Widths ((block.run B).run m).2.cpu := by
  have start : Widths (m.setUpdate false).cpu := { widths with }
  obtain ⟨skipped, runs⟩ := fits
  unfold Block.skipped at skipped runs
  unfold Block.entry at runs
  show Widths ((if block.skip then genSkippable B block.ctx block.insn
    else genEpilogue B block.ctx block.insn : Exec σ Exit).run (m.setUpdate false)).2.cpu
  cases skip : block.skip with
  | false =>
    rw [skip] at runs
    exact genEpilogue_widths start (runs rfl) regular
  | true =>
    rw [skip] at skipped runs
    refine genSkippable_widths start (fun required => skipped ?_) (fun notRequired => runs ?_)
      regular
    · exact decide_eq_true (show m.cpu.skipReq ≠ 0 from required)
    · exact decide_eq_false (not_not.mpr (show m.cpu.skipReq = 0 from notRequired))

/-! ### Interrupts and reset -/

theorem lduwPhys_lt_pc (paddr : Nat) (bus : σ) : (B.lduwPhys paddr bus).1 < 2 ^ 20 :=
  (B.lduwPhys_lt paddr bus).trans (by decide)

theorem cpuReset_widths (m : Machine σ) : Widths ((cpuReset B).run m).2.cpu where
  psw := ⟨Nat.zero_le 1, Nat.le_refl 3, Nat.zero_le 3, Nat.zero_le 1, Nat.zero_le 1, Nat.zero_le 1⟩
  regs_le _ := Nat.zero_le 0xFF
  cs_le := Nat.zero_le 0xF
  skipEn_le := Nat.zero_le 1
  skipReq_le := Nat.zero_le 1
  sp_even := rfl
  sp_lt := Nat.two_pow_pos 16
  es_le := Nat.le_refl 0xF
  pc_lt := lduwPhys_lt_pc 0 m.bus

def Accepting (sp : Nat) (m : Machine σ) : Prop := AtSp sp m ∧ m.cpu.irqPriority ≤ 3

theorem accepting_setSp (sp moved : Nat) :
    Accepting sp (m.setSp moved) ↔ AtSp sp (m.setSp moved) ∧ m.cpu.irqPriority ≤ 3 := Iff.rfl

theorem stbPhys_accepting (sp paddr data : Nat) : Keeps (Accepting sp) (stbPhys B paddr data) :=
  Keeps.modify fun m holds => ⟨(atSp_stable sp).bus m _ holds.1, holds.2⟩

theorem doInterrupt_widths (exceptionIndex : Nat) (widths : Widths m.cpu)
    (priority : m.cpu.irqPriority ≤ 3) (room : 4 ≤ m.cpu.sp) :
    Widths ((doInterrupt B exceptionIndex).run m).2.cpu := by
  have less := widths.sp_lt
  have even := widths.sp_even
  have moved := sub32_eq room (less.trans (by decide))
  have pushed : Accepting (m.cpu.sp - 4) (m.setSp (sub32 m.cpu.sp 4)) :=
    (accepting_setSp _ _).mpr ⟨moveSp _ (sub32 · 4) moved m widths.atSp, priority⟩
  have start : Triple (· = m) get fun read m' => read = m ∧ m' = m := fun _ same => ⟨same, same⟩
  suffices whole : Triple (· = m) (doInterrupt B exceptionIndex) fun _ => AtSp (m.cpu.sp - 4) from
    (whole m rfl).widths (by omega) (by omega)
  unfold doInterrupt
  refine Triple.bind start fun read => Triple.assume fun same => ?_
  rw [same]
  refine Triple.bind (Q := fun _ => Accepting (m.cpu.sp - 4)) ?_ fun _ => ?_
  · intro m' same'
    rw [same']
    exact pushed
  refine Triple.bind (stbPhys_accepting _ _ _) fun _ => ?_
  refine Triple.bind (stbPhys_accepting _ _ _) fun _ => ?_
  refine Triple.bind (stbPhys_accepting _ _ _) fun _ => ?_
  refine Triple.bind (stbPhys_accepting _ _ _) fun _ m' holds => ?_
  have pcLess := lduwPhys_lt_pc (B := B) (exceptionIndex * 2 + 4) m'.bus
  have loaded := (atSp_stable _).bus m' (B.lduwPhys (exceptionIndex * 2 + 4) m'.bus).2 holds.1
  have ie := (atSp_stable _).ie _ 0 loaded (by omega)
  have isp := (atSp_stable _).isp _ m'.cpu.irqPriority ie holds.2
  exact ⟨{ isp.range with }, isp.es_le, pcLess, isp.sp_eq⟩

theorem processInterrupt_widths (widths : Widths m.cpu)
    (room : acceptsInterrupt m.cpu = true → 4 ≤ m.cpu.sp) :
    Widths ((processInterrupt B).run m).2.cpu := by
  show Widths ((if acceptsInterrupt m.cpu then doInterrupt B m.cpu.irqIndex.toNat
    else return : Exec σ Unit).run m).2.cpu
  split
  next accepts =>
    refine doInterrupt_widths _ widths ?_ (room accepts)
    have isp := widths.psw.isp_le
    unfold acceptsInterrupt at accepts
    simp only [Bool.and_eq_true, decide_eq_true_eq] at accepts
    omega
  next => exact widths

/-! ### Runs -/

/-- What happens to the CPU; the code may have changed since the step before. -/
inductive Event (σ : Type) where
  | exec (code : Nat → Nat) (skip : Bool)
  | interrupt
  | latch (irqIndex : Int) (irqPriority : Nat)
  | devices (bus : σ)
  | reset

def Event.apply (B : Bus σ) (m : Machine σ) : Event σ → Option (Machine σ)
  | .exec code skip =>
    (genIntermediateCode code m.cpu.pc skip).map fun block => ((block.run B).run m).2
  | .interrupt => some ((processInterrupt B).run m).2
  | .latch irqIndex irqPriority =>
    some { m with cpu.irqIndex := irqIndex, cpu.irqPriority := irqPriority }
  | .devices bus => some (m.setBus bus)
  | .reset => some ((cpuReset B).run m).2

/-- The condition on a step. -/
def Event.Fits (B : Bus σ) (m : Machine σ) : Event σ → Prop
  | .exec code skip =>
    ∀ block, genIntermediateCode code m.cpu.pc skip = some block → BlockFits B block m
  | .interrupt => acceptsInterrupt m.cpu = true → 4 ≤ m.cpu.sp
  | _ => True

theorem Event.apply_widths {event : Event σ} {m' : Machine σ} (widths : Widths m.cpu)
    (fits : event.Fits B m) (step : event.apply B m = some m') : Widths m'.cpu := by
  cases event with
  | exec code skip =>
    unfold apply at step
    rw [Option.map_eq_some_iff] at step
    obtain ⟨block, found, result⟩ := step
    rw [← result]
    exact Block.run_widths widths (fits block found) (genIntermediateCode_some found).regular
  | interrupt =>
    cases step
    exact processInterrupt_widths widths fits
  | latch irqIndex irqPriority =>
    cases step
    exact { widths with }
  | devices bus =>
    cases step
    exact { widths with }
  | reset =>
    cases step
    exact cpuReset_widths m

/-- The states of a run from reset whose steps all meet the condition. -/
inductive Reaches (B : Bus σ) : Machine σ → Prop where
  | reset (m : Machine σ) : Reaches B ((cpuReset B).run m).2
  | step {m m' : Machine σ} (event : Event σ) : Reaches B m → event.Fits B m →
      event.apply B m = some m' → Reaches B m'

theorem Reaches.widths (reaches : Reaches B m) : Widths m.cpu := by
  induction reaches with
  | reset m => exact cpuReset_widths m
  | step event _ fits step widths => exact Event.apply_widths widths fits step

/-! ### Addresses -/

def Operand.offset : Operand → Nat
  | .indRegImm _ imm | .indSpImm imm => imm
  | .indBaseByte _ base | .indBaseWord _ base => base
  | _ => 0

theorem offset_lt {op : Operand} (bytes : ∀ byte ∈ op.encoded, byte < 256) :
    op.offset < 2 ^ 16 := by
  unfold Operand.offset
  split
  iterate 2 next imm =>
    have := bytes imm (by simp [Operand.encoded])
    omega
  iterate 2 next base =>
    have := bytes (base / 256) (by simp [Operand.encoded])
    omega
  next => omega

theorem Generated.offset_lt {code : Nat → Nat} {pc : Nat} {skip : Bool} {block : Block}
    (generated : Generated code pc skip block) :
    block.insn.operand0.offset < 2 ^ 16 ∧ block.insn.operand1.offset < 2 ^ 16 := by
  obtain ⟨ctx, decoded, _, _⟩ := generated.decoded
  refine ⟨Rl78.offset_lt fun byte mem => ?_, Rl78.offset_lt fun byte mem => ?_⟩
  · rw [decoded.encoded0, List.mem_map] at mem
    obtain ⟨offset, _, rfl⟩ := mem
    exact loadByte_lt _
  · rw [decoded.encoded1, List.mem_map] at mem
    obtain ⟨offset, _, rfl⟩ := mem
    exact loadByte_lt _

theorem rl78GenAddr_run {addr : Nat} : (rl78GenAddr ctx addr).run m =
    (addr ||| if ctx.useEs then shl32 m.cpu.es 16 else 0xF0000, m) := rfl

theorem rl78GenAddr_lt {addr : Nat} (es : m.cpu.es ≤ 0xF) (less : addr < 2 ^ 20) :
    ((rl78GenAddr ctx addr).run m).1 < 2 ^ 20 := by
  refine or_lt_two_pow less ?_
  split
  · exact @shl32_lt m.cpu.es 16 4 (by omega)
  · decide

theorem add32_lt {a b : Nat} (left : a < 2 ^ 16) (right : b < 2 ^ 16) : add32 a b < 2 ^ 20 := by
  rw [add32_eq (by omega)]
  omega

theorem indAddr_lt {op : Operand} {addr : Exec σ Nat} (widths : Widths m.cpu)
    (offset : op.offset < 2 ^ 16) (found : indAddr ctx op = some addr) :
    (addr.run m).1 < 2 ^ 20 := by
  have word (reg : WordRegister) : ((loadWordReg reg).run m).1 < 2 ^ 16 := wordReg_lt widths.range _
  have byte (reg : ByteRegister) : ((loadByteReg reg).run m).1 < 2 ^ 16 :=
    (Nat.and_le_right (m := 0xFF)).trans_lt (by decide)
  have sp : (loadSp.run m).1 < 2 ^ 16 := (mask_sp m.cpu.sp).2
  have es := widths.es_le
  unfold indAddr at found
  split at found
  · cases found
    exact rl78GenAddr_lt es ((word _).trans (by decide))
  · cases found
    exact rl78GenAddr_lt es (add32_lt (word _) (byte _))
  · cases found
    exact rl78GenAddr_lt es (add32_lt (word _) offset)
  · cases found
    exact rl78GenAddr_lt es (add32_lt sp offset)
  · cases found
    exact rl78GenAddr_lt es (add32_lt (byte _) offset)
  · cases found
    exact rl78GenAddr_lt es (add32_lt (word _) offset)
  · cases found

theorem regPtr_lt {reg : Nat} (widths : Widths m.cpu) (less : reg < 8) :
    ((regPtr reg).run m).1 < 32 := by
  have rbs := widths.psw.rbs_le
  show add32 (shl32 m.cpu.psw.rbs 5) (4 * reg) / 4 < 32
  unfold add32 shl32
  omega

theorem stackAddr_lt (es : m.cpu.es ≤ 0xF) (less : m.cpu.sp < 2 ^ 20) :
    ((stackAddr ctx).run m).1 < 2 ^ 20 := by
  exact rl78GenAddr_lt es less

theorem stackAddr_setSp_lt {sp : Nat} (es : m.cpu.es ≤ 0xF) (less : sp < 2 ^ 20) :
    ((stackAddr ctx).run (m.setSp sp)).1 < 2 ^ 20 := stackAddr_lt es less

/-- The addresses that the next instruction can form, and the places of the registers. -/
structure AddressesFit (m : Machine σ) : Prop where
  genAddr : ∀ ctx addr, addr < 2 ^ 20 → ((rl78GenAddr ctx addr).run m).1 < 2 ^ 20
  operand : ∀ code skip block, genIntermediateCode code m.cpu.pc skip = some block →
    ∀ op, op = block.insn.operand0 ∨ op = block.insn.operand1 →
      ∀ addr, indAddr block.ctx op = some addr → (addr.run m).1 < 2 ^ 20
  pushed : ∀ ctx count, count ≤ m.cpu.sp →
    ((stackAddr ctx).run (m.setSp (m.cpu.sp - count))).1 < 2 ^ 20
  popped : ∀ ctx count, m.cpu.sp + count < 2 ^ 16 →
    ((stackAddr ctx).run (m.setSp (m.cpu.sp + count))).1 < 2 ^ 20
  place : ∀ reg, reg < 8 → ((regPtr reg).run m).1 < 32

theorem Widths.addressesFit (widths : Widths m.cpu) : AddressesFit m := by
  have spLess := widths.sp_lt
  refine ⟨fun ctx addr => rl78GenAddr_lt widths.es_le, ?_, fun ctx count _ => ?_,
    fun ctx count room => ?_, fun reg => regPtr_lt widths⟩
  · intro code skip block found op isOp addr isAddr
    have offsets := (genIntermediateCode_some found).offset_lt
    refine indAddr_lt widths ?_ isAddr
    rcases isOp with rfl | rfl
    · exact offsets.1
    · exact offsets.2
  · have less : m.cpu.sp - count < 2 ^ 20 := by omega
    exact stackAddr_setSp_lt widths.es_le less
  · have less : m.cpu.sp + count < 2 ^ 20 := by omega
    exact stackAddr_setSp_lt widths.es_le less

/-- In every run from reset whose steps all meet the condition, the registers keep their widths
in every state, and so do the addresses that are formed from them. -/
theorem widths_of_reaches (reaches : Reaches B m) : Widths m.cpu ∧ AddressesFit m :=
  ⟨reaches.widths, reaches.widths.addressesFit⟩

/-! ### `MOV ES, #byte` after reset -/

/-- `MOV ES, #byte` at address 0. -/
def movEsCode (value : Nat) (address : Nat) : Nat := [0x41, value].getD address 0

def movEsBlock (value : Nat) : Block :=
  { ctx := { useEs := false, pc := 2, tbPc := 0 }
    skip := false
    insn := { mnemonic := .mov, operand0 := .es, operand1 := .imm8 value } }

def afterReset : Machine Unit := ((cpuReset zeroBus).run anyMachine).2

/-- One instruction after reset takes `ES` out of its four bits; an address with the prefix is
then not below the end of memory. -/
theorem movEs_unmasked :
    ∃ m : Machine Unit, (Event.exec (movEsCode 0x10) false).apply zeroBus afterReset = some m ∧
      ¬Widths m.cpu ∧ ((rl78GenAddr { useEs := true, pc := 0, tbPc := 0 } 0).run m).1 = 2 ^ 20 := by
  have found : genIntermediateCode (movEsCode 0x10) 0 false = some (movEsBlock 0x10) := by
    decide +kernel
  refine ⟨(((movEsBlock 0x10).run zeroBus).run afterReset).2, ?_, fun widths => ?_, rfl⟩
  · exact congrArg (Option.map fun block => ((Block.run zeroBus block).run afterReset).2) found
  · have es := widths.es_le
    exact absurd es (by decide)

theorem movEs_reaches : Reaches zeroBus (((movEsBlock 5).run zeroBus).run afterReset).2 := by
  have found : genIntermediateCode (movEsCode 5) 0 false = some (movEsBlock 5) := by
    decide +kernel
  refine .step (.exec (movEsCode 5) false) (.reset anyMachine) ?_ ?_
  · intro block found'
    cases (found.symm.trans found' : some (movEsBlock 5) = some block)
    refine { skipped := nofun, runs := fun _ => ?_ }
    refine
      { push := nofun
        pop := nofun
        call := nofun
        ret := nofun
        es := fun _ => by decide
        dest := fun dest is => ?_ }
    cases is
    decide
  · exact congrArg (Option.map fun block => ((Block.run zeroBus block).run afterReset).2) found

/-- `MOV ES, #5` after reset. -/
theorem widths_of_reaches_movEs : Widths (((movEsBlock 5).run zeroBus).run afterReset).2.cpu ∧
      AddressesFit (((movEsBlock 5).run zeroBus).run afterReset).2 :=
  widths_of_reaches movEs_reaches

end Tlib.Rl78
