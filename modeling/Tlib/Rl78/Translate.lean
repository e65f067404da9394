import Tlib.Rl78.Operands

/-!
Contract: what the generated code of each RL78 instruction does.

Owns: the translators, by mnemonic, with the jumps that may be patched and the ones that may not.
-/

namespace Tlib.Rl78

open Tlib.Library.Words

/-- How the code of a block is left: at its end, through a slot, or without chaining. -/
inductive Exit where
  | fallThrough
  | chain (slot : Nat)
  | noChain
deriving DecidableEq, Repr

variable {σ : Type} (B : Bus σ) (ctx : Context) (insn : Instruction)

/-- `TARGET_PAGE_MASK` clears 8 bits. -/
def useGotoTb (dest : Nat) : Bool := ctx.tbPc / 2 ^ 8 = dest / 2 ^ 8

def genGotoTb (slot dest : Nat) : Exec σ Exit := do
  modify fun m => m.setPc dest
  return if useGotoTb ctx dest then .chain slot else .noChain

/-- The program counter is set, and `is_jmp` becomes `DISAS_UPDATE`. -/
def genExitTb (dest : Nat) : Exec σ Exit := do
  modify fun m => m.setPc dest
  return .noChain

def carryByte (result : Nat) : Nat := (result >>> 8) &&& 1

def borrowByte (result : Nat) : Nat := (result >>> 8) &&& 1

def zeroByte (result : Nat) : Nat := if result &&& 0xFF = 0 then 1 else 0

def carryWord (result : Nat) : Nat := (result >>> 16) &&& 1

def borrowWord (result : Nat) : Nat := (result >>> 16) &&& 1

def zeroWord (result : Nat) : Nat := if result &&& 0xFFFF = 0 then 1 else 0

def halfCarry (op0 op1 result : Nat) : Nat := ((op0 ^^^ op1 ^^^ result) >>> 4) &&& 1

def halfBorrow (op0 op1 result : Nat) : Nat := ((op0 ^^^ op1 ^^^ result) >>> 4) &&& 1

def setFlags (cy ac z : Nat) : Exec σ Unit := do
  modify fun m => m.setCy cy
  modify fun m => m.setAc ac
  modify fun m => m.setZ z

def boolWord (c : Prop) [Decidable c] : Nat := if c then 1 else 0

/-- The address in a word register, in the segment that `CS` selects. -/
def segmentTarget (reg : WordRegister) : Exec σ Nat := do
  let target ← loadWordReg reg
  let m ← get
  return add32 (shl32 m.cpu.cs 16) target

def rl78GenIndJump (reg : WordRegister) : Exec σ Exit := do
  let target ← segmentTarget reg
  genExitTb target

def rl78GenAbsJump (target : Nat) : Exec σ Exit := genGotoTb ctx 1 target

def rl78GenRelJump (rel : Nat) : Exec σ Exit := genGotoTb ctx 1 (add32 ctx.pc rel)

def decSp : Exec σ Unit := modify fun m => m.setSp (sub32 m.cpu.sp 1)

def incSp : Exec σ Unit := modify fun m => m.setSp (add32 m.cpu.sp 1)

def stackAddr : Exec σ Nat := do
  let m ← get
  rl78GenAddr ctx m.cpu.sp

def pushByte (data : Nat) : Exec σ Unit := do
  let addr ← stackAddr ctx
  rl78GenSb B addr data

def rl78GenPrepareCall (savePsw : Bool) : Exec σ Unit := do
  decSp
  if savePsw then
    let psw ← loadPsw
    pushByte B ctx psw
  decSp
  pushByte B ctx ((ctx.pc >>> 16) &&& 0x0F)
  decSp
  pushByte B ctx ((ctx.pc >>> 8) &&& 0xFF)
  decSp
  pushByte B ctx (ctx.pc &&& 0xFF)

def callIndReg (reg : WordRegister) : Exec σ Exit := do
  let target ← segmentTarget reg
  rl78GenPrepareCall B ctx false
  genExitTb target

def callAbs (target : Nat) : Exec σ Exit := do
  rl78GenPrepareCall B ctx false
  rl78GenAbsJump ctx target

def callRel (rel : Nat) : Exec σ Exit := callAbs B ctx (add32 ctx.pc rel)

def popByte : Exec σ Nat := do
  let addr ← stackAddr ctx
  rl78GenLb B addr

def rl78GenRet (restorePsw : Bool) : Exec σ Exit := do
  let pcl ← popByte B ctx
  incSp
  let pch ← popByte B ctx
  incSp
  let pcs ← popByte B ctx
  incSp
  if restorePsw then
    let psw ← popByte B ctx
    storePsw psw
  incSp
  genExitTb (pcl ||| shl32 pch 8 ||| shl32 pcs 16)

def transCall : Exec σ Exit :=
  match insn.operand0 with
  | .wordReg reg => callIndReg B ctx reg
  | .abs16 constOp => callAbs B ctx (constOp &&& 0xFFFF)
  | .abs20 constOp => callAbs B ctx (constOp &&& 0xFFFFF)
  | .rel16 constOp => callRel B ctx (signed16 constOp)
  | _ => return .fallThrough

def transCallt : Exec σ Exit :=
  match insn.operand0 with
  | .callt constOp => do
    let target ← rl78GenLw B constOp
    rl78GenPrepareCall B ctx false
    genExitTb target
  | _ => return .fallThrough

def transBr : Exec σ Exit :=
  match insn.operand0 with
  | .wordReg reg => rl78GenIndJump reg
  | .abs16 constOp => rl78GenAbsJump ctx (constOp &&& 0xFFFF)
  | .abs20 constOp => rl78GenAbsJump ctx (constOp &&& 0xFFFFF)
  | .rel8 constOp => rl78GenRelJump ctx (signed8 constOp)
  | .rel16 constOp => rl78GenRelJump ctx (signed16 constOp)
  | _ => return .fallThrough

def transBrk : Exec σ Exit := do
  let target ← rl78GenLw B 0x0007E
  rl78GenPrepareCall B ctx true
  modify fun m => m.setIe 0
  genExitTb target

def branchTarget (op : Operand) : Nat :=
  match op with
  | .rel8 constOp => add32 ctx.pc (signed8 constOp)
  | _ => ctx.pc

/-- `TCG_COND_EQ` and `TCG_COND_NE` with 0 are the conditions not to branch. -/
def rl78GenBranch (op : Operand) (taken : Bool) : Exec σ Exit :=
  if taken then genGotoTb ctx 1 (branchTarget ctx op) else return .fallThrough

/-- The branches on `CY`, on `Z` and on both. -/
def branchOn (condition : Psw → Bool) : Exec σ Exit := do
  let m ← get
  rl78GenBranch ctx insn.operand0 (condition m.cpu.psw)

def transBc : Exec σ Exit := branchOn ctx insn fun psw => psw.cy ≠ 0

def transBnc : Exec σ Exit := branchOn ctx insn fun psw => psw.cy = 0

def transBz : Exec σ Exit := branchOn ctx insn fun psw => psw.z ≠ 0

def transBnz : Exec σ Exit := branchOn ctx insn fun psw => psw.z = 0

def transBh : Exec σ Exit := branchOn ctx insn fun psw => psw.z ||| psw.cy = 0

def transBnh : Exec σ Exit := branchOn ctx insn fun psw => psw.z ||| psw.cy ≠ 0

def transBt : Exec σ Exit := do
  let bit ← rl78GenLoadBit B ctx insn.operand0
  rl78GenBranch ctx insn.operand1 (bit.bit ≠ 0)

def transBf : Exec σ Exit := do
  let bit ← rl78GenLoadBit B ctx insn.operand0
  rl78GenBranch ctx insn.operand1 (bit.bit = 0)

def transBtclr : Exec σ Exit :=
  match insn.operand0 with
  | .bit kind index addr => do
    let took ← helperBtclr B kind addr index ctx.useEs
    genExitTb (if took ≠ 0 then branchTarget ctx insn.operand1 else ctx.pc)
  | _ => return .fallThrough

def rl78GenSkip (condition : Psw → Bool) : Exec σ Unit :=
  modify fun m => m.setSkip 1 (if condition m.cpu.psw then 1 else 0)

/-- The comparison is with 1. -/
def transSkz : Exec σ Unit := rl78GenSkip fun psw => psw.z = 1

def transSkc : Exec σ Unit := rl78GenSkip fun psw => psw.cy = 1

def transSknc : Exec σ Unit := rl78GenSkip fun psw => psw.cy ≠ 1

def transSknz : Exec σ Unit := rl78GenSkip fun psw => psw.z ≠ 1

def transSkh : Exec σ Unit := rl78GenSkip fun psw => psw.z ||| psw.cy ≠ 1

def transSknh : Exec σ Unit := rl78GenSkip fun psw => psw.z ||| psw.cy = 1

/-- `MOV` and `MOVW` -/
def move (memop : MemOp) : Exec σ Unit := do
  let src ← rl78GenLoadOperand B ctx insn.operand1 memop
  rl78GenStoreOperand B ctx insn.operand0 src memop

def transMov : Exec σ Unit := move B ctx insn .mo8

def transMovw : Exec σ Unit := move B ctx insn .mo16

/-- `ONEB`, `CLRB`, `ONEW` and `CLRW` -/
def storeConst (value : Nat) (memop : MemOp) : Exec σ Unit :=
  rl78GenStoreOperand B ctx insn.operand0 value memop

def transOneb : Exec σ Unit := storeConst B ctx insn 1 .mo8

def transClrb : Exec σ Unit := storeConst B ctx insn 0 .mo8

def transOnew : Exec σ Unit := storeConst B ctx insn 1 .mo16

def transClrw : Exec σ Unit := storeConst B ctx insn 0 .mo16

/-- `XCH` and `XCHW` -/
def exchange (memop : MemOp) : Exec σ Unit := do
  let op0 ← rl78GenLoadOperand B ctx insn.operand0 memop
  let op1 ← rl78GenLoadOperand B ctx insn.operand1 memop
  rl78GenStoreOperand B ctx insn.operand1 op0 memop
  rl78GenStoreOperand B ctx insn.operand0 op1 memop

def transXch : Exec σ Unit := exchange B ctx insn .mo8

def transXchw : Exec σ Unit := exchange B ctx insn .mo16

def transMovs : Exec σ Unit := do
  let a ← loadByteReg .a
  let src ← rl78GenLoadOperand B ctx insn.operand1 .mo8
  rl78GenStoreOperand B ctx insn.operand0 src .mo8
  modify fun m => m.setZ (boolWord (src = 0))
  modify fun m => m.setCy (boolWord (src = 0) ||| boolWord (a = 0))

/-- `ADD`, `SUB`, `ADDC` and `SUBC`: the result is stored, and the flags follow from it. -/
def arithmetic (op : Nat → Nat → Nat → Nat) (carry : Nat → Nat) (half : Nat → Nat → Nat → Nat) :
    Exec σ Unit := do
  let op0 ← rl78GenLoadOperand B ctx insn.operand0 .mo8
  let op1 ← rl78GenLoadOperand B ctx insn.operand1 .mo8
  let m ← get
  let result := op m.cpu.psw.cy op0 op1
  rl78GenStoreOperand B ctx insn.operand0 result .mo8
  setFlags (carry result) (half op0 op1 result) (zeroByte result)

def transAdd : Exec σ Unit :=
  arithmetic B ctx insn (fun _ op0 op1 => add32 op0 op1) carryByte halfCarry

def transSub : Exec σ Unit :=
  arithmetic B ctx insn (fun _ op0 op1 => sub32 op0 op1) borrowByte halfBorrow

def transAddc : Exec σ Unit :=
  arithmetic B ctx insn (fun cy op0 op1 => add32 (add32 op0 op1) cy) carryByte halfCarry

def transSubc : Exec σ Unit :=
  arithmetic B ctx insn (fun cy op0 op1 => sub32 (sub32 op0 op1) cy) borrowByte halfBorrow

def transCmp : Exec σ Unit := do
  let op0 ← rl78GenLoadOperand B ctx insn.operand0 .mo8
  let op1 ← rl78GenLoadOperand B ctx insn.operand1 .mo8
  let result := sub32 op0 op1
  setFlags (borrowByte result) (halfBorrow op0 op1 result) (zeroByte result)

def transCmp0 : Exec σ Unit := do
  let op0 ← rl78GenLoadOperand B ctx insn.operand0 .mo8
  let result := sub32 op0 0
  setFlags (borrowByte result) (halfBorrow op0 0 result) (zeroByte result)

def transCmps : Exec σ Unit := do
  let x ← rl78GenLoadOperand B ctx insn.operand0 .mo8
  let op1 ← rl78GenLoadOperand B ctx insn.operand1 .mo8
  let a ← loadByteReg .a
  let result := sub32 x op1
  modify fun m => m.setAc (halfBorrow x op1 result)
  modify fun m => m.setZ (zeroByte result)
  modify fun m => m.setCy (boolWord (x ≠ op1) ||| boolWord (a = 0) ||| boolWord (x = 0))

/-- `ADDW` and `SUBW` -/
def arithmeticWord (op : Nat → Nat → Nat) (carry : Nat → Nat) : Exec σ Unit := do
  let op0 ← rl78GenLoadOperand B ctx insn.operand0 .mo16
  let op1 ← rl78GenLoadOperand B ctx insn.operand1 .mo16
  let result := op op0 op1
  rl78GenStoreOperand B ctx insn.operand0 result .mo16
  setFlags (carry result) 0 (zeroWord result)

def transAddw : Exec σ Unit := arithmeticWord B ctx insn add32 carryWord

def transSubw : Exec σ Unit := arithmeticWord B ctx insn sub32 borrowWord

def transCmpw : Exec σ Unit := do
  let op0 ← rl78GenLoadOperand B ctx insn.operand0 .mo16
  let op1 ← rl78GenLoadOperand B ctx insn.operand1 .mo16
  let result := sub32 op0 op1
  setFlags (borrowWord result) 0 (zeroWord result)

def transMulu : Exec σ Unit := do
  let a ← loadByteReg .a
  let x ← loadByteReg .x
  storeWordReg .ax (mul32 a x &&& 0xFFFF)

/-- `INC` and `DEC` -/
def step (op : Nat → Nat → Nat) (half : Nat → Nat → Nat → Nat) : Exec σ Unit := do
  let src ← rl78GenLoadOperand B ctx insn.operand0 .mo8
  let result := op src 1
  rl78GenStoreOperand B ctx insn.operand0 result .mo8
  modify fun m => m.setAc (half src 1 result)
  modify fun m => m.setZ (zeroByte result)

def transInc : Exec σ Unit := step B ctx insn add32 halfCarry

def transDec : Exec σ Unit := step B ctx insn sub32 halfBorrow

/-- `INCW` and `DECW` -/
def stepWord (op : Nat → Nat → Nat) : Exec σ Unit := do
  let src ← rl78GenLoadOperand B ctx insn.operand0 .mo16
  rl78GenStoreOperand B ctx insn.operand0 (op src 1) .mo16

def transIncw : Exec σ Unit := stepWord B ctx insn add32

def transDecw : Exec σ Unit := stepWord B ctx insn sub32

/-- `AND`, `OR` and `XOR` -/
def bitwise (op : Nat → Nat → Nat) : Exec σ Unit := do
  let op0 ← rl78GenLoadOperand B ctx insn.operand0 .mo8
  let op1 ← rl78GenLoadOperand B ctx insn.operand1 .mo8
  let result := op op0 op1
  modify fun m => m.setZ (boolWord (result = 0))
  rl78GenStoreOperand B ctx insn.operand0 result .mo8

def transAnd : Exec σ Unit := bitwise B ctx insn (· &&& ·)

def transOr : Exec σ Unit := bitwise B ctx insn (· ||| ·)

def transXor : Exec σ Unit := bitwise B ctx insn (· ^^^ ·)

def transRor : Exec σ Unit := do
  let src ← rl78GenLoadOperand B ctx insn.operand0 .mo8
  let result := ((shl32 src 8 ||| src) >>> 1) &&& 0xFF
  modify fun m => m.setCy (src &&& 1)
  rl78GenStoreOperand B ctx insn.operand0 result .mo8

def transRol : Exec σ Unit := do
  let src ← rl78GenLoadOperand B ctx insn.operand0 .mo8
  let result := (shl32 (shl32 src 8 ||| src) 1 >>> 8) &&& 0xFF
  modify fun m => m.setCy (src >>> 7)
  rl78GenStoreOperand B ctx insn.operand0 result .mo8

def transRorc : Exec σ Unit := do
  let src ← loadByteReg .a
  let m ← get
  let result := (src >>> 1) ||| shl32 m.cpu.psw.cy 7
  modify fun m => m.setCy (src &&& 1)
  storeByteReg .a result

def transRolc : Exec σ Unit := do
  let src ← loadByteReg .a
  let m ← get
  let result := (shl32 src 1 ||| m.cpu.psw.cy) &&& 0xFF
  modify fun m => m.setCy (src >>> 7)
  storeByteReg .a result

def transRolwc : Exec σ Unit := do
  let src ← rl78GenLoadOperand B ctx insn.operand0 .mo16
  let m ← get
  let result := (shl32 src 1 ||| m.cpu.psw.cy) &&& 0xFFFF
  modify fun m => m.setCy ((src >>> 15) &&& 1)
  rl78GenStoreOperand B ctx insn.operand0 result .mo16

def shiftLogicalRight : Exec σ Unit := do
  let src ← rl78GenLoadOperand B ctx insn.operand0 .mo8
  let shamt ← rl78GenLoadOperand B ctx insn.operand1 .mo8
  let result := shl32 src 1 >>> shamt
  modify fun m => m.setCy (result &&& 1)
  rl78GenStoreOperand B ctx insn.operand0 (result >>> 1) .mo8

def shiftLeft (opsize : Nat) : Exec σ Unit := do
  let src ← rl78GenLoadOperand B ctx insn.operand0 .mo8
  let shamt ← rl78GenLoadOperand B ctx insn.operand1 .mo8
  let result := shl32 src shamt
  modify fun m => m.setCy ((result >>> opsize) &&& 1)
  rl78GenStoreOperand B ctx insn.operand0 result .mo8

def shiftArithmeticRight (opsize : Nat) : Exec σ Unit := do
  let src ← rl78GenLoadOperand B ctx insn.operand0 .mo8
  let shamt ← rl78GenLoadOperand B ctx insn.operand1 .mo8
  let alignSize := 32 - opsize
  let result := sar32 (shl32 src alignSize) shamt
  modify fun m => m.setCy ((result >>> (alignSize - 1)) &&& 1)
  rl78GenStoreOperand B ctx insn.operand0 (result >>> alignSize) .mo8

def transShr : Exec σ Unit := shiftLogicalRight B ctx insn

def transShrw : Exec σ Unit := shiftLogicalRight B ctx insn

def transShl : Exec σ Unit := shiftLeft B ctx insn 8

def transShlw : Exec σ Unit := shiftLeft B ctx insn 16

def transSar : Exec σ Unit := shiftArithmeticRight B ctx insn 8

def transSarw : Exec σ Unit := shiftArithmeticRight B ctx insn 16

/-- `AND1`, `OR1` and `XOR1` -/
def bitwise1 (op : Nat → Nat → Nat) : Exec σ Unit := do
  let dst ← rl78GenLoadBit B ctx insn.operand0
  let src ← rl78GenLoadBit B ctx insn.operand1
  rl78GenStoreBit B ctx insn.operand0 { dst with bit := op dst.bit src.bit }

def transAnd1 : Exec σ Unit := bitwise1 B ctx insn (· &&& ·)

def transOr1 : Exec σ Unit := bitwise1 B ctx insn (· ||| ·)

def transXor1 : Exec σ Unit := bitwise1 B ctx insn (· ^^^ ·)

/-- `SET1`, `CLR1` and `NOT1` -/
def changeBit (op : Nat → Nat) : Exec σ Unit := do
  let dst ← rl78GenLoadBit B ctx insn.operand0
  rl78GenStoreBit B ctx insn.operand0 { dst with bit := op dst.bit }

def transSet1 : Exec σ Unit := changeBit B ctx insn fun _ => 1

def transClr1 : Exec σ Unit := changeBit B ctx insn fun _ => 0

def transNot1 : Exec σ Unit := changeBit B ctx insn fun bit => bit ^^^ 1

def transMov1 : Exec σ Unit := do
  let src ← rl78GenLoadBit B ctx insn.operand1
  let dst ← rl78GenLoadBit B ctx insn.operand0
  rl78GenStoreBit B ctx insn.operand0 { dst with bit := src.bit }

def pushData : Exec σ Nat :=
  match insn.operand0 with
  | .wordReg reg => loadWordReg reg
  | .psw => do
    let psw ← loadPsw
    return shl32 psw 8
  | _ => return 0

def transPush : Exec σ Unit := do
  let data ← pushData insn
  modify fun m => m.setSp (sub32 m.cpu.sp 2)
  let addr ← stackAddr ctx
  rl78GenSw B addr data

def popData (data : Nat) : Exec σ Unit :=
  match insn.operand0 with
  | .wordReg reg => storeWordReg reg data
  | .psw => storePsw (data >>> 8)
  | _ => return

def transPop : Exec σ Unit := do
  let addr ← stackAddr ctx
  let data ← rl78GenLw B addr
  modify fun m => m.setSp (add32 m.cpu.sp 2)
  popData insn data

def transSel : Exec σ Unit :=
  match insn.operand0 with
  | .selRb constOp => modify fun m => m.setRbs (constOp &&& 0x03)
  | _ => return

/-- The instructions that end at the end of their code. -/
def translateStraight : Mnemonic → Exec σ Unit
  | .mov => transMov B ctx insn
  | .xch => transXch B ctx insn
  | .oneb => transOneb B ctx insn
  | .clrb => transClrb B ctx insn
  | .movw => transMovw B ctx insn
  | .xchw => transXchw B ctx insn
  | .onew => transOnew B ctx insn
  | .clrw => transClrw B ctx insn
  | .add => transAdd B ctx insn
  | .addc => transAddc B ctx insn
  | .sub => transSub B ctx insn
  | .subc => transSubc B ctx insn
  | .and => transAnd B ctx insn
  | .or => transOr B ctx insn
  | .xor => transXor B ctx insn
  | .cmp => transCmp B ctx insn
  | .cmp0 => transCmp0 B ctx insn
  | .cmps => transCmps B ctx insn
  | .movs => transMovs B ctx insn
  | .addw => transAddw B ctx insn
  | .subw => transSubw B ctx insn
  | .cmpw => transCmpw B ctx insn
  | .mulu => transMulu
  | .inc => transInc B ctx insn
  | .dec => transDec B ctx insn
  | .incw => transIncw B ctx insn
  | .decw => transDecw B ctx insn
  | .shr => transShr B ctx insn
  | .shrw => transShrw B ctx insn
  | .shl => transShl B ctx insn
  | .shlw => transShlw B ctx insn
  | .sar => transSar B ctx insn
  | .sarw => transSarw B ctx insn
  | .ror => transRor B ctx insn
  | .rol => transRol B ctx insn
  | .rorc => transRorc
  | .rolc => transRolc
  | .rolwc => transRolwc B ctx insn
  | .mov1 => transMov1 B ctx insn
  | .and1 => transAnd1 B ctx insn
  | .or1 => transOr1 B ctx insn
  | .xor1 => transXor1 B ctx insn
  | .set1 => transSet1 B ctx insn
  | .clr1 => transClr1 B ctx insn
  | .not1 => transNot1 B ctx insn
  | .push => transPush B ctx insn
  | .pop => transPop B ctx insn
  | .skc => transSkc
  | .sknc => transSknc
  | .skz => transSkz
  | .sknz => transSknz
  | .skh => transSkh
  | .sknh => transSknh
  | .sel => transSel insn
  | _ => return

/-- `translator_table`, without `HALT` and `STOP`, which abort the translation. -/
def translate : Exec σ Exit :=
  match insn.mnemonic with
  | .call => transCall B ctx insn
  | .callt => transCallt B ctx insn
  | .brk => transBrk B ctx
  | .ret => rl78GenRet B ctx false
  | .reti => rl78GenRet B ctx true
  | .retb => rl78GenRet B ctx true
  | .br => transBr ctx insn
  | .bc => transBc ctx insn
  | .bnc => transBnc ctx insn
  | .bz => transBz ctx insn
  | .bnz => transBnz ctx insn
  | .bh => transBh ctx insn
  | .bnh => transBnh ctx insn
  | .bt => transBt B ctx insn
  | .bf => transBf B ctx insn
  | .btclr => transBtclr B ctx insn
  | mnemonic => do
    translateStraight B ctx insn mnemonic
    return .fallThrough

end Tlib.Rl78
