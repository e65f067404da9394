import Tlib.Rl78.Cpu

/-!
Contract: how generated code loads and stores the operands of an instruction.

Owns: the addresses of operands, the accesses to registers, and which of them go through helpers.
-/

namespace Tlib.Rl78

open Tlib.Library.Words

variable {σ : Type} (B : Bus σ)

/-- What the translator knows of an instruction. -/
structure Context where
  useEs : Bool
  (pc tbPc : Nat)
deriving DecidableEq, Repr

variable (ctx : Context)

def rl78GenAddr (addr : Nat) : Exec σ Nat := do
  let m ← get
  return addr ||| if ctx.useEs then shl32 m.cpu.es 16 else 0xF0000

/-- Words are accessed at even addresses. -/
def actualAddr (addr : Nat) : MemOp → Nat
  | .mo8 => addr
  | .mo16 => addr / 2 * 2

def rl78GenLoad (addr : Nat) (memop : MemOp) : Exec σ Nat := busLoad B memop (actualAddr addr memop)

def rl78GenStore (addr data : Nat) (memop : MemOp) : Exec σ Unit :=
  busStore B memop (actualAddr addr memop) data

def rl78GenLb (addr : Nat) : Exec σ Nat := rl78GenLoad B addr .mo8

def rl78GenLw (addr : Nat) : Exec σ Nat := rl78GenLoad B (addr / 2 * 2) .mo16

def rl78GenSb (addr data : Nat) : Exec σ Unit := rl78GenStore B addr data .mo8

def rl78GenSw (addr data : Nat) : Exec σ Unit := rl78GenStore B (addr / 2 * 2) data .mo16

/-- The place of a register of the current bank in the register file. -/
def regPtr (reg : Nat) : Exec σ Nat := do
  let m ← get
  return add32 (shl32 m.cpu.psw.rbs 5) (4 * reg) / 4

def loadByteReg (reg : ByteRegister) : Exec σ Nat := do
  let place ← regPtr reg.index
  let m ← get
  return m.cpu.regs place &&& 0xFF

def loadWordReg (reg : WordRegister) : Exec σ Nat := do
  let place ← regPtr (reg.index * 2)
  let m ← get
  return (m.cpu.regs place &&& 0xFF) ||| shl32 (m.cpu.regs (place + 1)) 8

def storeByteReg (reg : ByteRegister) (data : Nat) : Exec σ Unit := do
  let place ← regPtr reg.index
  modify fun m => m.setReg place (data &&& 0xFF)

def storeWordReg (reg : WordRegister) (data : Nat) : Exec σ Unit := do
  let place ← regPtr (reg.index * 2)
  modify fun m => m.setReg place (data &&& 0xFF)
  modify fun m => m.setReg (place + 1) ((data >>> 8) &&& 0xFF)

def pswWord (psw : Psw) : Nat :=
  let ret := deposit psw.cy psw.isp 1 2
  let ret := deposit ret (extract psw.rbs 0 1) 3 1
  let ret := deposit ret psw.ac 4 1
  let ret := deposit ret (extract psw.rbs 1 1) 5 1
  let ret := deposit ret psw.z 6 1
  deposit ret psw.ie 7 1

def loadPsw : Exec σ Nat := do
  let m ← get
  return pswWord m.cpu.psw

def storePsw (psw : Nat) : Exec σ Unit := do
  modify fun m => m.setCy (extract psw 0 1)
  modify fun m => m.setIsp (extract psw 1 2)
  modify fun m => m.setAc (extract psw 4 1)
  modify fun m => m.setZ (extract psw 6 1)
  modify fun m => m.setIe (extract psw 7 1)
  modify fun m => m.setRbs (deposit (deposit 0 (extract psw 3 1) 0 1) (extract psw 5 1) 1 1)
  modify fun m => m.setUpdate true

def loadSp : Exec σ Nat := do
  let m ← get
  return m.cpu.sp &&& 0xFFFE

def storeSp (sp : Nat) : Exec σ Unit := modify fun m => m.setSp (sp &&& 0xFFFE)

def loadEs : Exec σ Nat := do
  let m ← get
  return m.cpu.es

def storeEs (data : Nat) : Exec σ Unit := modify fun m => m.setEs data

def loadPswCy : Exec σ Nat := do
  let m ← get
  return m.cpu.psw.cy

def storePswCy (data : Nat) : Exec σ Unit := modify fun m => m.setCy data

def loadBytePaddr (paddr : Nat) : Exec σ Nat := do
  match paddr with
  | 0xFFFF8 =>
    let sp ← loadSp
    return extract sp 0 8
  | 0xFFFF9 =>
    let sp ← loadSp
    return extract sp 8 8
  | 0xFFFFA => loadPsw
  | 0xFFFFC =>
    let m ← get
    return m.cpu.cs
  | 0xFFFFD => loadEs
  | _ => rl78GenLoad B paddr .mo8

def loadWordPaddr (paddr : Nat) : Exec σ Nat :=
  match paddr with
  | 0xFFFF8 => loadSp
  | _ => rl78GenLoad B paddr .mo16

def loadPaddr (paddr : Nat) : MemOp → Exec σ Nat
  | .mo8 => loadBytePaddr B paddr
  | .mo16 => loadWordPaddr B paddr

def storeBytePaddr (paddr data : Nat) : Exec σ Unit := do
  match paddr with
  | 0xFFFF8 =>
    let m ← get
    storeSp (deposit m.cpu.sp (extract data 0 8) 0 8)
  | 0xFFFF9 =>
    let m ← get
    storeSp (deposit m.cpu.sp data 8 8)
  | 0xFFFFA => storePsw data
  | 0xFFFFB => helperMduCmd B data
  | 0xFFFFC => modify fun m => m.setCs (deposit m.cpu.cs data 0 4)
  | 0xFFFFD => modify fun m => m.setEs (deposit m.cpu.es data 0 4)
  | _ => helperStb B paddr data

def storeWordPaddr (paddr data : Nat) : Exec σ Unit :=
  match paddr with
  | 0xFFFF8 => storeSp data
  | _ => rl78GenStore B paddr data .mo16

def storePaddr (paddr data : Nat) : MemOp → Exec σ Unit
  | .mo8 => storeBytePaddr B paddr data
  | .mo16 => storeWordPaddr B paddr data

def loadAbs16 (addr : Nat) (memop : MemOp) : Exec σ Nat :=
  if ctx.useEs then do
    let a ← rl78GenAddr ctx addr
    rl78GenLoad B a memop
  else loadPaddr B (addr ||| 0xF0000) memop

def storeAbs16 (addr data : Nat) (memop : MemOp) : Exec σ Unit :=
  if ctx.useEs then do
    let a ← rl78GenAddr ctx addr
    rl78GenStore B a data memop
  else storePaddr B (addr ||| 0xF0000) data memop

def saddrPaddr (saddr : Nat) : Nat := (if saddr < 0x20 then 0xFFF00 else 0xFFE00) + saddr

def loadSaddr (saddr : Nat) (memop : MemOp) : Exec σ Nat := loadPaddr B (saddrPaddr saddr) memop

def storeSaddr (saddr data : Nat) (memop : MemOp) : Exec σ Unit :=
  storePaddr B (saddrPaddr saddr) data memop

def loadSfr (sfr : Nat) (memop : MemOp) : Exec σ Nat := loadPaddr B (0xFFF00 + sfr) memop

def storeSfr (sfr data : Nat) (memop : MemOp) : Exec σ Unit :=
  storePaddr B (0xFFF00 + sfr) data memop

def indReg (base : WordRegister) : Exec σ Nat := do
  let base ← loadWordReg base
  rl78GenAddr ctx base

def indRegReg (base : WordRegister) (idx : ByteRegister) : Exec σ Nat := do
  let base ← loadWordReg base
  let idx ← loadByteReg idx
  rl78GenAddr ctx (add32 base idx)

def indRegImm (base : WordRegister) (imm : Nat) : Exec σ Nat := do
  let base ← loadWordReg base
  rl78GenAddr ctx (add32 base imm)

def indSpImm (imm : Nat) : Exec σ Nat := do
  let sp ← loadSp
  rl78GenAddr ctx (add32 sp imm)

def indBaseByte (base : Nat) (idx : ByteRegister) : Exec σ Nat := do
  let idx ← loadByteReg idx
  rl78GenAddr ctx (add32 idx base)

def indBaseWord (base : Nat) (idx : WordRegister) : Exec σ Nat := do
  let idx ← loadWordReg idx
  rl78GenAddr ctx (add32 idx base)

def indAddr : Operand → Option (Exec σ Nat)
  | .indReg base => some (indReg ctx base)
  | .indRegReg base idx => some (indRegReg ctx base idx)
  | .indRegImm base imm => some (indRegImm ctx base imm)
  | .indSpImm imm => some (indSpImm ctx imm)
  | .indBaseByte idx base => some (indBaseByte ctx base idx)
  | .indBaseWord idx base => some (indBaseWord ctx base idx)
  | _ => none

/-- Other operands abort the translation. -/
def rl78GenLoadOperand (op : Operand) (memop : MemOp) : Exec σ Nat :=
  match op with
  | .byteReg reg => loadByteReg reg
  | .wordReg reg => loadWordReg reg
  | .psw => loadPsw
  | .sp => loadSp
  | .es => loadEs
  | .cy => loadPswCy
  | .imm8 constOp => return constOp &&& 0xFF
  | .imm16 constOp => return constOp &&& 0xFFFF
  | .abs16 addr => loadAbs16 B ctx addr memop
  | .saddr saddr => loadSaddr B saddr memop
  | .sfr sfr => loadSfr B sfr memop
  | .shamt constOp => return constOp &&& 0x1F
  | .selRb constOp => return constOp &&& 0x03
  | op =>
    match indAddr ctx op with
    | some addr => do
      let addr ← addr
      rl78GenLoad B addr memop
    | none => return 0

def rl78GenStoreOperand (op : Operand) (data : Nat) (memop : MemOp) : Exec σ Unit :=
  match op with
  | .byteReg reg => storeByteReg reg data
  | .wordReg reg => storeWordReg reg data
  | .psw => storePsw data
  | .sp => storeSp data
  | .es => storeEs data
  | .cy => storePswCy data
  | .abs16 addr => storeAbs16 B ctx addr data memop
  | .saddr saddr => storeSaddr B saddr data memop
  | .sfr sfr => storeSfr B sfr data memop
  | op =>
    match indAddr ctx op with
    | some addr => do
      let addr ← addr
      rl78GenStore B addr data memop
    | none => return

structure BitData where
  (byte bit : Nat)

def bitByte (kind : BitOpKind) (addr : Nat) : Exec σ Nat :=
  match kind with
  | .saddr => loadSaddr B addr .mo8
  | .sfr => loadSfr B addr .mo8
  | .regA => loadByteReg .a
  | .abs16 => loadAbs16 B ctx addr .mo8
  | .indHl => rl78GenLoadOperand B ctx (.indRegImm .hl 0) .mo8
  | .cy => loadPswCy

def rl78GenLoadBit (op : Operand) : Exec σ BitData :=
  match op with
  | .bit kind index addr => do
    let data ← bitByte B ctx kind addr
    return { byte := data, bit := (data >>> index) &&& 1 }
  | _ => return { byte := 0, bit := 0 }

def rl78GenStoreBit (op : Operand) (bit : BitData) : Exec σ Unit :=
  match op with
  | .bit kind index addr =>
    let mask := shl32 1 index
    let storedData := (bit.byte &&& ((2 ^ 32 - 1) ^^^ mask)) ||| shl32 bit.bit index
    match kind with
    | .saddr => storeSaddr B addr storedData .mo8
    | .sfr => storeSfr B addr storedData .mo8
    | .regA => storeByteReg .a storedData
    | .abs16 => storeAbs16 B ctx addr storedData .mo8
    | .indHl => rl78GenStoreOperand B ctx (.indRegImm .hl 0) storedData .mo8
    | .cy => storePswCy storedData
  | _ => return

end Tlib.Rl78
