import Mathlib.Logic.Function.Basic
import Tlib.Library.StateTriples
import Tlib.Library.Words
import Tlib.Rl78.Instruction

/-!
Contract: the state of an RL78 CPU and the helpers in C that work on it.

Owns: the registers and the memory system as the CPU uses it.
-/

namespace Tlib.Rl78

open Tlib.Library.Words

structure Psw where
  (cy isp rbs ac z ie : Nat)
deriving DecidableEq, Repr

def ByteRegister.index (reg : ByteRegister) : Nat := reg.ctorIdx

def WordRegister.index (reg : WordRegister) : Nat := reg.ctorIdx

/-- The register file is indexed by bank times 8 plus register. -/
structure Cpu where
  psw : Psw
  regs : Nat → Nat
  (sp pc es cs skipEn skipReq : Nat)
  irqIndex : Int
  irqPriority : Nat

inductive MemOp where
  | mo8 | mo16
deriving DecidableEq, Repr

def MemOp.bits : MemOp → Nat
  | .mo8 => 8
  | .mo16 => 16

/-- The memory system; devices may change with every access. -/
structure Bus (σ : Type) where
  load : MemOp → Nat → σ → Nat × σ
  store : MemOp → Nat → Nat → σ → σ
  readHost : Nat → σ → Nat × σ
  writeHost : Nat → Nat → σ → σ
  lduwPhys : Nat → σ → Nat × σ
  stbPhys : Nat → Nat → σ → σ
  load_lt : ∀ memop addr s, (load memop addr s).1 < 2 ^ memop.bits
  readHost_lt : ∀ paddr s, (readHost paddr s).1 < 2 ^ 8
  lduwPhys_lt : ∀ paddr s, (lduwPhys paddr s).1 < 2 ^ 16

theorem plainByte_lt (paddr : Nat) (s : Nat → Nat) : (s paddr % 2 ^ 8, s).1 < 2 ^ 8 :=
  Nat.mod_lt _ (by decide)

theorem plainWord_lt (paddr : Nat) (s : Nat → Nat) :
    (s paddr % 2 ^ 8 + 2 ^ 8 * (s (paddr + 1) % 2 ^ 8), s).1 < 2 ^ 16 := by
  omega

theorem plainLoad_lt (memop : MemOp) (addr : Nat) (s : Nat → Nat) : (match memop with
      | .mo8 => (s addr % 2 ^ 8, s)
      | .mo16 => (s addr % 2 ^ 8 + 2 ^ 8 * (s (addr + 1) % 2 ^ 8), s)).1 < 2 ^ memop.bits := by
  cases memop with
  | mo8 => exact plainByte_lt addr s
  | mo16 => exact plainWord_lt addr s

/-- The CPU with the memory system, and whether the translator has set `is_jmp` to
`DISAS_UPDATE`. -/
structure Machine (σ : Type) where
  cpu : Cpu
  bus : σ
  update : Bool

namespace Machine

variable {σ : Type} (m : Machine σ)

def setReg (index value : Nat) : Machine σ :=
  { m with cpu.regs := Function.update m.cpu.regs index value }

def setCy (value : Nat) : Machine σ := { m with cpu.psw.cy := value }

def setIsp (value : Nat) : Machine σ := { m with cpu.psw.isp := value }

def setRbs (value : Nat) : Machine σ := { m with cpu.psw.rbs := value }

def setAc (value : Nat) : Machine σ := { m with cpu.psw.ac := value }

def setZ (value : Nat) : Machine σ := { m with cpu.psw.z := value }

def setIe (value : Nat) : Machine σ := { m with cpu.psw.ie := value }

def setSp (value : Nat) : Machine σ := { m with cpu.sp := value }

def setPc (value : Nat) : Machine σ := { m with cpu.pc := value }

def setEs (value : Nat) : Machine σ := { m with cpu.es := value }

def setCs (value : Nat) : Machine σ := { m with cpu.cs := value }

def setSkip (en req : Nat) : Machine σ := { m with cpu.skipEn := en, cpu.skipReq := req }

def setBus (bus : σ) : Machine σ := { m with bus := bus }

def setUpdate (update : Bool) : Machine σ := { m with update := update }

end Machine

abbrev Exec (σ : Type) := StateM (Machine σ)

variable {σ : Type} (B : Bus σ)

def busLoad (memop : MemOp) (addr : Nat) : Exec σ Nat := fun m =>
  ((B.load memop addr m.bus).1, m.setBus (B.load memop addr m.bus).2)

def busStore (memop : MemOp) (addr data : Nat) : Exec σ Unit :=
  modify fun m => m.setBus (B.store memop addr data m.bus)

def busReadHost (paddr : Nat) : Exec σ Nat := fun m =>
  ((B.readHost paddr m.bus).1, m.setBus (B.readHost paddr m.bus).2)

def busWriteHost (paddr data : Nat) : Exec σ Unit :=
  modify fun m => m.setBus (B.writeHost paddr data m.bus)

def lduwPhys (paddr : Nat) : Exec σ Nat := fun m =>
  ((B.lduwPhys paddr m.bus).1, m.setBus (B.lduwPhys paddr m.bus).2)

def stbPhys (paddr data : Nat) : Exec σ Unit :=
  modify fun m => m.setBus (B.stbPhys paddr data m.bus)

/-- The bits of the fields are apart. -/
def cpuPackPsw (p : Psw) : Nat :=
  p.cy % 2 + 2 * (p.isp % 4) + 8 * (p.rbs % 2) + 16 * (p.ac % 2) + 32 * (p.rbs / 2 % 2) +
    64 * (p.z % 2) + 128 * (p.ie % 2)

def cpuUnpackPsw (v : Nat) : Psw where
  cy := extract v 0 1
  isp := extract v 1 2
  rbs := extract v 3 1 + 2 * extract v 5 1
  ac := extract v 4 1
  z := extract v 6 1
  ie := extract v 7 1

def helperReg (psw : Psw) (reg : Nat) : Nat := (psw.rbs &&& 3) * 8 + reg

def getRp (rp : WordRegister) : Exec σ Nat := do
  let m ← get
  let lo := m.cpu.regs (helperReg m.cpu.psw (rp.index * 2)) &&& 0xFF
  let hi := m.cpu.regs (helperReg m.cpu.psw (rp.index * 2 + 1)) &&& 0xFF
  return lo ||| hi <<< 8

def setRp (rp : WordRegister) (value : Nat) : Exec σ Unit := do
  modify fun m => m.setReg (helperReg m.cpu.psw (rp.index * 2)) (value &&& 0xFF)
  modify fun m => m.setReg (helperReg m.cpu.psw (rp.index * 2 + 1)) ((value >>> 8) &&& 0xFF)

def macrlPaddr : Nat := 0xFFFF0

def loadMacr : Exec σ Nat := do
  let byte0 ← busReadHost B macrlPaddr
  let byte1 ← busReadHost B (macrlPaddr + 1)
  let byte2 ← busReadHost B (macrlPaddr + 2)
  let byte3 ← busReadHost B (macrlPaddr + 3)
  return byte0 ||| byte1 <<< 8 ||| (byte2 ||| byte3 <<< 8) <<< 16

def storeMacr (macr : Nat) : Exec σ Unit := do
  busWriteHost B macrlPaddr (macr &&& 0xFF)
  busWriteHost B (macrlPaddr + 1) ((macr >>> 8) &&& 0xFF)
  busWriteHost B (macrlPaddr + 2) ((macr >>> 16) &&& 0xFF)
  busWriteHost B (macrlPaddr + 3) ((macr >>> 24) &&& 0xFF)

def mduMul (product : Nat) : Exec σ Unit := do
  setRp .ax (product &&& 0xFFFF)
  setRp .bc ((product >>> 16) &&& 0xFFFF)

def mduDivhu : Exec σ Unit := do
  let ax ← getRp .ax
  let de ← getRp .de
  if de = 0 then
    setRp .ax 0xFFFF
    setRp .de ax
  else
    setRp .ax (ax / de)
    setRp .de (ax % de)

def mduDivwu : Exec σ Unit := do
  let ax ← getRp .ax
  let bc ← getRp .bc
  let de ← getRp .de
  let hl ← getRp .hl
  let dividend := ax ||| bc <<< 16
  let divisor := de ||| hl <<< 16
  if divisor = 0 then
    setRp .ax 0xFFFF
    setRp .bc 0xFFFF
    setRp .de ax
    setRp .hl bc
  else
    setRp .ax (dividend / divisor &&& 0xFFFF)
    setRp .bc ((dividend / divisor) >>> 16 &&& 0xFFFF)
    setRp .de (dividend % divisor &&& 0xFFFF)
    setRp .hl ((dividend % divisor) >>> 16 &&& 0xFFFF)

def mduMachu : Exec σ Unit := do
  let ax ← getRp .ax
  let bc ← getRp .bc
  let macr ← loadMacr B
  let sum := macr + ax * bc
  storeMacr B (sum % 2 ^ 32)
  modify fun m => m.setCy (if sum > 0xFFFFFFFF then 1 else 0)
  modify fun m => m.setAc 0
  modify fun m => m.setZ 0

def mduMach : Exec σ Unit := do
  let ax ← getRp .ax
  let bc ← getRp .bc
  let macr ← loadMacr B
  let product := mul32 (signed16 ax) (signed16 bc)
  let result := add32 macr product
  let ov := ((macr ^^^ result) &&& (product ^^^ result)) >>> 31
  storeMacr B result
  modify fun m => m.setCy (ov &&& 1)
  modify fun m => m.setAc ((result >>> 31) &&& 1)
  modify fun m => m.setZ 0

def helperMduCmd (cmd : Nat) : Exec σ Unit :=
  match cmd &&& 0xFF with
  | 0x01 => do
    let ax ← getRp .ax
    let bc ← getRp .bc
    mduMul (mul32 ax bc)
  | 0x02 => do
    let ax ← getRp .ax
    let bc ← getRp .bc
    mduMul (mul32 (signed16 ax) (signed16 bc))
  | 0x03 => mduDivhu
  | 0x05 => mduMachu B
  | 0x06 => mduMach B
  | 0x0B => mduDivwu
  | _ => return

def readByte (paddr : Nat) : Exec σ Nat := do
  let m ← get
  match paddr with
  | 0xFFFF8 => return m.cpu.sp &&& 0xFF
  | 0xFFFF9 => return (m.cpu.sp >>> 8) &&& 0xFF
  | 0xFFFFA => return cpuPackPsw m.cpu.psw
  | 0xFFFFC => return m.cpu.cs &&& 0x0F
  | 0xFFFFD => return m.cpu.es &&& 0x0F
  | _ => busReadHost B paddr

def writeByte (paddr value : Nat) : Exec σ Unit :=
  let data := value &&& 0xFF
  match paddr with
  | 0xFFFF8 => modify fun m => m.setSp (((m.cpu.sp &&& 0xFF00) ||| data) &&& 0xFFFE)
  | 0xFFFF9 => modify fun m => m.setSp (((m.cpu.sp &&& 0x00FF) ||| data <<< 8) &&& 0xFFFE)
  | 0xFFFFA => modify fun m => { m with cpu.psw := cpuUnpackPsw data }
  | 0xFFFFB => helperMduCmd B data
  | 0xFFFFC => modify fun m => m.setCs (data &&& 0x0F)
  | 0xFFFFD => modify fun m => m.setEs (data &&& 0x0F)
  | _ => busWriteHost B paddr data

def helperStb (paddr data : Nat) : Exec σ Unit := writeByte B paddr data

def helperBtclrPaddr (paddr bit : Nat) : Exec σ Nat := do
  let mask := 1 <<< (bit &&& 7)
  let byte ← readByte B paddr
  if byte &&& mask = 0 then return 0
  else
    writeByte B paddr (byte &&& (0xFF ^^^ mask))
    return 1

def btclrCy : Exec σ Nat := do
  let m ← get
  if m.cpu.psw.cy &&& 1 = 0 then return 0
  else
    modify fun m => m.setCy 0
    return 1

def btclrRegA (bit : Nat) : Exec σ Nat := do
  let m ← get
  let mask := 1 <<< (bit &&& 7)
  let byte := m.cpu.regs (helperReg m.cpu.psw ByteRegister.a.index) &&& 0xFF
  if byte &&& mask = 0 then return 0
  else
    modify fun m => m.setReg (helperReg m.cpu.psw ByteRegister.a.index) (byte &&& (0xFF ^^^ mask))
    return 1

/-- The address of the operand of `BTCLR` in memory. -/
def btclrPaddr (cpu : Cpu) (kind : BitOpKind) (addr : Nat) (useEs : Bool) : Nat :=
  match kind with
  | .saddr => (if addr < 0x20 then 0xFFF00 else 0xFFE00) + (addr &&& 0xFF)
  | .sfr => 0xFFF00 + (addr &&& 0xFF)
  | .abs16 =>
    if useEs then (cpu.es &&& 0x0F) <<< 16 ||| (addr &&& 0xFFFF) else (addr &&& 0xFFFF) ||| 0xF0000
  | .indHl =>
    let l := cpu.regs (helperReg cpu.psw ByteRegister.l.index) &&& 0xFF
    let h := cpu.regs (helperReg cpu.psw ByteRegister.h.index) &&& 0xFF
    let hl := l ||| h <<< 8
    if useEs then (cpu.es &&& 0x0F) <<< 16 ||| hl else hl ||| 0xF0000
  | .regA | .cy => 0

def helperBtclr (kind : BitOpKind) (addr bit : Nat) (useEs : Bool) : Exec σ Nat := do
  let m ← get
  match kind with
  | .cy => btclrCy
  | .regA => btclrRegA bit
  | _ => helperBtclrPaddr B (btclrPaddr m.cpu kind addr useEs) bit

def cpuReset : Exec σ Unit := do
  let pc ← lduwPhys B 0
  modify fun m =>
    { m with
      cpu :=
        { psw := { cy := 0, isp := 3, rbs := 0, ac := 0, z := 0, ie := 0 }
          regs := fun _ => 0
          sp := 0
          pc := pc
          es := 0x0F
          cs := 0
          skipEn := 0
          skipReq := 0
          irqIndex := -1
          irqPriority := 0 }
      update := false }

def doInterrupt (exceptionIndex : Nat) : Exec σ Unit := do
  let m ← get
  let psw := cpuPackPsw m.cpu.psw
  let sp := sub32 m.cpu.sp 4
  let stackAddr := 0xF0000 ||| sp
  modify fun m => m.setSp sp
  stbPhys B stackAddr (m.cpu.pc &&& 0xFF)
  stbPhys B (add32 stackAddr 1) ((m.cpu.pc >>> 8) &&& 0xFF)
  stbPhys B (add32 stackAddr 2) ((m.cpu.pc >>> 16) &&& 0xFF)
  stbPhys B (add32 stackAddr 3) psw
  let pc ← lduwPhys B (exceptionIndex * 2 + 4)
  modify fun m => m.setIe 0
  modify fun m => m.setIsp m.cpu.irqPriority
  modify fun m => m.setPc pc
  modify fun m => { m with cpu.irqIndex := -1 }

def acceptsInterrupt (cpu : Cpu) : Bool :=
  cpu.psw.ie ≠ 0 && cpu.skipEn = 0 && 0 ≤ cpu.irqIndex && cpu.irqPriority < cpu.psw.isp + 1

def processInterrupt : Exec σ Unit := do
  let m ← get
  if acceptsInterrupt m.cpu then doInterrupt B m.cpu.irqIndex.toNat
  else return

end Tlib.Rl78
