import Mathlib.Algebra.Group.Nat.Defs
import Mathlib.Tactic.TypeStar

/-!
Contract: decoded RL78 instructions.

Owns: the registers, the kinds of operands, and the mnemonics, of which the last stands for every
opcode without an entry.
-/

namespace Tlib.Rl78

inductive ByteRegister where
  | x | a | c | b | e | d | l | h
deriving DecidableEq, Repr

inductive WordRegister where
  | ax | bc | de | hl
deriving DecidableEq, Repr

inductive BitOpKind where
  | saddr | sfr | regA | abs16 | indHl | cy
deriving DecidableEq, Repr

/-- The operands; 0 where the number is read from the bytes after the opcode. -/
inductive Operand where
  | none
  | byteReg (reg : ByteRegister)
  | wordReg (reg : WordRegister)
  | psw
  | sp
  | es
  | cy
  | bit (kind : BitOpKind) (bit : Nat) (addr : Nat := 0)
  | imm8 (constOp : Nat := 0)
  | imm16 (constOp : Nat := 0)
  | abs16 (constOp : Nat := 0)
  | abs20 (constOp : Nat := 0)
  | saddr (constOp : Nat := 0)
  | sfr (constOp : Nat := 0)
  | indRegReg (base : WordRegister) (idx : ByteRegister)
  | indRegImm (base : WordRegister) (imm : Nat := 0)
  | indReg (base : WordRegister)
  | indSpImm (imm : Nat := 0)
  | indBaseByte (idx : ByteRegister) (base : Nat := 0)
  | indBaseWord (idx : WordRegister) (base : Nat := 0)
  | shamt (constOp : Nat)
  | rel8 (constOp : Nat := 0)
  | rel16 (constOp : Nat := 0)
  | callt (constOp : Nat)
  | selRb (constOp : Nat)
deriving DecidableEq, Repr

inductive Mnemonic where
  | mov | xch | oneb | clrb | movw | xchw | onew | clrw | add | addc | sub | subc | and | or
  | xor | cmp | cmp0 | cmps | movs | addw | subw | cmpw | mulu | inc | dec | incw | decw | shr
  | shrw | shl | shlw | sar | sarw | ror | rol | rorc | rolc | rolwc | mov1 | and1 | or1
  | xor1 | set1 | clr1 | not1 | call | callt | brk | ret | reti | retb | push | pop | br | bc
  | bnc | bz | bnz | bh | bnh | bt | bf | btclr | skc | sknc | skz | sknz | skh | sknh | sel
  | nop | halt | stop | unknown
deriving DecidableEq, Repr

structure Instruction where
  mnemonic : Mnemonic
  operand0 : Operand := .none
  operand1 : Operand := .none
deriving DecidableEq, Repr

/-- The entry of a byte that is no opcode of its map. -/
def Instruction.unknown : Instruction := { mnemonic := .unknown }

end Tlib.Rl78
