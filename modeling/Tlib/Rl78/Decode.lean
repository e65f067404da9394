import Tlib.Rl78.DecodeTables

/-!
Contract: the instruction decoder of the RL78.

Owns: how the maps are chained, the operands that follow the opcode, and the mnemonics without a
translator. Does not own: what an instruction does.
-/

namespace Tlib.Rl78

/-- What the decoder changes, with the bytes that it has read. -/
structure DisasContext where
  pc : Nat
  useEs : Bool
  bytes : List Nat
deriving DecidableEq, Repr

def DisasContext.start (pc : Nat) : DisasContext :=
  { pc := pc % 2 ^ 32, useEs := false, bytes := [] }

variable (code : Nat → Nat)

def loadByte (pc offset : Nat) : Nat := code ((pc + offset) % 2 ^ 32) % 256

def fetch (count : Nat) (ctx : DisasContext) : DisasContext :=
  { ctx with
    pc := (ctx.pc + count) % 2 ^ 32
    bytes := ctx.bytes ++ (List.range count).map (loadByte code ctx.pc) }

def decodeByteOp (ctx : DisasContext) (operand : Nat → Operand) : DisasContext × Operand :=
  (fetch code 1 ctx, operand (loadByte code ctx.pc 0))

def decodeWordOp (ctx : DisasContext) (operand : Nat → Operand) : DisasContext × Operand :=
  (fetch code 2 ctx, operand (loadByte code ctx.pc 0 + 2 ^ 8 * loadByte code ctx.pc 1))

def decode20bitOp (ctx : DisasContext) (operand : Nat → Operand) : DisasContext × Operand :=
  (fetch code 3 ctx, operand (loadByte code ctx.pc 0 + 2 ^ 8 * loadByte code ctx.pc 1 +
    2 ^ 16 * loadByte code ctx.pc 2))

def decodeBitOp (ctx : DisasContext) (kind : BitOpKind) (bit : Nat) : DisasContext × Operand :=
  match kind with
  | .abs16 => decodeWordOp code ctx (.bit kind bit ·)
  | .saddr | .sfr => decodeByteOp code ctx (.bit kind bit ·)
  | .regA | .indHl | .cy => (ctx, .bit kind bit 0)

/-- `decode_operand_table` -/
def decodeOperand (ctx : DisasContext) : Operand → DisasContext × Operand
  | .bit kind bit _ => decodeBitOp code ctx kind bit
  | .imm8 _ => decodeByteOp code ctx (.imm8 ·)
  | .imm16 _ => decodeWordOp code ctx (.imm16 ·)
  | .abs16 _ => decodeWordOp code ctx (.abs16 ·)
  | .abs20 _ => decode20bitOp code ctx (.abs20 ·)
  | .saddr _ => decodeByteOp code ctx (.saddr ·)
  | .sfr _ => decodeByteOp code ctx (.sfr ·)
  | .indRegImm base _ => decodeByteOp code ctx (.indRegImm base ·)
  | .indSpImm _ => decodeByteOp code ctx (.indSpImm ·)
  | .indBaseByte idx _ => decodeWordOp code ctx (.indBaseByte idx ·)
  | .indBaseWord idx _ => decodeWordOp code ctx (.indBaseWord idx ·)
  | .rel8 _ => decodeByteOp code ctx (.rel8 ·)
  | .rel16 _ => decodeWordOp code ctx (.rel16 ·)
  | op => (ctx, op)

inductive OpcodeMap where
  | first | second | third | fourth
deriving DecidableEq, Repr

def OpcodeMap.table : OpcodeMap → List Instruction
  | .first => decodeTable1stMap
  | .second => decodeTable2ndMap
  | .third => decodeTable3rdMap
  | .fourth => decodeTable4thMap

def OpcodeMap.entry (map : OpcodeMap) (byte : Nat) : Instruction := map.table.getD byte .unknown

inductive UnknownHandlerResult where
  | unknownInsn | useMap2 | useMap3 | useMap4 | usePrefix
deriving DecidableEq, Repr

def unknownHandler (map : OpcodeMap) (byte : Nat) (isFirstByte : Bool) : UnknownHandlerResult :=
  if map = .first ∧ isFirstByte = true ∧ byte = 0x11 then .usePrefix
  else if map = .first ∧ byte = 0x31 then .useMap4
  else if map = .first ∧ byte = 0x61 then .useMap2
  else if map = .first ∧ byte = 0x71 then .useMap3
  else .unknownInsn

theorem unknownHandler_map {map : OpcodeMap} {byte : Nat} {isFirstByte : Bool}
    (continues : unknownHandler map byte isFirstByte ≠ .unknownInsn) : map = .first := by
  unfold unknownHandler at continues
  split at continues
  next here => exact here.1
  split at continues
  next here => exact here.1
  split at continues
  next here => exact here.1
  split at continues
  next here => exact here.1
  next => exact absurd rfl continues

theorem unknownHandler_usePrefix {map : OpcodeMap} {byte : Nat} {isFirstByte : Bool}
    (escape : unknownHandler map byte isFirstByte = .usePrefix) : isFirstByte = true := by
  unfold unknownHandler at escape
  split at escape
  next here => exact here.2.1
  split at escape <;> try cases escape
  split at escape <;> try cases escape
  split at escape <;> cases escape

/-- The loop of `decode`; only the first map leads to another one. -/
def decodeOpcode (map : OpcodeMap) (isFirstByte : Bool) (ctx : DisasContext) :
    DisasContext × Option Instruction :=
  let byte := loadByte code ctx.pc 0
  let insn := map.entry byte
  if insn.mnemonic ≠ .unknown then (fetch code 1 ctx, some insn)
  else match _escape : unknownHandler map byte isFirstByte with
    | .useMap2 => decodeOpcode .second false (fetch code 1 ctx)
    | .useMap3 => decodeOpcode .third false (fetch code 1 ctx)
    | .useMap4 => decodeOpcode .fourth false (fetch code 1 ctx)
    | .usePrefix => decodeOpcode map false { fetch code 1 ctx with useEs := true }
    -- the byte has been read, but the program counter stays where it is
    | .unknownInsn => ({ ctx with bytes := ctx.bytes ++ [byte] }, none)
termination_by (if map = .first then 1 else 0) + isFirstByte.toNat
decreasing_by
  all_goals
    have first := unknownHandler_map (by rw [_escape]; simp)
    simp only [first, if_true, if_false, Bool.toNat_false]
    try rw [unknownHandler_usePrefix _escape, Bool.toNat_true]
    omega

/-- Every mnemonic but the last has an entry in `translator_table`. -/
def hasTranslator : Mnemonic → Bool
  | .unknown => false
  | _ => true

def decode (ctx : DisasContext) : DisasContext × Option Instruction :=
  match decodeOpcode code .first true ctx with
  | (ctx, none) => (ctx, none)
  | (ctx, some insn) =>
    let (ctx, operand0) := decodeOperand code ctx insn.operand0
    let (ctx, operand1) := decodeOperand code ctx insn.operand1
    if hasTranslator insn.mnemonic then
      (ctx, some { mnemonic := insn.mnemonic, operand0 := operand0, operand1 := operand1 })
    else (ctx, none)

end Tlib.Rl78
