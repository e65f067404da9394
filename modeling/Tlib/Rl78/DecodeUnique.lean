import Tlib.Library.DistinctKeys
import Tlib.Rl78.Decode

/-!
Contract: the bytes that one decoding reads, and the encodings that denote one instruction.

Owns: where the opcode stands and how many bytes are read.
-/

namespace Tlib.Rl78

open Tlib.Library.DistinctKeys List

variable {code : Nat → Nat} {pc count : Nat} {ctx : DisasContext}

/-! ### The place of the opcode -/

def escapedMap (byte : Nat) : OpcodeMap :=
  if byte = 0x31 then .fourth
  else if byte = 0x61 then .second
  else if byte = 0x71 then .third
  else .first

def prefixCount (code : Nat → Nat) (pc : Nat) : Nat := if loadByte code pc 0 = 0x11 then 1 else 0

def opcodeMap (code : Nat → Nat) (pc : Nat) : OpcodeMap :=
  escapedMap (loadByte code pc (prefixCount code pc))

def opcodeOffset (code : Nat → Nat) (pc : Nat) : Nat :=
  prefixCount code pc + if opcodeMap code pc = .first then 0 else 1

def opcodeByte (code : Nat → Nat) (pc : Nat) : Nat := loadByte code pc (opcodeOffset code pc)

def opcodeEntry (code : Nat → Nat) (pc : Nat) : Instruction :=
  (opcodeMap code pc).entry (opcodeByte code pc)

theorem opcodeOffset_le : opcodeOffset code pc ≤ 2 := by
  unfold opcodeOffset prefixCount
  split <;> split <;> omega

/-! ### Bytes read so far -/

/-- A number of bytes has been read from the start of the instruction. -/
structure ReadFrom (code : Nat → Nat) (pc count : Nat) (ctx : DisasContext) : Prop where
  pc_eq : ctx.pc = (pc + count) % 2 ^ 32
  bytes_eq : ctx.bytes = (range count).map (loadByte code pc)

theorem ReadFrom.start : ReadFrom code pc 0 (.start pc) := ⟨rfl, rfl⟩

theorem ReadFrom.loadByte_pc (read : ReadFrom code pc count ctx) (offset : Nat) :
    loadByte code ctx.pc offset = loadByte code pc (count + offset) := by
  unfold loadByte
  rw [read.pc_eq, Nat.mod_add_mod, Nat.add_assoc]

theorem ReadFrom.fetch (read : ReadFrom code pc count ctx) (more : Nat) :
    ReadFrom code pc (count + more) (fetch code more ctx) := by
  refine ⟨?_, ?_⟩
  · unfold Rl78.fetch
    rw [read.pc_eq, Nat.mod_add_mod, Nat.add_assoc]
  · unfold Rl78.fetch
    dsimp only
    rw [read.bytes_eq, range_add, map_append, map_map]
    congr 1
    exact map_congr_left fun offset _ => read.loadByte_pc offset

theorem ReadFrom.length (read : ReadFrom code pc count ctx) : ctx.bytes.length = count := by
  rw [read.bytes_eq, length_map, length_range]

/-! ### The loop -/

def lastRound (code : Nat → Nat) (map : OpcodeMap) (ctx : DisasContext) :
    DisasContext × Option Instruction :=
  if (map.entry (loadByte code ctx.pc 0)).mnemonic ≠ .unknown then
    (fetch code 1 ctx, some (map.entry (loadByte code ctx.pc 0)))
  else ({ ctx with bytes := ctx.bytes ++ [loadByte code ctx.pc 0] }, none)

theorem decodeOpcode_known {map : OpcodeMap} {isFirstByte : Bool}
    (known : (map.entry (loadByte code ctx.pc 0)).mnemonic ≠ .unknown) :
    decodeOpcode code map isFirstByte ctx = lastRound code map ctx := by
  unfold decodeOpcode lastRound
  rw [if_pos known, if_pos known]

theorem decodeOpcode_unknown {map : OpcodeMap} {isFirstByte : Bool}
    (unknown : (map.entry (loadByte code ctx.pc 0)).mnemonic = .unknown) :
    decodeOpcode code map isFirstByte ctx =
      match unknownHandler map (loadByte code ctx.pc 0) isFirstByte with
      | .useMap2 => decodeOpcode code .second false (fetch code 1 ctx)
      | .useMap3 => decodeOpcode code .third false (fetch code 1 ctx)
      | .useMap4 => decodeOpcode code .fourth false (fetch code 1 ctx)
      | .usePrefix => decodeOpcode code map false { fetch code 1 ctx with useEs := true }
      | .unknownInsn => lastRound code map ctx := by
  conv_lhs => unfold decodeOpcode
  rw [if_neg (not_not.mpr unknown)]
  split <;> rename_i result <;> rw [result]
  unfold lastRound
  rw [if_neg (not_not.mpr unknown)]

theorem decodeOpcode_last {map : OpcodeMap} {isFirstByte : Bool}
    (stop : unknownHandler map (loadByte code ctx.pc 0) isFirstByte = .unknownInsn) :
    decodeOpcode code map isFirstByte ctx = lastRound code map ctx := by
  by_cases unknown : (map.entry (loadByte code ctx.pc 0)).mnemonic = .unknown
  · rw [decodeOpcode_unknown unknown, stop]
  · exact decodeOpcode_known unknown

theorem unknownHandler_ne_first {map : OpcodeMap} (ne : map ≠ .first) (byte : Nat)
    (isFirstByte : Bool) : unknownHandler map byte isFirstByte = .unknownInsn := by
  by_contra continues
  exact ne (unknownHandler_map continues)

theorem entry_escape {byte : Nat} (escape : byte = 0x11 ∨ escapedMap byte ≠ .first) :
    (OpcodeMap.first.entry byte).mnemonic = .unknown := by
  have escapes : byte = 0x11 ∨ byte = 0x31 ∨ byte = 0x61 ∨ byte = 0x71 := by
    rcases escape with same | other
    · exact .inl same
    · unfold escapedMap at other
      split at other
      next same => exact .inr (.inl same)
      split at other
      next same => exact .inr (.inr (.inl same))
      split at other
      next same => exact .inr (.inr (.inr same))
      next => exact absurd rfl other
  rcases escapes with same | same | same | same <;> rw [same] <;> rfl

theorem unknownHandler_first {byte : Nat} {isFirstByte : Bool}
    (plain : isFirstByte = false ∨ byte ≠ 0x11) :
    unknownHandler .first byte isFirstByte = match escapedMap byte with
      | .first => .unknownInsn
      | .second => .useMap2
      | .third => .useMap3
      | .fourth => .useMap4 := by
  have noPrefix : ¬(OpcodeMap.first = .first ∧ isFirstByte = true ∧ byte = 0x11) := by
    intro all
    rcases plain with later | other
    · rw [later] at all
      cases all.2.1
    · exact other all.2.2
  unfold unknownHandler escapedMap
  rw [if_neg noPrefix]
  by_cases is31 : byte = 0x31
  · rw [if_pos ⟨rfl, is31⟩, if_pos is31]
  · rw [if_neg fun all => is31 all.2, if_neg is31]
    by_cases is61 : byte = 0x61
    · rw [if_pos ⟨rfl, is61⟩, if_pos is61]
    · rw [if_neg fun all => is61 all.2, if_neg is61]
      by_cases is71 : byte = 0x71
      · rw [if_pos ⟨rfl, is71⟩, if_pos is71]
      · rw [if_neg fun all => is71 all.2, if_neg is71]

theorem decodeOpcode_escape {isFirstByte : Bool}
    (plain : isFirstByte = false ∨ loadByte code ctx.pc 0 ≠ 0x11) :
    decodeOpcode code .first isFirstByte ctx =
      if escapedMap (loadByte code ctx.pc 0) = .first then lastRound code .first ctx
      else lastRound code (escapedMap (loadByte code ctx.pc 0)) (fetch code 1 ctx) := by
  have handler := unknownHandler_first plain
  have last : ∀ map ≠ OpcodeMap.first, decodeOpcode code map false (fetch code 1 ctx) =
      lastRound code map (fetch code 1 ctx) := fun map ne =>
    decodeOpcode_last (unknownHandler_ne_first ne _ _)
  split
  next here =>
    rw [here] at handler
    exact decodeOpcode_last handler
  next escapes =>
    rw [decodeOpcode_unknown (entry_escape (.inr escapes)), handler]
    rw [← last _ escapes]
    cases leads : escapedMap (loadByte code ctx.pc 0) with
    | first => exact absurd leads escapes
    | second => rfl
    | third => rfl
    | fourth => rfl

theorem decodeOpcode_start : ∃ ctx, ReadFrom code pc (opcodeOffset code pc) ctx ∧
      ctx.useEs = decide (prefixCount code pc = 1) ∧
      decodeOpcode code .first true (.start pc) = lastRound code (opcodeMap code pc) ctx := by
  have first : loadByte code (DisasContext.start pc).pc 0 = loadByte code pc 0 :=
    ReadFrom.start.loadByte_pc 0
  have after : ∀ ctx isFirstByte, ReadFrom code pc (prefixCount code pc) ctx →
      (isFirstByte = false ∨ loadByte code ctx.pc 0 ≠ 0x11) →
      ∃ ctx', ReadFrom code pc (opcodeOffset code pc) ctx' ∧ ctx'.useEs = ctx.useEs ∧
        decodeOpcode code .first isFirstByte ctx = lastRound code (opcodeMap code pc) ctx' := by
    intro ctx isFirstByte read plain
    have leads : escapedMap (loadByte code ctx.pc 0) = opcodeMap code pc := by
      rw [read.loadByte_pc]
      rfl
    rw [decodeOpcode_escape plain, leads]
    unfold opcodeOffset
    split
    next here =>
      rw [here]
      exact ⟨ctx, read, rfl, rfl⟩
    next => exact ⟨fetch code 1 ctx, read.fetch 1, rfl, rfl⟩
  by_cases isPrefix : loadByte code pc 0 = 0x11
  · have one : prefixCount code pc = 1 := if_pos isPrefix
    have step : decodeOpcode code .first true (.start pc) =
        decodeOpcode code .first false { fetch code 1 (.start pc) with useEs := true } := by
      rw [decodeOpcode_unknown (entry_escape (.inl (by rw [first, isPrefix]))), first, isPrefix]
      rfl
    have read : ReadFrom code pc 1 { fetch code 1 (.start pc) with useEs := true } := by
      have plain := ReadFrom.fetch (@ReadFrom.start code pc) 1
      exact ⟨plain.pc_eq, plain.bytes_eq⟩
    rw [step, one]
    rw [one] at after
    exact after _ false read (.inl rfl)
  · have zero : prefixCount code pc = 0 := if_neg isPrefix
    rw [zero]
    rw [zero] at after
    exact after _ true .start (.inr (by rw [first]; exact isPrefix))

/-! ### Operands -/

namespace Operand

def template : Operand → Operand
  | .bit kind index _ => .bit kind index
  | .imm8 _ => .imm8
  | .imm16 _ => .imm16
  | .abs16 _ => .abs16
  | .abs20 _ => .abs20
  | .saddr _ => .saddr
  | .sfr _ => .sfr
  | .indRegImm base _ => .indRegImm base
  | .indSpImm _ => .indSpImm
  | .indBaseByte idx _ => .indBaseByte idx
  | .indBaseWord idx _ => .indBaseWord idx
  | .rel8 _ => .rel8
  | .rel16 _ => .rel16
  | op => op

def encoded : Operand → List Nat
  | .bit .abs16 _ addr => [addr % 256, addr / 256]
  | .bit .saddr _ addr | .bit .sfr _ addr => [addr]
  | .imm8 n | .saddr n | .sfr n | .indRegImm _ n | .indSpImm n | .rel8 n => [n]
  | .imm16 n | .abs16 n | .indBaseByte _ n | .indBaseWord _ n | .rel16 n => [n % 256, n / 256]
  | .abs20 n => [n % 256, n / 256 % 256, n / 65536]
  | _ => []

def size (op : Operand) : Nat := op.encoded.length

theorem size_template (op : Operand) : op.template.size = op.size := by
  cases op with
  | bit kind bit addr => cases kind <;> rfl
  | _ => rfl

end Operand

theorem loadByte_lt (offset : Nat) : loadByte code pc offset < 256 := Nat.mod_lt _ (by decide)

theorem word_bytes {low high : Nat} (less : low < 256) :
    [(low + 2 ^ 8 * high) % 256, (low + 2 ^ 8 * high) / 256] = [low, high] := by
  congr 1
  · omega
  · congr 1
    omega

theorem bytes20 {low high segment : Nat} (less : low < 256) (less' : high < 256) :
    [(low + 2 ^ 8 * high + 2 ^ 16 * segment) % 256,
      (low + 2 ^ 8 * high + 2 ^ 16 * segment) / 256 % 256,
      (low + 2 ^ 8 * high + 2 ^ 16 * segment) / 65536] = [low, high, segment] := by
  congr 1
  · omega
  · congr 1
    · omega
    · congr 1
      omega

structure OperandRead (code : Nat → Nat) (pc count : Nat) (ctx : DisasContext) (op : Operand)
    (result : DisasContext × Operand) : Prop where
  read : ReadFrom code pc (count + op.size) result.1
  useEs : result.1.useEs = ctx.useEs
  template : result.2.template = op.template
  encoded : result.2.encoded = (range op.size).map fun offset => loadByte code pc (count + offset)

section

variable (read : ReadFrom code pc count ctx)

include read

theorem decodeByteOp_read {op : Operand}
    {operand : Nat → Operand} (size : op.size = 1) (template : ∀ n, (operand n).template = op.template)
    (encoded : ∀ n, (operand n).encoded = [n]) :
    OperandRead code pc count ctx op (decodeByteOp code ctx operand) := by
  refine ⟨?_, rfl, template _, ?_⟩
  · rw [size]
    exact read.fetch 1
  · rw [size]
    unfold decodeByteOp
    rw [encoded, read.loadByte_pc]
    rfl

theorem decodeWordOp_read {op : Operand}
    {operand : Nat → Operand} (size : op.size = 2) (template : ∀ n, (operand n).template = op.template)
    (encoded : ∀ n, (operand n).encoded = [n % 256, n / 256]) :
    OperandRead code pc count ctx op (decodeWordOp code ctx operand) := by
  refine ⟨?_, rfl, template _, ?_⟩
  · rw [size]
    exact read.fetch 2
  · rw [size]
    unfold decodeWordOp
    rw [encoded, word_bytes (loadByte_lt 0), read.loadByte_pc, read.loadByte_pc]
    rfl

theorem decode20bitOp_read (n : Nat) :
    OperandRead code pc count ctx (.abs20 n) (decode20bitOp code ctx (.abs20 ·)) := by
  refine ⟨read.fetch 3, rfl, rfl, ?_⟩
  unfold decode20bitOp Operand.encoded
  dsimp only
  rw [bytes20 (loadByte_lt 0) (loadByte_lt 1), read.loadByte_pc, read.loadByte_pc, read.loadByte_pc]
  rfl

theorem noOperand_read {op : Operand} (none' : op.encoded = []) :
    OperandRead code pc count ctx op (ctx, op) := by
  have size : op.size = 0 := by
    unfold Operand.size
    rw [none']
    rfl
  refine ⟨?_, rfl, rfl, ?_⟩
  · rw [size]
    exact read
  · rw [size, none']
    rfl

theorem decodeOperand_read (op : Operand)
    (clean : op.template = op) :
    OperandRead code pc count ctx op (decodeOperand code ctx op) := by
  cases op with
  | bit kind bit addr =>
    cases kind with
    | abs16 => exact decodeWordOp_read read rfl (fun _ => rfl) (fun _ => rfl)
    | saddr => exact decodeByteOp_read read rfl (fun _ => rfl) (fun _ => rfl)
    | sfr => exact decodeByteOp_read read rfl (fun _ => rfl) (fun _ => rfl)
    | regA => rw [← clean]; exact noOperand_read read rfl
    | indHl => rw [← clean]; exact noOperand_read read rfl
    | cy => rw [← clean]; exact noOperand_read read rfl
  | imm8 => exact decodeByteOp_read read rfl (fun _ => rfl) (fun _ => rfl)
  | imm16 => exact decodeWordOp_read read rfl (fun _ => rfl) (fun _ => rfl)
  | abs16 => exact decodeWordOp_read read rfl (fun _ => rfl) (fun _ => rfl)
  | abs20 => exact decode20bitOp_read read _
  | saddr => exact decodeByteOp_read read rfl (fun _ => rfl) (fun _ => rfl)
  | sfr => exact decodeByteOp_read read rfl (fun _ => rfl) (fun _ => rfl)
  | indRegImm => exact decodeByteOp_read read rfl (fun _ => rfl) (fun _ => rfl)
  | indSpImm => exact decodeByteOp_read read rfl (fun _ => rfl) (fun _ => rfl)
  | indBaseByte => exact decodeWordOp_read read rfl (fun _ => rfl) (fun _ => rfl)
  | indBaseWord => exact decodeWordOp_read read rfl (fun _ => rfl) (fun _ => rfl)
  | rel8 => exact decodeByteOp_read read rfl (fun _ => rfl) (fun _ => rfl)
  | rel16 => exact decodeWordOp_read read rfl (fun _ => rfl) (fun _ => rfl)
  | _ => exact noOperand_read read rfl

end

/-! ### Whole instructions -/

theorem OpcodeMap.entry_all {P : Instruction → Prop} (map : OpcodeMap)
    (all : ∀ insn ∈ map.table, P insn) (unknown : P .unknown) (byte : Nat) : P (map.entry byte) := by
  unfold OpcodeMap.entry
  rcases Nat.lt_or_ge byte map.table.length with inside | outside
  · rw [getD_eq_getElem _ _ inside]
    exact all _ (getElem_mem inside)
  · rwa [getD_eq_default _ _ outside]

theorem entry_template (map : OpcodeMap) (byte : Nat) :
    (map.entry byte).operand0.template = (map.entry byte).operand0 ∧
      (map.entry byte).operand1.template = (map.entry byte).operand1 := by
  have all : ∀ insn ∈ map.table,
      insn.operand0.template = insn.operand0 ∧ insn.operand1.template = insn.operand1 := by
    cases map <;> decide +kernel
  exact map.entry_all all ⟨rfl, rfl⟩ byte

structure Decoded (code : Nat → Nat) (pc : Nat) (ctx : DisasContext) (insn : Instruction) :
    Prop where
  mnemonic : insn.mnemonic = (opcodeEntry code pc).mnemonic
  template0 : insn.operand0.template = (opcodeEntry code pc).operand0
  template1 : insn.operand1.template = (opcodeEntry code pc).operand1
  read : ReadFrom code pc (opcodeOffset code pc + 1 + insn.operand0.size + insn.operand1.size) ctx
  useEs : ctx.useEs = decide (prefixCount code pc = 1)
  encoded0 : insn.operand0.encoded = (range insn.operand0.size).map fun offset =>
    loadByte code pc (opcodeOffset code pc + 1 + offset)
  encoded1 : insn.operand1.encoded = (range insn.operand1.size).map fun offset =>
    loadByte code pc (opcodeOffset code pc + 1 + insn.operand0.size + offset)

theorem hasTranslator_iff (mnemonic : Mnemonic) :
    hasTranslator mnemonic = true ↔ mnemonic ≠ .unknown := by
  cases mnemonic <;> decide

theorem decode_known (known : (opcodeEntry code pc).mnemonic ≠ .unknown) :
    ∃ ctx insn, decode code (.start pc) = (ctx, some insn) ∧ Decoded code pc ctx insn := by
  obtain ⟨ctx, read, useEs, opcode⟩ := @decodeOpcode_start code pc
  have byte : loadByte code ctx.pc 0 = opcodeByte code pc := read.loadByte_pc 0
  have found : decodeOpcode code .first true (.start pc) =
      (fetch code 1 ctx, some (opcodeEntry code pc)) := by
    rw [opcode]
    unfold lastRound
    rw [byte]
    exact if_pos known
  have clean := entry_template (opcodeMap code pc) (opcodeByte code pc)
  obtain ⟨result0, eq0⟩ : ∃ result, result =
      decodeOperand code (fetch code 1 ctx) (opcodeEntry code pc).operand0 := ⟨_, rfl⟩
  obtain ⟨result1, eq1⟩ : ∃ result, result =
      decodeOperand code result0.1 (opcodeEntry code pc).operand1 := ⟨_, rfl⟩
  have first := decodeOperand_read (read.fetch 1) (opcodeEntry code pc).operand0 clean.1
  rw [← eq0] at first
  have second := decodeOperand_read first.read (opcodeEntry code pc).operand1 clean.2
  rw [← eq1] at second
  have size0 : result0.2.size = (opcodeEntry code pc).operand0.size := by
    rw [← Operand.size_template, first.template, Operand.size_template]
  have size1 : result1.2.size = (opcodeEntry code pc).operand1.size := by
    rw [← Operand.size_template, second.template, Operand.size_template]
  refine ⟨result1.1, ⟨(opcodeEntry code pc).mnemonic, result0.2, result1.2⟩, ?_, ?_⟩
  · unfold decode
    rw [found]
    dsimp only
    rw [if_pos ((hasTranslator_iff _).mpr known), ← eq0, ← eq1]
  · refine ⟨rfl, first.template.trans clean.1, second.template.trans clean.2, ?_,
      second.useEs.trans (first.useEs.trans useEs), ?_, ?_⟩
    · dsimp only
      rw [size0, size1]
      exact second.read
    · dsimp only
      rw [size0]
      exact first.encoded
    · dsimp only
      rw [size0, size1]
      exact second.encoded

theorem decode_unknown (unknown : (opcodeEntry code pc).mnemonic = .unknown) :
    ∃ ctx, decode code (.start pc) = (ctx, none) ∧ ctx.pc = (pc + opcodeOffset code pc) % 2 ^ 32 ∧
      ctx.bytes.length = opcodeOffset code pc + 1 := by
  obtain ⟨ctx, read, _, opcode⟩ := @decodeOpcode_start code pc
  have byte : loadByte code ctx.pc 0 = opcodeByte code pc := read.loadByte_pc 0
  refine ⟨{ ctx with bytes := ctx.bytes ++ [loadByte code ctx.pc 0] }, ?_, read.pc_eq, ?_⟩
  · unfold decode
    rw [opcode]
    unfold lastRound
    rw [byte, if_neg fun known => known unknown]
  · dsimp only
    rw [length_append, read.length]
    rfl

/-! ### Distinct entries -/

/-- The opcodes that have the same entry as another opcode of the first map. -/
def doubled : List Nat := [0xa0, 0xa2, 0xb0, 0xb2]

def operandKey : Operand → Nat
  | .byteReg reg => reg.ctorIdx
  | .wordReg reg => 8 + reg.ctorIdx
  | .bit kind bit _ => 12 + 8 * kind.ctorIdx + bit
  | .indRegReg base idx => 60 + 8 * base.ctorIdx + idx.ctorIdx
  | .indRegImm base _ => 92 + base.ctorIdx
  | .indReg base => 96 + base.ctorIdx
  | .indBaseByte idx _ => 100 + idx.ctorIdx
  | .indBaseWord idx _ => 108 + idx.ctorIdx
  | .shamt n => 112 + n
  | .callt n => n
  | .selRb n => 128 + n
  | op => 132 + op.ctorIdx

def entryKey (insn : Instruction) : Nat :=
  (insn.mnemonic.ctorIdx * 256 + operandKey insn.operand0) * 256 + operandKey insn.operand1

/-- Small numbers, by which the entries still differ. -/
def entryHash (insn : Instruction) : Nat := entryKey insn % 22533

def assigned (map : OpcodeMap) (without : List Nat) : List ((OpcodeMap × Nat) × Instruction) :=
  (map.table.zipIdx.filter fun place =>
    decide (place.1.mnemonic ≠ .unknown) && !without.elem place.2).map fun place =>
      ((map, place.2), place.1)

def assignedOpcodes : List ((OpcodeMap × Nat) × Instruction) :=
  assigned .first doubled ++ assigned .second [] ++ assigned .third [] ++ assigned .fourth []

theorem assignedOpcodes_distinct : distinctKeys (fun place => entryHash place.2) assignedOpcodes
      (1 <<< entryHash ⟨.incw, .abs16, .none⟩ ||| 1 <<< entryHash ⟨.decw, .abs16, .none⟩) = true := by
  decide +kernel

theorem mem_assigned {map : OpcodeMap} {byte : Nat} {without : List Nat}
    (known : (map.entry byte).mnemonic ≠ .unknown) (single : byte ∉ without) :
    ((map, byte), map.entry byte) ∈ assigned map without := by
  rcases Nat.lt_or_ge byte map.table.length with inside | outside
  · have same : map.entry byte = map.table[byte] := getD_eq_getElem _ _ inside
    have place : (map.entry byte, byte) ∈ map.table.zipIdx := by
      rw [List.mk_mem_zipIdx_iff_getElem?, same]
      exact List.getElem?_eq_getElem inside
    refine mem_map.mpr ⟨(map.entry byte, byte), mem_filter.mpr ⟨place, ?_⟩, rfl⟩
    rw [Bool.and_eq_true]
    exact ⟨decide_eq_true known, by simpa using single⟩
  · have default : map.entry byte = .unknown := getD_eq_default _ _ outside
    rw [default] at known
    exact absurd rfl known

theorem mem_assignedOpcodes {map : OpcodeMap} {byte : Nat}
    (known : (map.entry byte).mnemonic ≠ .unknown) (single : ¬(map = .first ∧ byte ∈ doubled)) :
    ((map, byte), map.entry byte) ∈ assignedOpcodes := by
  unfold assignedOpcodes
  cases map with
  | first =>
    have member := mem_assigned known fun member => single ⟨rfl, member⟩
    exact mem_append_left _ (mem_append_left _ (mem_append_left _ member))
  | second =>
    have member := mem_assigned known (not_mem_nil (a := byte))
    exact mem_append_left _ (mem_append_left _ (mem_append_right _ member))
  | third =>
    have member := mem_assigned known (not_mem_nil (a := byte))
    exact mem_append_left _ (mem_append_right _ member)
  | fourth =>
    have member := mem_assigned known (not_mem_nil (a := byte))
    exact mem_append_right _ member

theorem opcode_eq_of_entry_eq {map map' : OpcodeMap} {byte byte' : Nat}
    (known : (map.entry byte).mnemonic ≠ .unknown) (single : ¬(map = .first ∧ byte ∈ doubled))
    (single' : ¬(map' = .first ∧ byte' ∈ doubled)) (same : map.entry byte = map'.entry byte') :
    map = map' ∧ byte = byte' := by
  have left := mem_assignedOpcodes known single
  have right := mem_assignedOpcodes (by rw [← same]; exact known) single'
  have equal := eq_of_key_eq assignedOpcodes_distinct left right (by dsimp only; rw [same])
  have places := congrArg Prod.fst equal
  exact ⟨congrArg Prod.fst places, congrArg Prod.snd places⟩

theorem entry_doubled {map : OpcodeMap} {byte byte' : Nat} (double : byte ∈ doubled)
    (same : map.entry byte' = OpcodeMap.first.entry byte) : map = .first ∧ byte' ∈ doubled := by
  have entries : ∀ byte ∈ doubled, OpcodeMap.first.entry byte = ⟨.incw, .abs16, .none⟩ ∨
      OpcodeMap.first.entry byte = ⟨.decw, .abs16, .none⟩ := by decide
  by_contra single
  have entry := entries byte double
  rw [← same] at entry
  have known : (map.entry byte').mnemonic ≠ .unknown := by
    rcases entry with eq | eq <;> rw [eq] <;> decide
  have unseen := not_seen assignedOpcodes_distinct _ (mem_assignedOpcodes known single)
  have seen : (1 <<< entryHash ⟨.incw, .abs16, .none⟩ |||
      1 <<< entryHash ⟨.decw, .abs16, .none⟩).testBit (entryHash (map.entry byte')) = true := by
    rcases entry with eq | eq
    · rw [eq, testBit_insert, Nat.one_shiftLeft, Nat.testBit_two_pow_self]
      exact .inl rfl
    · rw [eq, testBit_insert]
      exact .inr rfl
  rw [seen] at unseen
  cases unseen

/-! ### Encodings -/

def OpcodeMap.escape : OpcodeMap → List Nat
  | .first => []
  | .second => [0x61]
  | .third => [0x71]
  | .fourth => [0x31]

def encoding (useEs : Bool) (map : OpcodeMap) (byte : Nat) (insn : Instruction) : List Nat :=
  (if useEs then [0x11] else []) ++ map.escape ++ [byte] ++
    insn.operand0.encoded ++ insn.operand1.encoded

theorem escapedMap_byte {byte : Nat} (escapes : escapedMap byte ≠ .first) :
    (escapedMap byte).escape = [byte] := by
  unfold escapedMap at escapes ⊢
  split
  next same => rw [same]; rfl
  split
  next same => rw [same]; rfl
  split
  next same => rw [same]; rfl
  next no31 no61 no71 =>
    rw [if_neg no31, if_neg no61, if_neg no71] at escapes
    exact absurd rfl escapes

theorem offset_bytes : (range (opcodeOffset code pc)).map (loadByte code pc) =
    (if prefixCount code pc = 1 then [0x11] else []) ++ (opcodeMap code pc).escape := by
  have prefixes : (range (prefixCount code pc)).map (loadByte code pc) =
      if prefixCount code pc = 1 then [0x11] else [] := by
    by_cases isPrefix : loadByte code pc 0 = 0x11
    · have one : prefixCount code pc = 1 := if_pos isPrefix
      rw [one, if_pos rfl]
      exact congrArg (fun byte => [byte]) isPrefix
    · have zero : prefixCount code pc = 0 := if_neg isPrefix
      rw [zero]
      rfl
  unfold opcodeOffset
  rw [range_add, map_append, prefixes]
  congr 1
  split
  next first =>
    rw [first]
    rfl
  next escapes => exact (escapedMap_byte escapes).symm

theorem Decoded.bytes_eq {insn : Instruction} (decoded : Decoded code pc ctx insn) :
    ctx.bytes = encoding ctx.useEs (opcodeMap code pc) (opcodeByte code pc) insn := by
  unfold encoding
  rw [decoded.read.bytes_eq, decoded.useEs, decoded.encoded0, decoded.encoded1,
    range_add, range_add, range_add, map_append, map_append,
    map_append, offset_bytes, map_map, map_map, map_map]
  simp only [decide_eq_true_eq]
  rfl

theorem Decoded.bytes_unique {code' : Nat → Nat} {pc' : Nat} {ctx' : DisasContext}
    {insn : Instruction} (decoded : Decoded code pc ctx insn)
    (decoded' : Decoded code' pc' ctx' insn) (useEs : ctx'.useEs = ctx.useEs)
    (known : (opcodeEntry code pc).mnemonic ≠ .unknown)
    (single : ¬(opcodeMap code pc = .first ∧ opcodeByte code pc ∈ doubled)) :
    ctx'.bytes = ctx.bytes := by
  have entry : opcodeEntry code pc = opcodeEntry code' pc' := by
    have mnemonic := decoded.mnemonic.symm.trans decoded'.mnemonic
    have operand0 := decoded.template0.symm.trans decoded'.template0
    have operand1 := decoded.template1.symm.trans decoded'.template1
    cases left : opcodeEntry code pc
    cases right : opcodeEntry code' pc'
    rw [left, right] at mnemonic operand0 operand1
    dsimp only at mnemonic operand0 operand1
    rw [mnemonic, operand0, operand1]
  have single' : ¬(opcodeMap code' pc' = .first ∧ opcodeByte code' pc' ∈ doubled) := by
    intro double
    refine single (entry_doubled double.2 ?_)
    rw [← double.1]
    exact entry
  obtain ⟨map, byte⟩ := opcode_eq_of_entry_eq known single single' entry
  rw [decoded.bytes_eq, decoded'.bytes_eq, useEs, map, byte]

/-! ### Encodings that are doubled -/

/-- The other opcode with the same entry. -/
def partner (byte : Nat) : Nat := byte ^^^ 2

def swapOpcode (code : Nat → Nat) (pc : Nat) : Nat → Nat :=
  Function.update code ((pc + opcodeOffset code pc) % 2 ^ 32) (partner (opcodeByte code pc))

theorem loadByte_swapOpcode {offset : Nat} (near : offset < 5) :
    loadByte (swapOpcode code pc) pc offset =
      if offset = opcodeOffset code pc then partner (opcodeByte code pc) % 256
      else loadByte code pc offset := by
  have := @opcodeOffset_le code pc
  unfold loadByte swapOpcode
  rw [Function.update_apply]
  by_cases here : offset = opcodeOffset code pc
  · rw [if_pos here, here, if_pos rfl]
  · rw [if_neg here, if_neg (by omega)]

theorem partner_spec {byte : Nat} (double : byte ∈ doubled) :
    partner byte % 256 = partner byte ∧ partner byte ≠ byte ∧ partner byte ≠ 0x11 ∧
      escapedMap (partner byte) = .first ∧
      OpcodeMap.first.entry (partner byte) = OpcodeMap.first.entry byte ∧
      (OpcodeMap.first.entry byte).mnemonic ≠ .unknown ∧
      (OpcodeMap.first.entry byte).operand0 = .abs16 ∧
      (OpcodeMap.first.entry byte).operand1 = .none := by
  revert byte
  decide

theorem abs16_eq {op op' : Operand} (template : op.template = .abs16)
    (template' : op'.template = .abs16) (encoded : op.encoded = op'.encoded) : op = op' := by
  cases op <;> simp [Operand.template] at template
  cases op' <;> simp [Operand.template] at template'
  simp only [Operand.encoded, cons.injEq, and_true] at encoded
  congr 1
  omega

theorem none_eq {op : Operand} (template : op.template = .none) : op = .none := by
  cases op <;> simp [Operand.template] at template
  rfl

theorem decode_swapOpcode (map : opcodeMap code pc = .first) (double : opcodeByte code pc ∈ doubled)
    {insn : Instruction} (decoded : Decoded code pc ctx insn) :
    ∃ ctx', decode (swapOpcode code pc) (.start pc) = (ctx', some insn) ∧
      ctx'.useEs = ctx.useEs ∧ ctx'.bytes ≠ ctx.bytes := by
  obtain ⟨small, other, noPrefix, noEscape, entry, known, operand0, operand1⟩ := partner_spec double
  have offset : opcodeOffset code pc = prefixCount code pc := by
    unfold opcodeOffset
    rw [if_pos map]
    rfl
  have byte : loadByte (swapOpcode code pc) pc (prefixCount code pc) =
      partner (opcodeByte code pc) := by
    have := @opcodeOffset_le code pc
    rw [loadByte_swapOpcode (by omega), if_pos offset.symm, small]
  have prefixes : prefixCount (swapOpcode code pc) pc = prefixCount code pc := by
    by_cases isPrefix : loadByte code pc 0 = 0x11
    · have one : prefixCount code pc = 1 := if_pos isPrefix
      rw [one]
      refine if_pos ?_
      rw [loadByte_swapOpcode (by omega), if_neg (by omega)]
      exact isPrefix
    · have zero : prefixCount code pc = 0 := if_neg isPrefix
      rw [zero] at byte ⊢
      refine if_neg ?_
      rw [byte]
      exact noPrefix
  have map' : opcodeMap (swapOpcode code pc) pc = .first := by
    unfold opcodeMap
    rw [prefixes, byte]
    exact noEscape
  have offset' : opcodeOffset (swapOpcode code pc) pc = prefixCount code pc := by
    unfold opcodeOffset
    rw [if_pos map', prefixes]
    rfl
  have byte' : opcodeByte (swapOpcode code pc) pc = partner (opcodeByte code pc) := by
    unfold opcodeByte
    rw [offset', byte]
    rfl
  have entries : opcodeEntry (swapOpcode code pc) pc = OpcodeMap.first.entry (opcodeByte code pc) := by
    unfold opcodeEntry
    rw [map', byte', entry]
  have entries' : opcodeEntry code pc = OpcodeMap.first.entry (opcodeByte code pc) := by
    unfold opcodeEntry
    rw [map]
  obtain ⟨ctx', insn', done, decoded'⟩ := @decode_known (swapOpcode code pc) pc
    (by rw [entries]; exact known)
  have template0 := decoded.template0
  have template1 := decoded.template1
  have template0' := decoded'.template0
  have template1' := decoded'.template1
  rw [entries', operand0] at template0
  rw [entries', operand1] at template1
  rw [entries, operand0] at template0'
  rw [entries, operand1] at template1'
  have size : insn.operand0.size = 2 := by
    rw [← Operand.size_template, template0]
    rfl
  have size' : insn'.operand0.size = 2 := by
    rw [← Operand.size_template, template0']
    rfl
  have same : insn' = insn := by
    have op0 : insn'.operand0 = insn.operand0 := by
      refine abs16_eq template0' template0 ?_
      rw [decoded.encoded0, decoded'.encoded0, size, size', offset, offset']
      refine map_congr_left fun place member => ?_
      have less := mem_range.mp member
      have := @opcodeOffset_le code pc
      rw [loadByte_swapOpcode (by omega), if_neg (by omega)]
    have op1 : insn'.operand1 = insn.operand1 := by
      rw [none_eq template1, none_eq template1']
    have mnemonic : insn'.mnemonic = insn.mnemonic := by
      rw [decoded.mnemonic, decoded'.mnemonic, entries, entries']
    cases insn'
    dsimp only at op0 op1 mnemonic
    rw [op0, op1, mnemonic]
  rw [same] at done decoded'
  refine ⟨ctx', done, ?_, ?_⟩
  · rw [decoded.useEs, decoded'.useEs, prefixes]
  · intro bytes
    rw [decoded.bytes_eq, decoded'.bytes_eq, decoded.useEs, decoded'.useEs, prefixes, map, map',
      byte'] at bytes
    have opcodes := append_cancel_left (append_cancel_right (append_cancel_right bytes))
    exact other (cons.inj opcodes).1

/-! ### The result -/

/-- The bytes that were read make the instruction, and no others do. -/
structure DecodesUniquely (code : Nat → Nat) (pc : Nat) : Prop where
  bytes_length : ∃ escapes ≤ 2, (decode code (.start pc)).1.bytes.length = escapes + 1 +
    (decode code (.start pc)).2.elim 0 fun insn => insn.operand0.size + insn.operand1.size
  pc_eq : (decode code (.start pc)).1.pc = (pc + (decode code (.start pc)).1.bytes.length) % 2 ^ 32
  unique : ∀ code' pc' insn, (decode code (.start pc)).2 = some insn →
    (decode code' (.start pc')).2 = some insn →
    (decode code' (.start pc')).1.useEs = (decode code (.start pc)).1.useEs →
    (decode code' (.start pc')).1.bytes = (decode code (.start pc)).1.bytes

/-- A decoding is as it should be exactly if the opcode has an entry and is not one of
`INCW !addr16` and `DECW !addr16`. -/
theorem decodesUniquely_iff : DecodesUniquely code pc ↔ (opcodeEntry code pc).mnemonic ≠ .unknown ∧
      ¬(opcodeMap code pc = .first ∧ opcodeByte code pc ∈ doubled) := by
  constructor
  · intro unique
    have known : (opcodeEntry code pc).mnemonic ≠ .unknown := by
      intro unknown
      obtain ⟨ctx, done, stays, length⟩ := decode_unknown unknown
      have moved := unique.pc_eq
      rw [done] at moved
      dsimp only at moved
      omega
    refine ⟨known, ?_⟩
    intro double
    obtain ⟨ctx, insn, done, decoded⟩ := decode_known known
    obtain ⟨ctx', done', useEs, bytes⟩ := decode_swapOpcode double.1 double.2 decoded
    refine bytes ?_
    have same := unique.unique (swapOpcode code pc) pc insn (by rw [done]) (by rw [done'])
      (by rw [done, done', useEs])
    rw [done, done'] at same
    exact same
  · intro ordinary
    obtain ⟨known, single⟩ := ordinary
    obtain ⟨ctx, insn, done, decoded⟩ := decode_known known
    refine ⟨⟨opcodeOffset code pc, opcodeOffset_le, ?_⟩, ?_, ?_⟩
    · rw [done]
      dsimp only [Option.elim]
      rw [decoded.read.length, Nat.add_assoc]
    · rw [done]
      rw [decoded.read.pc_eq, decoded.read.length]
    · intro code' pc' insn' is is' useEs
      rw [done] at is useEs ⊢
      cases is
      have known' : (opcodeEntry code' pc').mnemonic ≠ .unknown := by
        intro unknown
        obtain ⟨_, failed, _⟩ := decode_unknown unknown
        rw [failed] at is'
        cases is'
      obtain ⟨ctx', insn', done', decoded'⟩ := decode_known known'
      rw [done'] at is' useEs ⊢
      cases is'
      exact decoded.bytes_unique decoded' useEs known single

def withAddress (opcode : Nat) (address : Nat) : Nat := [opcode, 0x34, 0x12].getD address 0

theorem decode_withAddress {opcode : Nat}
    (incw : loadByte (withAddress opcode) 0 0 = opcode)
    (entry : OpcodeMap.first.entry opcode = ⟨.incw, .abs16, .none⟩) :
    decode (withAddress opcode) (.start 0) =
      (⟨3, false, [opcode, 0x34, 0x12]⟩, some ⟨.incw, .abs16 0x1234, .none⟩) := by
  have known : (OpcodeMap.first.entry (loadByte (withAddress opcode)
      (DisasContext.start 0).pc 0)).mnemonic ≠ .unknown := by
    change (OpcodeMap.first.entry (loadByte (withAddress opcode) 0 0)).mnemonic ≠ .unknown
    rw [incw, entry]
    decide
  have byte : fetch (withAddress opcode) 1 (.start 0) = ⟨1, false, [opcode]⟩ := by
    change DisasContext.mk 1 false [loadByte (withAddress opcode) 0 0] = _
    rw [incw]
  have round : lastRound (withAddress opcode) .first (.start 0) =
      (⟨1, false, [opcode]⟩, some ⟨.incw, .abs16, .none⟩) := by
    unfold lastRound
    rw [if_pos known, byte]
    change (_, some (OpcodeMap.first.entry (loadByte (withAddress opcode) 0 0))) = _
    rw [incw, entry]
  unfold decode
  rw [decodeOpcode_known known, round]
  rfl

/-- `A0 34 12` and `A2 34 12` are both decoded as `INCW !1234H`, although the table has no
entry for `INC !addr16`. -/
theorem decode_incw_doubled :
    (decode (withAddress 0xa0) (.start 0)).2 = some ⟨.incw, .abs16 0x1234, .none⟩ ∧
      (decode (withAddress 0xa2) (.start 0)).2 = some ⟨.incw, .abs16 0x1234, .none⟩ ∧
      (decode (withAddress 0xa0) (.start 0)).1.bytes = [0xa0, 0x34, 0x12] ∧
      (decode (withAddress 0xa2) (.start 0)).1.bytes = [0xa2, 0x34, 0x12] ∧
      ¬DecodesUniquely (withAddress 0xa0) 0 := by
  have first := @decode_withAddress 0xa0 rfl rfl
  have second := @decode_withAddress 0xa2 rfl rfl
  refine ⟨by rw [first], by rw [second], by rw [first], by rw [second], ?_⟩
  intro unique
  have same := unique.unique (withAddress 0xa2) 0 _ (by rw [first]) (by rw [second])
    (by rw [first, second])
  rw [first, second] at same
  exact absurd same (by decide)

end Tlib.Rl78
