import Tlib.Rl78.Instruction

/-!
Contract: the four opcode maps of the RL78.

Owns: the entries of `decode_table_1st_map` to `decode_table_4th_map`, with rows of one kind written
once.
-/

namespace Tlib.Rl78

def decodeTable1stMap : List Instruction := [
  -- Row 0 (0x0X)
  ⟨.nop, .none, .none⟩, ⟨.addw, .wordReg .ax, .wordReg .ax⟩, ⟨.addw, .wordReg .ax, .abs16⟩,
  ⟨.addw, .wordReg .ax, .wordReg .bc⟩, ⟨.addw, .wordReg .ax, .imm16⟩,
  ⟨.addw, .wordReg .ax, .wordReg .de⟩, ⟨.addw, .wordReg .ax, .saddr⟩,
  ⟨.addw, .wordReg .ax, .wordReg .hl⟩, ⟨.xch, .byteReg .a, .byteReg .x⟩,
  ⟨.mov, .byteReg .a, .indBaseByte .b⟩, ⟨.add, .saddr, .imm8⟩, ⟨.add, .byteReg .a, .saddr⟩,
  ⟨.add, .byteReg .a, .imm8⟩, ⟨.add, .byteReg .a, .indReg .hl⟩, ⟨.add, .byteReg .a, .indRegImm .hl⟩,
  ⟨.add, .byteReg .a, .abs16⟩,
  -- Row 1 (0x1X)
  ⟨.addw, .sp, .imm8⟩, .unknown, ⟨.movw, .wordReg .bc, .wordReg .ax⟩,
  ⟨.movw, .wordReg .ax, .wordReg .bc⟩, ⟨.movw, .wordReg .de, .wordReg .ax⟩,
  ⟨.movw, .wordReg .ax, .wordReg .de⟩, ⟨.movw, .wordReg .hl, .wordReg .ax⟩,
  ⟨.movw, .wordReg .ax, .wordReg .hl⟩, ⟨.mov, .indBaseByte .b, .byteReg .a⟩,
  ⟨.mov, .indBaseByte .b, .imm8⟩, ⟨.addc, .saddr, .imm8⟩, ⟨.addc, .byteReg .a, .saddr⟩,
  ⟨.addc, .byteReg .a, .imm8⟩, ⟨.addc, .byteReg .a, .indReg .hl⟩,
  ⟨.addc, .byteReg .a, .indRegImm .hl⟩, ⟨.addc, .byteReg .a, .abs16⟩,
  -- Row 2 (0x2X)
  ⟨.subw, .sp, .imm8⟩, .unknown, ⟨.subw, .wordReg .ax, .abs16⟩, ⟨.subw, .wordReg .ax, .wordReg .bc⟩,
  ⟨.subw, .wordReg .ax, .imm16⟩, ⟨.subw, .wordReg .ax, .wordReg .de⟩, ⟨.subw, .wordReg .ax, .saddr⟩,
  ⟨.subw, .wordReg .ax, .wordReg .hl⟩, ⟨.mov, .indBaseByte .c, .byteReg .a⟩,
  ⟨.mov, .byteReg .a, .indBaseByte .c⟩, ⟨.sub, .saddr, .imm8⟩, ⟨.sub, .byteReg .a, .saddr⟩,
  ⟨.sub, .byteReg .a, .imm8⟩, ⟨.sub, .byteReg .a, .indReg .hl⟩, ⟨.sub, .byteReg .a, .indRegImm .hl⟩,
  ⟨.sub, .byteReg .a, .abs16⟩,
  -- Row 3 (0x3X)
  ⟨.movw, .wordReg .ax, .imm16⟩, .unknown, ⟨.movw, .wordReg .bc, .imm16⟩,
  ⟨.xchw, .wordReg .ax, .wordReg .bc⟩, ⟨.movw, .wordReg .de, .imm16⟩,
  ⟨.xchw, .wordReg .ax, .wordReg .de⟩, ⟨.movw, .wordReg .hl, .imm16⟩,
  ⟨.xchw, .wordReg .ax, .wordReg .hl⟩, ⟨.mov, .indBaseByte .c, .imm8⟩,
  ⟨.mov, .indBaseWord .bc, .imm8⟩, ⟨.subc, .saddr, .imm8⟩, ⟨.subc, .byteReg .a, .saddr⟩,
  ⟨.subc, .byteReg .a, .imm8⟩, ⟨.subc, .byteReg .a, .indReg .hl⟩,
  ⟨.subc, .byteReg .a, .indRegImm .hl⟩, ⟨.subc, .byteReg .a, .abs16⟩,
  -- Row 4 (0x4X)
  ⟨.cmp, .abs16, .imm8⟩, ⟨.mov, .es, .imm8⟩, ⟨.cmpw, .wordReg .ax, .abs16⟩,
  ⟨.cmpw, .wordReg .ax, .wordReg .bc⟩, ⟨.cmpw, .wordReg .ax, .imm16⟩,
  ⟨.cmpw, .wordReg .ax, .wordReg .de⟩, ⟨.cmpw, .wordReg .ax, .saddr⟩,
  ⟨.cmpw, .wordReg .ax, .wordReg .hl⟩, ⟨.mov, .indBaseWord .bc, .byteReg .a⟩,
  ⟨.mov, .byteReg .a, .indBaseWord .bc⟩, ⟨.cmp, .saddr, .imm8⟩, ⟨.cmp, .byteReg .a, .saddr⟩,
  ⟨.cmp, .byteReg .a, .imm8⟩, ⟨.cmp, .byteReg .a, .indReg .hl⟩, ⟨.cmp, .byteReg .a, .indRegImm .hl⟩,
  ⟨.cmp, .byteReg .a, .abs16⟩,
  -- Row 5 (0x5X)
  ⟨.mov, .byteReg .x, .imm8⟩, ⟨.mov, .byteReg .a, .imm8⟩, ⟨.mov, .byteReg .c, .imm8⟩,
  ⟨.mov, .byteReg .b, .imm8⟩, ⟨.mov, .byteReg .e, .imm8⟩, ⟨.mov, .byteReg .d, .imm8⟩,
  ⟨.mov, .byteReg .l, .imm8⟩, ⟨.mov, .byteReg .h, .imm8⟩, ⟨.movw, .indBaseByte .b, .wordReg .ax⟩,
  ⟨.movw, .wordReg .ax, .indBaseByte .b⟩, ⟨.and, .saddr, .imm8⟩, ⟨.and, .byteReg .a, .saddr⟩,
  ⟨.and, .byteReg .a, .imm8⟩, ⟨.and, .byteReg .a, .indReg .hl⟩, ⟨.and, .byteReg .a, .indRegImm .hl⟩,
  ⟨.and, .byteReg .a, .abs16⟩,
  -- Row 6 (0x6X)
  ⟨.mov, .byteReg .a, .byteReg .x⟩, .unknown, ⟨.mov, .byteReg .a, .byteReg .c⟩,
  ⟨.mov, .byteReg .a, .byteReg .b⟩, ⟨.mov, .byteReg .a, .byteReg .e⟩,
  ⟨.mov, .byteReg .a, .byteReg .d⟩, ⟨.mov, .byteReg .a, .byteReg .l⟩,
  ⟨.mov, .byteReg .a, .byteReg .h⟩, ⟨.movw, .indBaseByte .c, .wordReg .ax⟩,
  ⟨.movw, .wordReg .ax, .indBaseByte .c⟩, ⟨.or, .saddr, .imm8⟩, ⟨.or, .byteReg .a, .saddr⟩,
  ⟨.or, .byteReg .a, .imm8⟩, ⟨.or, .byteReg .a, .indReg .hl⟩, ⟨.or, .byteReg .a, .indRegImm .hl⟩,
  ⟨.or, .byteReg .a, .abs16⟩,
  -- Row 7 (0x7X)
  ⟨.mov, .byteReg .x, .byteReg .a⟩, .unknown, ⟨.mov, .byteReg .c, .byteReg .a⟩,
  ⟨.mov, .byteReg .b, .byteReg .a⟩, ⟨.mov, .byteReg .e, .byteReg .a⟩,
  ⟨.mov, .byteReg .d, .byteReg .a⟩, ⟨.mov, .byteReg .l, .byteReg .a⟩,
  ⟨.mov, .byteReg .h, .byteReg .a⟩, ⟨.movw, .indBaseWord .bc, .wordReg .ax⟩,
  ⟨.movw, .wordReg .ax, .indBaseWord .bc⟩, ⟨.xor, .saddr, .imm8⟩, ⟨.xor, .byteReg .a, .saddr⟩,
  ⟨.xor, .byteReg .a, .imm8⟩, ⟨.xor, .byteReg .a, .indReg .hl⟩, ⟨.xor, .byteReg .a, .indRegImm .hl⟩,
  ⟨.xor, .byteReg .a, .abs16⟩,
  -- Row 8 (0x8X)
  ⟨.inc, .byteReg .x, .none⟩, ⟨.inc, .byteReg .a, .none⟩, ⟨.inc, .byteReg .c, .none⟩,
  ⟨.inc, .byteReg .b, .none⟩, ⟨.inc, .byteReg .e, .none⟩, ⟨.inc, .byteReg .d, .none⟩,
  ⟨.inc, .byteReg .l, .none⟩, ⟨.inc, .byteReg .h, .none⟩, ⟨.mov, .byteReg .a, .indSpImm⟩,
  ⟨.mov, .byteReg .a, .indReg .de⟩, ⟨.mov, .byteReg .a, .indRegImm .de⟩,
  ⟨.mov, .byteReg .a, .indReg .hl⟩, ⟨.mov, .byteReg .a, .indRegImm .hl⟩,
  ⟨.mov, .byteReg .a, .saddr⟩, ⟨.mov, .byteReg .a, .sfr⟩, ⟨.mov, .byteReg .a, .abs16⟩,
  -- Row 9 (0x9X)
  ⟨.dec, .byteReg .x, .none⟩, ⟨.dec, .byteReg .a, .none⟩, ⟨.dec, .byteReg .c, .none⟩,
  ⟨.dec, .byteReg .b, .none⟩, ⟨.dec, .byteReg .e, .none⟩, ⟨.dec, .byteReg .d, .none⟩,
  ⟨.dec, .byteReg .l, .none⟩, ⟨.dec, .byteReg .h, .none⟩, ⟨.mov, .indSpImm, .byteReg .a⟩,
  ⟨.mov, .indReg .de, .byteReg .a⟩, ⟨.mov, .indRegImm .de, .byteReg .a⟩,
  ⟨.mov, .indReg .hl, .byteReg .a⟩, ⟨.mov, .indRegImm .hl, .byteReg .a⟩,
  ⟨.mov, .saddr, .byteReg .a⟩, ⟨.mov, .sfr, .byteReg .a⟩, ⟨.mov, .abs16, .byteReg .a⟩,
  -- Row A (0xAX)
  ⟨.incw, .abs16, .none⟩, ⟨.incw, .wordReg .ax, .none⟩, ⟨.incw, .abs16, .none⟩,
  ⟨.incw, .wordReg .bc, .none⟩, ⟨.inc, .saddr, .none⟩, ⟨.incw, .wordReg .de, .none⟩,
  ⟨.incw, .saddr, .none⟩, ⟨.incw, .wordReg .hl, .none⟩, ⟨.movw, .wordReg .ax, .indSpImm⟩,
  ⟨.movw, .wordReg .ax, .indReg .de⟩, ⟨.movw, .wordReg .ax, .indRegImm .de⟩,
  ⟨.movw, .wordReg .ax, .indReg .hl⟩, ⟨.movw, .wordReg .ax, .indRegImm .hl⟩,
  ⟨.movw, .wordReg .ax, .saddr⟩, ⟨.movw, .wordReg .ax, .sfr⟩, ⟨.movw, .wordReg .ax, .abs16⟩,
  -- Row B (0xBX)
  ⟨.decw, .abs16, .none⟩, ⟨.decw, .wordReg .ax, .none⟩, ⟨.decw, .abs16, .none⟩,
  ⟨.decw, .wordReg .bc, .none⟩, ⟨.dec, .saddr, .none⟩, ⟨.decw, .wordReg .de, .none⟩,
  ⟨.decw, .saddr, .none⟩, ⟨.decw, .wordReg .hl, .none⟩, ⟨.movw, .indSpImm, .wordReg .ax⟩,
  ⟨.movw, .indReg .de, .wordReg .ax⟩, ⟨.movw, .indRegImm .de, .wordReg .ax⟩,
  ⟨.movw, .indReg .hl, .wordReg .ax⟩, ⟨.movw, .indRegImm .hl, .wordReg .ax⟩,
  ⟨.movw, .saddr, .wordReg .ax⟩, ⟨.movw, .sfr, .wordReg .ax⟩, ⟨.movw, .abs16, .wordReg .ax⟩,
  -- Row C (0xCX)
  ⟨.pop, .wordReg .ax, .none⟩, ⟨.push, .wordReg .ax, .none⟩, ⟨.pop, .wordReg .bc, .none⟩,
  ⟨.push, .wordReg .bc, .none⟩, ⟨.pop, .wordReg .de, .none⟩, ⟨.push, .wordReg .de, .none⟩,
  ⟨.pop, .wordReg .hl, .none⟩, ⟨.push, .wordReg .hl, .none⟩, ⟨.mov, .indSpImm, .imm8⟩,
  ⟨.movw, .saddr, .imm16⟩, ⟨.mov, .indRegImm .de, .imm8⟩, ⟨.movw, .sfr, .imm16⟩,
  ⟨.mov, .indRegImm .hl, .imm8⟩, ⟨.mov, .saddr, .imm8⟩, ⟨.mov, .sfr, .imm8⟩, ⟨.mov, .abs16, .imm8⟩,
  -- Row D (0xDX)
  ⟨.cmp0, .byteReg .x, .none⟩, ⟨.cmp0, .byteReg .a, .none⟩, ⟨.cmp0, .byteReg .c, .none⟩,
  ⟨.cmp0, .byteReg .b, .none⟩, ⟨.cmp0, .saddr, .none⟩, ⟨.cmp0, .abs16, .none⟩,
  ⟨.mulu, .byteReg .x, .none⟩, ⟨.ret, .none, .none⟩, ⟨.mov, .byteReg .x, .saddr⟩,
  ⟨.mov, .byteReg .x, .abs16⟩, ⟨.movw, .wordReg .bc, .saddr⟩, ⟨.movw, .wordReg .bc, .abs16⟩,
  ⟨.bc, .rel8, .none⟩, ⟨.bz, .rel8, .none⟩, ⟨.bnc, .rel8, .none⟩, ⟨.bnz, .rel8, .none⟩,
  -- Row E (0xEX)
  ⟨.oneb, .byteReg .x, .none⟩, ⟨.oneb, .byteReg .a, .none⟩, ⟨.oneb, .byteReg .c, .none⟩,
  ⟨.oneb, .byteReg .b, .none⟩, ⟨.oneb, .saddr, .none⟩, ⟨.oneb, .abs16, .none⟩,
  ⟨.onew, .wordReg .ax, .none⟩, ⟨.onew, .wordReg .bc, .none⟩, ⟨.mov, .byteReg .b, .saddr⟩,
  ⟨.mov, .byteReg .b, .abs16⟩, ⟨.movw, .wordReg .de, .saddr⟩, ⟨.movw, .wordReg .de, .abs16⟩,
  ⟨.br, .abs20, .none⟩, ⟨.br, .abs16, .none⟩, ⟨.br, .rel16, .none⟩, ⟨.br, .rel8, .none⟩,
  -- Row F (0xFX)
  ⟨.clrb, .byteReg .x, .none⟩, ⟨.clrb, .byteReg .a, .none⟩, ⟨.clrb, .byteReg .c, .none⟩,
  ⟨.clrb, .byteReg .b, .none⟩, ⟨.clrb, .saddr, .none⟩, ⟨.clrb, .abs16, .none⟩,
  ⟨.clrw, .wordReg .ax, .none⟩, ⟨.clrw, .wordReg .bc, .none⟩, ⟨.mov, .byteReg .c, .saddr⟩,
  ⟨.mov, .byteReg .c, .abs16⟩, ⟨.movw, .wordReg .hl, .saddr⟩, ⟨.movw, .wordReg .hl, .abs16⟩,
  ⟨.call, .abs20, .none⟩, ⟨.call, .abs16, .none⟩, ⟨.call, .rel16, .none⟩, .unknown]

/-- A row of an operation on `A` and another register, in both directions. -/
def registerRow (mnemonic : Mnemonic) (at9 : Instruction) : List Instruction := [
  ⟨mnemonic, .byteReg .x, .byteReg .a⟩, ⟨mnemonic, .byteReg .a, .byteReg .a⟩,
  ⟨mnemonic, .byteReg .c, .byteReg .a⟩, ⟨mnemonic, .byteReg .b, .byteReg .a⟩,
  ⟨mnemonic, .byteReg .e, .byteReg .a⟩, ⟨mnemonic, .byteReg .d, .byteReg .a⟩,
  ⟨mnemonic, .byteReg .l, .byteReg .a⟩, ⟨mnemonic, .byteReg .h, .byteReg .a⟩,
  ⟨mnemonic, .byteReg .a, .byteReg .x⟩, at9,
  ⟨mnemonic, .byteReg .a, .byteReg .c⟩, ⟨mnemonic, .byteReg .a, .byteReg .b⟩,
  ⟨mnemonic, .byteReg .a, .byteReg .e⟩, ⟨mnemonic, .byteReg .a, .byteReg .d⟩,
  ⟨mnemonic, .byteReg .a, .byteReg .l⟩, ⟨mnemonic, .byteReg .a, .byteReg .h⟩]

def decodeTable2ndMap : List Instruction :=
  registerRow .add ⟨.addw, .wordReg .ax, .indRegImm .hl⟩ ++
  registerRow .addc .unknown ++
  registerRow .sub ⟨.subw, .wordReg .ax, .indRegImm .hl⟩ ++
  registerRow .subc .unknown ++
  registerRow .cmp ⟨.cmpw, .wordReg .ax, .indRegImm .hl⟩ ++
  registerRow .and ⟨.inc, .indRegImm .hl, .none⟩ ++
  registerRow .or ⟨.dec, .indRegImm .hl, .none⟩ ++
  registerRow .xor ⟨.incw, .indRegImm .hl, .none⟩ ++
  [
  -- Row 8 (0x8X)
  ⟨.add, .byteReg .a, .indRegReg .hl .b⟩, .unknown, ⟨.add, .byteReg .a, .indRegReg .hl .c⟩,
  .unknown, ⟨.callt, .callt 0x80, .none⟩, ⟨.callt, .callt 0x90, .none⟩,
  ⟨.callt, .callt 0xa0, .none⟩, ⟨.callt, .callt 0xb0, .none⟩, .unknown,
  ⟨.decw, .indRegImm .hl, .none⟩, ⟨.xch, .byteReg .a, .byteReg .c⟩,
  ⟨.xch, .byteReg .a, .byteReg .b⟩, ⟨.xch, .byteReg .a, .byteReg .e⟩,
  ⟨.xch, .byteReg .a, .byteReg .d⟩, ⟨.xch, .byteReg .a, .byteReg .l⟩,
  ⟨.xch, .byteReg .a, .byteReg .h⟩,
  -- Row 9 (0x9X)
  ⟨.addc, .byteReg .a, .indRegReg .hl .b⟩, .unknown, ⟨.addc, .byteReg .a, .indRegReg .hl .c⟩,
  .unknown, ⟨.callt, .callt 0x82, .none⟩, ⟨.callt, .callt 0x92, .none⟩,
  ⟨.callt, .callt 0xa2, .none⟩, ⟨.callt, .callt 0xb2, .none⟩, .unknown, .unknown, .unknown,
  .unknown, .unknown, .unknown, .unknown, .unknown,
  -- Row A (0xAX)
  ⟨.sub, .byteReg .a, .indRegReg .hl .b⟩, .unknown, ⟨.sub, .byteReg .a, .indRegReg .hl .c⟩,
  .unknown, ⟨.callt, .callt 0x84, .none⟩, ⟨.callt, .callt 0x94, .none⟩,
  ⟨.callt, .callt 0xa4, .none⟩, ⟨.callt, .callt 0xb4, .none⟩, ⟨.xch, .byteReg .a, .saddr⟩,
  ⟨.xch, .byteReg .a, .indRegReg .hl .c⟩, ⟨.xch, .byteReg .a, .abs16⟩, ⟨.xch, .byteReg .a, .sfr⟩,
  ⟨.xch, .byteReg .a, .indReg .hl⟩, ⟨.xch, .byteReg .a, .indRegImm .hl⟩,
  ⟨.xch, .byteReg .a, .indReg .de⟩, ⟨.xch, .byteReg .a, .indRegImm .de⟩,
  -- Row B (0xBX)
  ⟨.subc, .byteReg .a, .indRegReg .hl .b⟩, .unknown, ⟨.subc, .byteReg .a, .indRegReg .hl .c⟩,
  .unknown, ⟨.callt, .callt 0x86, .none⟩, ⟨.callt, .callt 0x96, .none⟩,
  ⟨.callt, .callt 0xa6, .none⟩, ⟨.callt, .callt 0xb6, .none⟩, ⟨.mov, .es, .saddr⟩,
  ⟨.xch, .byteReg .a, .indRegReg .hl .b⟩, .unknown, .unknown, .unknown, .unknown, .unknown,
  .unknown,
  -- Row C (0xCX)
  ⟨.cmp, .byteReg .a, .indRegReg .hl .b⟩, .unknown, ⟨.cmp, .byteReg .a, .indRegReg .hl .c⟩,
  ⟨.bh, .rel8, .none⟩, ⟨.callt, .callt 0x88, .none⟩, ⟨.callt, .callt 0x98, .none⟩,
  ⟨.callt, .callt 0xa8, .none⟩, ⟨.callt, .callt 0xb8, .none⟩, ⟨.skc, .none, .none⟩,
  ⟨.mov, .byteReg .a, .indRegReg .hl .b⟩, ⟨.call, .wordReg .ax, .none⟩, ⟨.br, .wordReg .ax, .none⟩,
  ⟨.brk, .none, .none⟩, ⟨.pop, .psw, .none⟩, ⟨.movs, .indRegImm .hl, .byteReg .x⟩,
  ⟨.sel, .selRb 0, .none⟩,
  -- Row D (0xDX)
  ⟨.and, .byteReg .a, .indRegReg .hl .b⟩, .unknown, ⟨.and, .byteReg .a, .indRegReg .hl .c⟩,
  ⟨.bnh, .rel8, .none⟩, ⟨.callt, .callt 0x8a, .none⟩, ⟨.callt, .callt 0x9a, .none⟩,
  ⟨.callt, .callt 0xaa, .none⟩, ⟨.callt, .callt 0xba, .none⟩, ⟨.sknc, .none, .none⟩,
  ⟨.mov, .indRegReg .hl .b, .byteReg .a⟩, ⟨.call, .wordReg .bc, .none⟩, ⟨.ror, .byteReg .a, .none⟩,
  ⟨.rolc, .byteReg .a, .none⟩, ⟨.push, .psw, .none⟩, ⟨.cmps, .byteReg .x, .indRegImm .hl⟩,
  ⟨.sel, .selRb 1, .none⟩,
  -- Row E (0xEX)
  ⟨.or, .byteReg .a, .indRegReg .hl .b⟩, .unknown, ⟨.or, .byteReg .a, .indRegReg .hl .c⟩,
  ⟨.skh, .none, .none⟩, ⟨.callt, .callt 0x8c, .none⟩, ⟨.callt, .callt 0x9c, .none⟩,
  ⟨.callt, .callt 0xac, .none⟩, ⟨.callt, .callt 0xbc, .none⟩, ⟨.skz, .none, .none⟩,
  ⟨.mov, .byteReg .a, .indRegReg .hl .c⟩, ⟨.call, .wordReg .de, .none⟩, ⟨.rol, .byteReg .a, .none⟩,
  ⟨.retb, .none, .none⟩, ⟨.halt, .none, .none⟩, ⟨.rolwc, .wordReg .ax, .none⟩,
  ⟨.sel, .selRb 2, .none⟩,
  -- Row F (0xFX)
  ⟨.xor, .byteReg .a, .indRegReg .hl .b⟩, .unknown, ⟨.xor, .byteReg .a, .indRegReg .hl .c⟩,
  ⟨.sknh, .none, .none⟩, ⟨.callt, .callt 0x8e, .none⟩, ⟨.callt, .callt 0x9e, .none⟩,
  ⟨.callt, .callt 0xae, .none⟩, ⟨.callt, .callt 0xbe, .none⟩, ⟨.sknz, .none, .none⟩,
  ⟨.mov, .indRegReg .hl .c, .byteReg .a⟩, ⟨.call, .wordReg .hl, .none⟩, ⟨.rorc, .byteReg .a, .none⟩,
  ⟨.reti, .none, .none⟩, ⟨.stop, .none, .none⟩, ⟨.rolwc, .wordReg .bc, .none⟩,
  ⟨.sel, .selRb 3, .none⟩]

/-- `MAP_3RD_00_7F` -/
def map3rd00To7F (n : Nat) : List Instruction := [
  ⟨.set1, .bit .abs16 n, .none⟩, ⟨.mov1, .bit .saddr n, .bit .cy 0⟩, ⟨.set1, .bit .saddr n, .none⟩,
  ⟨.clr1, .bit .saddr n, .none⟩, ⟨.mov1, .bit .cy 0, .bit .saddr n⟩,
  ⟨.and1, .bit .cy 0, .bit .saddr n⟩, ⟨.or1, .bit .cy 0, .bit .saddr n⟩,
  ⟨.xor1, .bit .cy 0, .bit .saddr n⟩, ⟨.clr1, .bit .abs16 n, .none⟩,
  ⟨.mov1, .bit .sfr n, .bit .cy 0⟩, ⟨.set1, .bit .sfr n, .none⟩, ⟨.clr1, .bit .sfr n, .none⟩,
  ⟨.mov1, .bit .cy 0, .bit .sfr n⟩, ⟨.and1, .bit .cy 0, .bit .sfr n⟩,
  ⟨.or1, .bit .cy 0, .bit .sfr n⟩, ⟨.xor1, .bit .cy 0, .bit .sfr n⟩]

/-- `MAP_3RD_80_FF`, with the entries of the table for its places 0 and 8 -/
def map3rd80ToFF (n : Nat) (at0 at8 : Instruction) : List Instruction := [
  at0, ⟨.mov1, .bit .indHl n, .bit .cy 0⟩, ⟨.set1, .bit .indHl n, .none⟩,
  ⟨.clr1, .bit .indHl n, .none⟩, ⟨.mov1, .bit .cy 0, .bit .indHl n⟩,
  ⟨.and1, .bit .cy 0, .bit .indHl n⟩, ⟨.or1, .bit .cy 0, .bit .indHl n⟩,
  ⟨.xor1, .bit .cy 0, .bit .indHl n⟩, at8, ⟨.mov1, .bit .regA n, .bit .cy 0⟩,
  ⟨.set1, .bit .regA n, .none⟩, ⟨.clr1, .bit .regA n, .none⟩, ⟨.mov1, .bit .cy 0, .bit .regA n⟩,
  ⟨.and1, .bit .cy 0, .bit .regA n⟩, ⟨.or1, .bit .cy 0, .bit .regA n⟩,
  ⟨.xor1, .bit .cy 0, .bit .regA n⟩]

def decodeTable3rdMap : List Instruction :=
  (List.range 8).flatMap map3rd00To7F ++
  map3rd80ToFF 0 ⟨.set1, .bit .cy 0, .none⟩ ⟨.clr1, .bit .cy 0, .none⟩ ++
  map3rd80ToFF 1 .unknown .unknown ++
  map3rd80ToFF 2 .unknown .unknown ++
  map3rd80ToFF 3 .unknown .unknown ++
  map3rd80ToFF 4 ⟨.not1, .bit .cy 0, .none⟩ .unknown ++
  map3rd80ToFF 5 .unknown .unknown ++
  map3rd80ToFF 6 .unknown .unknown ++
  map3rd80ToFF 7 .unknown .unknown

/-- `MAP_4TH_00_75` and `MAP_4TH_80_F5` -/
def map4thBits (first second : BitOpKind) (n : Nat) : List Instruction := [
  ⟨.btclr, .bit first n, .rel8⟩, ⟨.btclr, .bit second n, .rel8⟩,
  ⟨.bt, .bit first n, .rel8⟩, ⟨.bt, .bit second n, .rel8⟩,
  ⟨.bf, .bit first n, .rel8⟩, ⟨.bf, .bit second n, .rel8⟩, .unknown]

/-- `MAP_4TH_17_7B` -/
def map4th17To7B (n : Nat) : List Instruction := [
  ⟨.shl, .byteReg .c, .shamt n⟩, ⟨.shl, .byteReg .b, .shamt n⟩, ⟨.shl, .byteReg .a, .shamt n⟩,
  ⟨.shr, .byteReg .a, .shamt n⟩, ⟨.sar, .byteReg .a, .shamt n⟩]

/-- `MAP_4TH_1C_FF` -/
def map4th1CToFF (n : Nat) : List Instruction := [
  ⟨.shlw, .wordReg .bc, .shamt n⟩, ⟨.shlw, .wordReg .ax, .shamt n⟩,
  ⟨.shrw, .wordReg .ax, .shamt n⟩, ⟨.sarw, .wordReg .ax, .shamt n⟩]

def decodeTable4thMap : List Instruction :=
  map4thBits .saddr .regA 0 ++ List.replicate 9 .unknown ++
  ((List.range 7).flatMap fun n =>
    map4thBits .saddr .regA (n + 1) ++ map4th17To7B (n + 1) ++ map4th1CToFF (n + 1)) ++
  ((List.range 8).flatMap fun n =>
    map4thBits .sfr .indHl n ++ List.replicate 5 .unknown ++ map4th1CToFF (n + 8))

end Tlib.Rl78
