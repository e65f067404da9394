import Mathlib.Tactic.Positivity
import Tlib.Library.CarryBits
import Tlib.Rl78.BitClears

/-!
Contract: arithmetic, shifts and rotations against the arithmetic of integers.

Owns: what each of these instructions computes with its flags, and that its generated code computes
it.
-/

namespace Tlib.Rl78

open Tlib.Library.Words Tlib.Library.CarryBits Int Nat

variable {σ : Type} {B : Bus σ} {ctx : Context} {m : Machine σ}

/-! ### What is computed -/

/-- The flags that an instruction defines; it leaves the others alone. -/
structure Flags where
  cy : Option Nat := none
  ac : Option Nat := none
  z : Option Nat := none

def Flags.set (flags : Flags) (psw : Psw) : Psw :=
  { psw with
    cy := flags.cy.getD psw.cy
    ac := flags.ac.getD psw.ac
    z := flags.z.getD psw.z }

/-- What is stored, if something is, and the flags. -/
structure Outcome where
  value : Option Nat
  flags : Flags := {}

namespace Outcome

def addition (bits a b carry : Nat) : Outcome where
  value := some ((a + b + carry) % 2 ^ bits)
  flags :=
    { cy := some (carryOut bits a b carry)
      ac := some (carryOut 4 a b carry)
      z := some (boolWord ((a + b + carry) % 2 ^ bits = 0)) }

def difference (bits a b borrow : Nat) : Nat := (((a : Int) - b - borrow) % 2 ^ bits).toNat

def subtraction (bits a b borrow : Nat) : Outcome where
  value := some (difference bits a b borrow)
  flags :=
    { cy := some (borrowOut bits a b borrow)
      ac := some (borrowOut 4 a b borrow)
      z := some (boolWord (difference bits a b borrow = 0)) }

def compared (outcome : Outcome) : Outcome := { outcome with value := none }

/-- The instructions on words do not have the carry out of bit 3. -/
def clearsAc (outcome : Outcome) : Outcome := { outcome with flags.ac := some 0 }

def keepsCy (outcome : Outcome) : Outcome := { outcome with flags.cy := none }

def keepsFlags (outcome : Outcome) : Outcome := { outcome with flags := {} }

/-- `CMPS` sets the carry flag if the operands differ, or one of `A` and `X` is 0. -/
def comparedStrings (x b a : Nat) : Outcome :=
  { (subtraction 8 x b 0).compared with flags.cy := some (boolWord (x ≠ b ∨ a = 0 ∨ x = 0)) }

def shiftedRight (a count : Nat) : Outcome where
  value := some (a / 2 ^ count)
  flags := { cy := some (a / 2 ^ (count - 1) % 2) }

def shiftedLeft (bits a count : Nat) : Outcome where
  value := some (a * 2 ^ count % 2 ^ bits)
  flags := { cy := some (a / 2 ^ (bits - count) % 2) }

def signed (bits a : Nat) : Int := if a < 2 ^ (bits - 1) then a else (a : Int) - 2 ^ bits

def shiftedArithmetic (bits a count : Nat) : Outcome where
  value := some ((signed bits a / 2 ^ count) % 2 ^ bits).toNat
  flags := { cy := some (a / 2 ^ (count - 1) % 2) }

def rotatedRight (bits a top : Nat) : Outcome where
  value := some (a / 2 + 2 ^ (bits - 1) * top)
  flags := { cy := some (a % 2) }

def rotatedLeft (bits a low : Nat) : Outcome where
  value := some (2 * a % 2 ^ bits + low)
  flags := { cy := some (a / 2 ^ (bits - 1)) }

end Outcome

section

variable (B) (ctx) (insn : Instruction)

def storeValue (dst : Operand) (memop : MemOp) : Option Nat → Exec σ Unit
  | some value => rl78GenStoreOperand B ctx dst value memop
  | none => return

def perform (dst : Operand) (memop : MemOp) (outcome : Outcome) : Exec σ Unit := do
  storeValue B ctx dst memop outcome.value
  modify fun m => { m with cpu.psw := outcome.flags.set m.cpu.psw }

/-- An instruction that combines the carry flag and its two operands. -/
def binary (memop : MemOp) (outcome : Nat → Nat → Nat → Outcome) : Exec σ Unit := do
  let op0 ← rl78GenLoadOperand B ctx insn.operand0 memop
  let op1 ← rl78GenLoadOperand B ctx insn.operand1 memop
  let m ← get
  perform B ctx insn.operand0 memop (outcome m.cpu.psw.cy op0 op1)

def unary (memop : MemOp) (outcome : Nat → Nat → Outcome) : Exec σ Unit := do
  let op0 ← rl78GenLoadOperand B ctx insn.operand0 memop
  let m ← get
  perform B ctx insn.operand0 memop (outcome m.cpu.psw.cy op0)

def compareStrings : Exec σ Unit := do
  let x ← rl78GenLoadOperand B ctx insn.operand0 .mo8
  let op1 ← rl78GenLoadOperand B ctx insn.operand1 .mo8
  let a ← loadByteReg .a
  perform B ctx insn.operand0 .mo8 (.comparedStrings x op1 a)

def multiply : Exec σ Unit := do
  let a ← loadByteReg .a
  let x ← loadByteReg .x
  perform B ctx (.wordReg .ax) .mo16 { value := some (a * x) }

open Outcome in
def computes : Exec σ Unit :=
  match insn.mnemonic with
  | .add => binary B ctx insn .mo8 fun _ a b => addition 8 a b 0
  | .addc => binary B ctx insn .mo8 fun cy a b => addition 8 a b cy
  | .sub => binary B ctx insn .mo8 fun _ a b => subtraction 8 a b 0
  | .subc => binary B ctx insn .mo8 fun cy a b => subtraction 8 a b cy
  | .cmp => binary B ctx insn .mo8 fun _ a b => (subtraction 8 a b 0).compared
  | .cmp0 => unary B ctx insn .mo8 fun _ a => (subtraction 8 a 0 0).compared
  | .cmps => compareStrings B ctx insn
  | .addw => binary B ctx insn .mo16 fun _ a b => (addition 16 a b 0).clearsAc
  | .subw => binary B ctx insn .mo16 fun _ a b => (subtraction 16 a b 0).clearsAc
  | .cmpw => binary B ctx insn .mo16 fun _ a b => (subtraction 16 a b 0).clearsAc.compared
  | .mulu => multiply B ctx
  | .inc => unary B ctx insn .mo8 fun _ a => (addition 8 a 1 0).keepsCy
  | .dec => unary B ctx insn .mo8 fun _ a => (subtraction 8 a 1 0).keepsCy
  | .incw => unary B ctx insn .mo16 fun _ a => (addition 16 a 1 0).keepsFlags
  | .decw => unary B ctx insn .mo16 fun _ a => (subtraction 16 a 1 0).keepsFlags
  | .shr => binary B ctx insn .mo8 fun _ a count => shiftedRight a count
  | .shrw => binary B ctx insn .mo16 fun _ a count => shiftedRight a count
  | .shl => binary B ctx insn .mo8 fun _ a count => shiftedLeft 8 a count
  | .shlw => binary B ctx insn .mo16 fun _ a count => shiftedLeft 16 a count
  | .sar => binary B ctx insn .mo8 fun _ a count => shiftedArithmetic 8 a count
  | .sarw => binary B ctx insn .mo16 fun _ a count => shiftedArithmetic 16 a count
  | .ror => unary B ctx insn .mo8 fun _ a => rotatedRight 8 a (a % 2)
  | .rol => unary B ctx insn .mo8 fun _ a => rotatedLeft 8 a (a / 2 ^ 7)
  | .rorc => unary B ctx insn .mo8 fun cy a => rotatedRight 8 a cy
  | .rolc => unary B ctx insn .mo8 fun cy a => rotatedLeft 8 a cy
  | .rolwc => unary B ctx insn .mo16 fun cy a => rotatedLeft 16 a cy
  | _ => return

end

/-! ### Operands -/

def Operand.ofWidth : MemOp → Operand → Bool
  | .mo8, .byteReg _ | .mo8, .indReg _ | .mo8, .indRegReg _ _ => true
  | .mo16, .wordReg _ | .mo16, .sp | .mo16, .imm16 _ => true
  | _, .imm8 _ | _, .abs16 _ | _, .saddr _ | _, .indRegImm _ _ | _, .shamt _ => true
  | _, _ => false

theorem sfrLoad_lt (range : InRange m.cpu) (es : m.cpu.es < 2 ^ 8) {paddr : Nat}
    (register : paddr ∈ byteRegisters) : ((sfrLoad B paddr).run m).1 < 2 ^ 8 := by
  rcases mem_byteRegisters.mp register with rfl | rfl | rfl | rfl | rfl
  · exact extract_lt _ 0 8
  · exact extract_lt _ 8 8
  · have cy := range.psw.cy_le
    have packed : cpuPackPsw m.cpu.psw < 2 ^ 8 :=
      registerByte_lt (by decide : 0xFFFFA ∈ byteRegisters)
    show pswWord m.cpu.psw < 2 ^ 8
    rw [pswWord_eq]
    omega
  · have cs := range.cs_le
    show m.cpu.cs < 2 ^ 8
    omega
  · exact es

/-- A load changes the memory system alone, and has the width of its operand. -/
structure Loads (load : Exec σ Nat) (memop : MemOp) (m : Machine σ) : Prop where
  run : ∃ value bus, load.run m = (value, m.setBus bus) ∧ value < 2 ^ memop.bits

theorem rl78GenLoad_loads (addr : Nat) (memop : MemOp) : Loads (rl78GenLoad B addr memop) memop m :=
  ⟨_, _, rfl, B.load_lt memop _ _⟩

theorem loadPaddr_loads (range : InRange m.cpu) (es : m.cpu.es < 2 ^ 8) (paddr : Nat) (memop : MemOp) :
    Loads (loadPaddr B paddr memop) memop m := by
  cases memop with
  | mo8 =>
    show Loads (loadBytePaddr B paddr) .mo8 m
    by_cases register : paddr ∈ byteRegisters
    · exact ⟨_, m.bus, loadBytePaddr_register register, sfrLoad_lt range es register⟩
    · rw [loadBytePaddr_memory register]
      exact rl78GenLoad_loads paddr .mo8
  | mo16 =>
    show Loads (loadWordPaddr B paddr) .mo16 m
    unfold loadWordPaddr
    split
    · exact ⟨_, m.bus, rfl, (mask_sp m.cpu.sp).2⟩
    · exact rl78GenLoad_loads paddr .mo16

theorem loadOperand_loads (ctx : Context) {op : Operand} {memop : MemOp} (range : InRange m.cpu)
    (es : m.cpu.es < 2 ^ 8) (width : op.ofWidth memop = true) :
    Loads (rl78GenLoadOperand B ctx op memop) memop m := by
  have known (paddr : Nat) (is : operandPaddr ctx op = some paddr) :
      Loads (rl78GenLoadOperand B ctx op memop) memop m := by
    rw [load_of_paddr memop is]
    exact loadPaddr_loads range es paddr memop
  have runTime (addr : Exec σ Nat) (is : operandRunAddr ctx op = some addr) :
      Loads (rl78GenLoadOperand B ctx op memop) memop m := by
    have loads := @rl78GenLoad_loads σ B m (addr.run m).1 memop
    exact ⟨by rw [load_of_runAddr memop is]; exact loads.run⟩
  cases op with
  | byteReg reg =>
    cases memop with
    | mo8 => exact ⟨_, m.bus, loadByteReg_run range reg, m.cpu.byteValue_lt reg⟩
    | mo16 => cases width
  | wordReg reg =>
    cases memop with
    | mo8 => cases width
    | mo16 => exact ⟨_, m.bus, loadWordReg_run range reg, m.cpu.wordValue_lt reg⟩
  | sp =>
    cases memop with
    | mo8 => cases width
    | mo16 => exact ⟨_, m.bus, rfl, (mask_sp m.cpu.sp).2⟩
  | imm8 constOp =>
    refine ⟨constOp &&& 0xFF, m.bus, rfl, ?_⟩
    have low := and_le_right (n := constOp) (m := 0xFF)
    cases memop <;> simp only [MemOp.bits] <;> omega
  | imm16 constOp =>
    cases memop with
    | mo8 => cases width
    | mo16 => exact ⟨constOp &&& 0xFFFF, m.bus, rfl, (and_le_right).trans_lt (by decide)⟩
  | shamt constOp =>
    refine ⟨constOp &&& 0x1F, m.bus, rfl, ?_⟩
    have low := and_le_right (n := constOp) (m := 0x1F)
    cases memop <;> simp only [MemOp.bits] <;> omega
  | abs16 addr =>
    by_cases useEs : ctx.useEs = true
    · exact runTime _ (if_pos useEs)
    · exact known _ (if_neg useEs)
  | saddr addr => exact known _ rfl
  | indReg base => exact runTime _ rfl
  | indRegReg base idx => exact runTime _ rfl
  | indRegImm base imm => exact runTime _ rfl
  | _ => cases memop <;> cases width

theorem load_congr {load : Exec σ Nat} {memop : MemOp} {F G : Nat → Exec σ Unit}
    (loads : Loads load memop m)
    (same : ∀ value bus, value < 2 ^ memop.bits →
      (F value).run (m.setBus bus) = (G value).run (m.setBus bus)) :
    (load >>= F).run m = (load >>= G).run m := by
  obtain ⟨value, bus, run, small⟩ := loads.run
  rw [StateT.run_bind, StateT.run_bind, run]
  exact same value bus small

/-! ### Stores of wide results -/

/-- A store of generated code takes the lower bits of a value. -/
def Bus.Truncates (B : Bus σ) : Prop := ∀ memop addr data s,
  B.store memop addr (data % 2 ^ memop.bits) s = B.store memop addr data s

theorem extract_mod {data start length bits : Nat} (inside : start + length ≤ bits) :
    extract (data % 2 ^ bits) start length = extract data start length := by
  obtain ⟨rest, rfl⟩ := Nat.exists_eq_add_of_le inside
  unfold extract
  rw [Nat.add_assoc, Nat.pow_add, mod_mul_right_div_self, Nat.pow_add, Nat.mod_mul_right_mod]

theorem deposit_mod {a data start length bits : Nat} (inside : length ≤ bits) :
    deposit a (data % 2 ^ bits) start length = deposit a data start length := by
  obtain ⟨rest, rfl⟩ := Nat.exists_eq_add_of_le inside
  unfold deposit
  rw [Nat.pow_add 2 length rest, Nat.mod_mul_right_mod]

theorem low_byte_mod (data : Nat) : (data % 2 ^ 8) &&& 0xFF = data &&& 0xFF := by
  rw [and_low_byte, and_low_byte]
  exact mod_mod data 256

theorem storeByteReg_low (reg : ByteRegister) (data : Nat) :
    storeByteReg (σ := σ) reg (data % 2 ^ 8) = storeByteReg reg data := by
  unfold storeByteReg
  rw [low_byte_mod]

theorem storeWordReg_low (reg : WordRegister) (data : Nat) :
    storeWordReg (σ := σ) reg (data % 2 ^ 16) = storeWordReg reg data := by
  have low : (data % 2 ^ 16) &&& 0xFF = data &&& 0xFF := by
    rw [and_low_byte, and_low_byte]
    omega
  have high : ((data % 2 ^ 16) >>> 8) &&& 0xFF = (data >>> 8) &&& 0xFF := by
    rw [and_low_byte, and_low_byte, Nat.shiftRight_eq_div_pow, Nat.shiftRight_eq_div_pow]
    omega
  unfold storeWordReg
  rw [low, high]

theorem storeSp_low (data : Nat) : storeSp (σ := σ) (data % 2 ^ 16) = storeSp data := by
  have low : (data % 2 ^ 16) &&& 0xFFFE = data &&& 0xFFFE := by
    rw [and_fffe, and_fffe]
    omega
  unfold storeSp
  rw [low]

theorem storePsw_low (data : Nat) : storePsw (σ := σ) (data % 2 ^ 8) = storePsw data := by
  unfold storePsw
  rw [extract_mod (by decide), extract_mod (by decide), extract_mod (by decide),
    extract_mod (by decide), extract_mod (by decide), extract_mod (by decide),
    extract_mod (by decide)]

theorem helperMduCmd_low (data : Nat) : helperMduCmd B (data % 2 ^ 8) = helperMduCmd B data := by
  unfold helperMduCmd
  rw [low_byte_mod]

theorem writeByte_low (paddr data : Nat) :
    writeByte B paddr (data % 2 ^ 8) = writeByte B paddr data := by
  unfold writeByte
  rw [low_byte_mod]

theorem storeBytePaddr_low (paddr data : Nat) :
    storeBytePaddr B paddr (data % 2 ^ 8) = storeBytePaddr B paddr data := by
  have high (a : Nat) : deposit a (data % 2 ^ 8) 8 8 = deposit a data 8 8 := deposit_mod (by decide)
  have nibble (a : Nat) : deposit a (data % 2 ^ 8) 0 4 = deposit a data 0 4 :=
    deposit_mod (by decide)
  unfold storeBytePaddr
  split
  · rw [extract_mod (by decide)]
  · simp only [high]
  · exact storePsw_low data
  · exact helperMduCmd_low data
  · simp only [nibble]
  · simp only [nibble]
  · exact writeByte_low _ data

theorem rl78GenStore_low (truncates : B.Truncates) (addr data : Nat) (memop : MemOp) :
    rl78GenStore B addr (data % 2 ^ memop.bits) memop = rl78GenStore B addr data memop := by
  funext m
  show ((), m.setBus (B.store memop (actualAddr addr memop) (data % 2 ^ memop.bits) m.bus)) = _
  rw [truncates]
  rfl

theorem storePaddr_low (truncates : B.Truncates) (paddr data : Nat) (memop : MemOp) :
    storePaddr B paddr (data % 2 ^ memop.bits) memop = storePaddr B paddr data memop := by
  cases memop with
  | mo8 => exact storeBytePaddr_low paddr data
  | mo16 =>
    show storeWordPaddr B paddr (data % 2 ^ 16) = storeWordPaddr B paddr data
    unfold storeWordPaddr
    split
    · exact storeSp_low data
    · exact rl78GenStore_low truncates paddr data .mo16

theorem storeOperand_low (truncates : B.Truncates) (ctx : Context) {op : Operand} {memop : MemOp}
    (data : Nat) (width : op.ofWidth memop = true) :
    (rl78GenStoreOperand B ctx op (data % 2 ^ memop.bits) memop).run m =
      (rl78GenStoreOperand B ctx op data memop).run m := by
  have known (paddr : Nat) (is : operandPaddr ctx op = some paddr) :
      (rl78GenStoreOperand B ctx op (data % 2 ^ memop.bits) memop).run m =
        (rl78GenStoreOperand B ctx op data memop).run m := by
    rw [store_of_paddr _ memop is, store_of_paddr _ memop is, storePaddr_low truncates]
  have runTime (addr : Exec σ Nat) (is : operandRunAddr ctx op = some addr) :
      (rl78GenStoreOperand B ctx op (data % 2 ^ memop.bits) memop).run m =
        (rl78GenStoreOperand B ctx op data memop).run m := by
    rw [store_of_runAddr _ memop is, store_of_runAddr _ memop is, rl78GenStore_low truncates]
  cases op with
  | byteReg reg =>
    cases memop with
    | mo8 => exact congrArg (StateT.run · m) (storeByteReg_low reg data)
    | mo16 => cases width
  | wordReg reg =>
    cases memop with
    | mo8 => cases width
    | mo16 => exact congrArg (StateT.run · m) (storeWordReg_low reg data)
  | sp =>
    cases memop with
    | mo8 => cases width
    | mo16 => exact congrArg (StateT.run · m) (storeSp_low data)
  | imm8 constOp => rfl
  | imm16 constOp => rfl
  | shamt constOp => rfl
  | abs16 addr =>
    by_cases useEs : ctx.useEs = true
    · exact runTime _ (if_pos useEs)
    · exact known _ (if_neg useEs)
  | saddr addr => exact known _ rfl
  | indReg base => exact runTime _ rfl
  | indRegReg base idx => exact runTime _ rfl
  | indRegImm base imm => exact runTime _ rfl
  | _ => cases memop <;> cases width

/-! ### Results and flags -/

theorem zeroByte_eq (result : Nat) : zeroByte result = boolWord (result % 2 ^ 8 = 0) := by
  unfold zeroByte boolWord
  rw [and_low_byte]
  rfl

theorem zeroWord_eq (result : Nat) : zeroWord result = boolWord (result % 2 ^ 16 = 0) := by
  unfold zeroWord boolWord
  rw [and_low_word]
  rfl

theorem boolWord_or (p q : Prop) [Decidable p] [Decidable q] :
    boolWord p ||| boolWord q = boolWord (p ∨ q) := by
  unfold boolWord
  by_cases left : p <;> by_cases right : q <;> simp [left, right]

theorem add32_add32 {a b carry : Nat} (left : a < 2 ^ 16) (right : b < 2 ^ 16) (small : carry ≤ 1) :
    add32 (add32 a b) carry = a + b + carry := by
  have sum : add32 a b = a + b := add32_eq (by omega)
  rw [sum, add32_eq (by omega)]

theorem sub32_sub32 {a b borrow : Nat} (left : a < 2 ^ 16) (right : b < 2 ^ 16) (small : borrow ≤ 1) :
    ∃ turns, sub32 (sub32 a b) borrow + b + borrow = a + 2 ^ 32 * turns := by
  refine ⟨if a < b + borrow then 1 else 0, ?_⟩
  unfold sub32
  split <;> omega

theorem difference_eq {bits a b borrow result turns : Nat} (less : bits ≤ 32)
    (is : result + b + borrow = a + 2 ^ 32 * turns) :
    result % 2 ^ bits = Outcome.difference bits a b borrow := by
  obtain ⟨rest, total⟩ := Nat.exists_eq_add_of_le less
  have whole : (a : Int) - b - borrow = (result : Int) + 2 ^ bits * (-(2 ^ rest * (turns : Int))) := by
    have cast : (result : Int) + b + borrow = a + 2 ^ 32 * (turns : Int) := by exact_mod_cast is
    have split' : (2 : Int) ^ 32 = 2 ^ bits * 2 ^ rest := by rw [total, pow_add]
    rw [split', mul_assoc] at cast
    rw [Int.mul_neg]
    omega
  have low : (result : Int) % 2 ^ bits = ((result % 2 ^ bits : Nat) : Int) := by
    push_cast
    rfl
  unfold Outcome.difference
  rw [whole, add_mul_emod_self_left, low, toNat_natCast]

theorem addition_eq {bits a b carry result : Nat} (left : a < 2 ^ bits) (right : b < 2 ^ bits)
    (small : carry ≤ 1) (is : result = a + b + carry) :
    Outcome.addition bits a b carry =
      { value := some (result % 2 ^ bits)
        flags :=
          { cy := some ((result >>> bits) &&& 1)
            ac := some (halfCarry a b result)
            z := some (boolWord (result % 2 ^ bits = 0)) } } := by
  have cy := sum_bit left right small
  have ac := xor_sum_bit 4 a b small
  rw [← is] at cy ac
  unfold Outcome.addition halfCarry
  rw [cy, ac, is]

theorem subtraction_eq {bits a b borrow result turns : Nat} (width : bits ≤ 16)
    (left : a < 2 ^ bits) (right : b < 2 ^ bits) (small : borrow ≤ 1)
    (is : result + b + borrow = a + 2 ^ 32 * turns) :
    Outcome.subtraction bits a b borrow =
      { value := some (result % 2 ^ bits)
        flags :=
          { cy := some ((result >>> bits) &&& 1)
            ac := some (halfBorrow a b result)
            z := some (boolWord (result % 2 ^ bits = 0)) } } := by
  obtain ⟨rest, total⟩ := Nat.exists_eq_add_of_le (show bits + 1 ≤ 32 by omega)
  have split' : 2 ^ 32 * turns = 2 ^ (bits + 1) * (2 ^ rest * turns) := by
    rw [total, Nat.pow_add, Nat.mul_assoc]
  have nibble : 2 ^ 32 * turns = 2 ^ (4 + 1) * (2 ^ 27 * turns) := by omega
  have cy := difference_bit (is.trans (congrArg (a + ·) split')) left right small
  have ac := xor_difference_bit (is.trans (congrArg (a + ·) nibble)) small
  have value := difference_eq (show bits ≤ 32 by omega) is
  unfold Outcome.subtraction halfBorrow
  rw [cy, ac, value]

theorem addition_byte {a b carry : Nat} (left : a < 2 ^ 8) (right : b < 2 ^ 8) (small : carry ≤ 1) :
    Outcome.addition 8 a b carry =
      { value := some (add32 (add32 a b) carry % 2 ^ 8)
        flags :=
          { cy := some (carryByte (add32 (add32 a b) carry))
            ac := some (halfCarry a b (add32 (add32 a b) carry))
            z := some (zeroByte (add32 (add32 a b) carry)) } } := by
  rw [addition_eq left right small (add32_add32 (by omega) (by omega) small), zeroByte_eq]
  rfl

theorem addition_word {a b carry : Nat} (left : a < 2 ^ 16) (right : b < 2 ^ 16)
    (small : carry ≤ 1) :
    Outcome.addition 16 a b carry =
      { value := some (add32 (add32 a b) carry % 2 ^ 16)
        flags :=
          { cy := some (carryWord (add32 (add32 a b) carry))
            ac := some (halfCarry a b (add32 (add32 a b) carry))
            z := some (zeroWord (add32 (add32 a b) carry)) } } := by
  rw [addition_eq left right small (add32_add32 left right small), zeroWord_eq]
  rfl

theorem subtraction_byte {a b borrow : Nat} (left : a < 2 ^ 8) (right : b < 2 ^ 8)
    (small : borrow ≤ 1) :
    Outcome.subtraction 8 a b borrow =
      { value := some (sub32 (sub32 a b) borrow % 2 ^ 8)
        flags :=
          { cy := some (borrowByte (sub32 (sub32 a b) borrow))
            ac := some (halfBorrow a b (sub32 (sub32 a b) borrow))
            z := some (zeroByte (sub32 (sub32 a b) borrow)) } } := by
  obtain ⟨turns, is⟩ := @sub32_sub32 a b borrow (by omega) (by omega) small
  rw [subtraction_eq (by decide) left right small is, zeroByte_eq]
  rfl

theorem subtraction_word {a b borrow : Nat} (left : a < 2 ^ 16) (right : b < 2 ^ 16)
    (small : borrow ≤ 1) :
    Outcome.subtraction 16 a b borrow =
      { value := some (sub32 (sub32 a b) borrow % 2 ^ 16)
        flags :=
          { cy := some (borrowWord (sub32 (sub32 a b) borrow))
            ac := some (halfBorrow a b (sub32 (sub32 a b) borrow))
            z := some (zeroWord (sub32 (sub32 a b) borrow)) } } := by
  obtain ⟨turns, is⟩ := sub32_sub32 left right small
  rw [subtraction_eq (by decide) left right small is, zeroWord_eq]
  rfl

theorem add32_zero (a b : Nat) : add32 (add32 a b) 0 = add32 a b := by
  unfold add32
  omega

theorem sub32_zero (a b : Nat) : sub32 (sub32 a b) 0 = sub32 a b := by
  unfold sub32
  omega

/-! ### Performing an outcome -/

section

variable {op : Operand} {memop : MemOp} {result : Nat}

theorem perform_store (truncates : B.Truncates) (ctx : Context) (width : op.ofWidth memop = true)
    (flags : Flags) {rest : Exec σ Unit} (sets : ∀ m : Machine σ,
      rest.run m = ((), { m with cpu.psw := flags.set m.cpu.psw })) :
    (rl78GenStoreOperand B ctx op result memop >>= fun _ => rest).run m =
      (perform B ctx op memop { value := some (result % 2 ^ memop.bits), flags := flags }).run m := by
  unfold perform storeValue
  rw [StateT.run_bind, StateT.run_bind, storeOperand_low truncates ctx result width]
  exact sets _

theorem perform_flags (ctx : Context) (flags : Flags) {rest : Exec σ Unit} (sets :
      rest.run m = ((), { m with cpu.psw := flags.set m.cpu.psw })) :
    rest.run m = (perform B ctx op memop { value := none, flags := flags }).run m := sets

theorem setFlags_sets (cy ac z : Nat) (m : Machine σ) : (setFlags cy ac z).run m =
    ((), { m with cpu.psw := { cy := some cy, ac := some ac, z := some z : Flags }.set m.cpu.psw }) :=
  rfl

theorem setAcZCy_sets (ac z cy : Nat) (m : Machine σ) : ((do
      modify fun m => m.setAc ac
      modify fun m => m.setZ z
      modify fun m => m.setCy cy) : Exec σ Unit).run m =
    ((), { m with cpu.psw := { cy := some cy, ac := some ac, z := some z : Flags }.set m.cpu.psw }) :=
  rfl

end

/-! ### Sums and differences -/

section

variable {insn : Instruction} {code : Nat → Nat}

structure Ready (B : Bus σ) (memop : MemOp) (op0 op1 : Operand) (m : Machine σ) : Prop where
  truncates : B.Truncates
  range : InRange m.cpu
  es_lt : m.cpu.es < 2 ^ 8
  width0 : op0.ofWidth memop = true
  width1 : op1.ofWidth memop = true

theorem Ready.binary_congr {memop : MemOp} {op0 op1 : Operand} (ctx : Context)
    (ready : Ready B memop op0 op1 m) {F G : Nat → Nat → Exec σ Unit}
    (same : ∀ a b bus, a < 2 ^ memop.bits → b < 2 ^ memop.bits →
      (F a b).run (m.setBus bus) = (G a b).run (m.setBus bus)) :
    (rl78GenLoadOperand B ctx op0 memop >>= fun a =>
        rl78GenLoadOperand B ctx op1 memop >>= fun b => F a b).run m =
      (rl78GenLoadOperand B ctx op0 memop >>= fun a =>
        rl78GenLoadOperand B ctx op1 memop >>= fun b => G a b).run m := by
  refine load_congr (loadOperand_loads ctx ready.range ready.es_lt ready.width0) ?_
  intro a bus left
  have loads := @loadOperand_loads σ B (m.setBus bus) ctx _ _ ready.range ready.es_lt ready.width1
  exact load_congr loads fun b bus' right => same a b bus' left right

theorem arithmetic_binary {op : Nat → Nat → Nat → Nat} {carry : Nat → Nat}
    {half : Nat → Nat → Nat → Nat} {outcome : Nat → Nat → Nat → Outcome}
    (ready : Ready B .mo8 insn.operand0 insn.operand1 m)
    (same : ∀ a b cy, a < 2 ^ 8 → b < 2 ^ 8 → cy ≤ 1 → outcome cy a b =
      { value := some (op cy a b % 2 ^ 8)
        flags :=
          { cy := some (carry (op cy a b))
            ac := some (half a b (op cy a b))
            z := some (zeroByte (op cy a b)) } }) :
    (arithmetic B ctx insn op carry half).run m = (binary B ctx insn .mo8 outcome).run m := by
  refine ready.binary_congr ctx fun a b bus left right => ?_
  have step := same a b (m.setBus bus).cpu.psw.cy left right ready.range.psw.cy_le
  rw [get_run, get_run, step]
  exact perform_store ready.truncates ctx ready.width0 _ fun m => setFlags_sets _ _ _ m

theorem arithmeticWord_binary {op : Nat → Nat → Nat} {carry : Nat → Nat}
    {outcome : Nat → Nat → Nat → Outcome}
    (ready : Ready B .mo16 insn.operand0 insn.operand1 m)
    (same : ∀ a b cy, a < 2 ^ 16 → b < 2 ^ 16 → outcome cy a b =
      { value := some (op a b % 2 ^ 16)
        flags :=
          { cy := some (carry (op a b))
            ac := some 0
            z := some (zeroWord (op a b)) } }) :
    (arithmeticWord B ctx insn op carry).run m = (binary B ctx insn .mo16 outcome).run m := by
  refine ready.binary_congr ctx fun a b bus left right => ?_
  rw [get_run, same a b _ left right]
  exact perform_store ready.truncates ctx ready.width0 _ fun m => setFlags_sets _ _ _ m

theorem compare_binary {memop : MemOp} {carry half zero : Nat → Nat → Nat}
    {outcome : Nat → Nat → Nat → Outcome}
    (ready : Ready B memop insn.operand0 insn.operand1 m)
    (same : ∀ a b cy, a < 2 ^ memop.bits → b < 2 ^ memop.bits → outcome cy a b =
      { value := none
        flags := { cy := some (carry a b), ac := some (half a b), z := some (zero a b) } }) :
    ((do
      let op0 ← rl78GenLoadOperand B ctx insn.operand0 memop
      let op1 ← rl78GenLoadOperand B ctx insn.operand1 memop
      setFlags (carry op0 op1) (half op0 op1) (zero op0 op1)) : Exec σ Unit).run m =
      (binary B ctx insn memop outcome).run m := by
  refine ready.binary_congr ctx fun a b bus left right => ?_
  rw [get_run, same a b _ left right]
  exact perform_flags ctx _ (setFlags_sets _ _ _ _)

theorem unary_congr {memop : MemOp} {op0 : Operand} (ctx : Context)
    (ready : Ready B memop op0 op0 m) {F G : Nat → Exec σ Unit}
    (same : ∀ a bus, a < 2 ^ memop.bits → (F a).run (m.setBus bus) = (G a).run (m.setBus bus)) :
    (rl78GenLoadOperand B ctx op0 memop >>= F).run m =
      (rl78GenLoadOperand B ctx op0 memop >>= G).run m :=
  load_congr (loadOperand_loads ctx ready.range ready.es_lt ready.width0) same

theorem step_unary {op : Nat → Nat → Nat} {half : Nat → Nat → Nat → Nat}
    {outcome : Nat → Nat → Outcome} (ready : Ready B .mo8 insn.operand0 insn.operand0 m)
    (same : ∀ a cy, a < 2 ^ 8 → outcome cy a =
      { value := some (op a 1 % 2 ^ 8)
        flags := { ac := some (half a 1 (op a 1)), z := some (zeroByte (op a 1)) } }) :
    (step B ctx insn op half).run m = (unary B ctx insn .mo8 outcome).run m := by
  refine unary_congr ctx ready fun a bus small => ?_
  rw [get_run, same a _ small]
  exact perform_store ready.truncates ctx ready.width0 _ fun m => rfl

theorem stepWord_unary {op : Nat → Nat → Nat} {outcome : Nat → Nat → Outcome}
    (ready : Ready B .mo16 insn.operand0 insn.operand0 m)
    (same : ∀ a cy, a < 2 ^ 16 → outcome cy a = { value := some (op a 1 % 2 ^ 16) }) :
    (stepWord B ctx insn op).run m = (unary B ctx insn .mo16 outcome).run m := by
  refine unary_congr ctx ready fun a bus small => ?_
  rw [get_run, same a _ small]
  exact perform_store ready.truncates ctx ready.width0 {} fun m => rfl

end

/-! ### The instructions -/

section

variable {insn : Instruction}

section Bytes

variable (ready : Ready B .mo8 insn.operand0 insn.operand1 m)

include ready

theorem transAdd_computes : (transAdd B ctx insn).run m =
    (binary B ctx insn .mo8 fun _ a b => .addition 8 a b 0).run m :=
  arithmetic_binary ready fun a b _ left right _ => by
    rw [addition_byte left right (Nat.zero_le 1), add32_zero]

theorem transAddc_computes : (transAddc B ctx insn).run m =
    (binary B ctx insn .mo8 fun cy a b => .addition 8 a b cy).run m :=
  arithmetic_binary ready fun _ _ _ left right small => addition_byte left right small

theorem transSub_computes : (transSub B ctx insn).run m =
    (binary B ctx insn .mo8 fun _ a b => .subtraction 8 a b 0).run m :=
  arithmetic_binary ready fun a b _ left right _ => by
    rw [subtraction_byte left right (Nat.zero_le 1), sub32_zero]

theorem transSubc_computes : (transSubc B ctx insn).run m =
    (binary B ctx insn .mo8 fun cy a b => .subtraction 8 a b cy).run m :=
  arithmetic_binary ready fun _ _ _ left right small => subtraction_byte left right small

theorem transCmp_computes : (transCmp B ctx insn).run m =
    (binary B ctx insn .mo8 fun _ a b => (Outcome.subtraction 8 a b 0).compared).run m :=
  compare_binary ready fun a b _ left right => by
    have difference := @subtraction_byte a b 0 left right (Nat.zero_le 1)
    rw [sub32_zero] at difference
    rw [difference]
    rfl

theorem transCmps_computes : (transCmps B ctx insn).run m = (compareStrings B ctx insn).run m := by
  refine ready.binary_congr ctx fun x b bus left right => ?_
  have range : InRange (m.setBus bus).cpu := ready.range
  have difference := @subtraction_byte x b 0 left right (Nat.zero_le 1)
  rw [sub32_zero] at difference
  rw [StateT.run_bind, StateT.run_bind, loadByteReg_run range]
  show ((do
      modify fun m' => m'.setAc (halfBorrow x b (sub32 x b))
      modify fun m' => m'.setZ (zeroByte (sub32 x b))
      modify fun m' => m'.setCy (boolWord (x ≠ b) ||| boolWord (m.cpu.byteValue .a = 0) |||
        boolWord (x = 0)) : Exec σ Unit)).run (m.setBus bus) =
    (perform B ctx insn.operand0 .mo8 (.comparedStrings x b (m.cpu.byteValue .a))).run (m.setBus bus)
  rw [Nat.or_assoc, boolWord_or, boolWord_or]
  unfold Outcome.comparedStrings
  rw [difference]
  exact perform_flags ctx _ (setAcZCy_sets _ _ _ _)

end Bytes

section Byte

variable (ready : Ready B .mo8 insn.operand0 insn.operand0 m)

include ready

theorem transCmp0_computes : (transCmp0 B ctx insn).run m =
    (unary B ctx insn .mo8 fun _ a => (Outcome.subtraction 8 a 0 0).compared).run m := by
  refine unary_congr ctx ready fun a bus small => ?_
  have difference := @subtraction_byte a 0 0 small (by decide) (Nat.zero_le 1)
  rw [sub32_zero] at difference
  rw [get_run]
  dsimp only
  rw [difference]
  exact perform_flags ctx _ (setFlags_sets _ _ _ _)

theorem transInc_computes : (transInc B ctx insn).run m =
    (unary B ctx insn .mo8 fun _ a => (Outcome.addition 8 a 1 0).keepsCy).run m :=
  step_unary ready fun a _ small => by
    rw [addition_byte small (by decide) (Nat.zero_le 1), add32_zero]
    rfl

theorem transDec_computes : (transDec B ctx insn).run m =
    (unary B ctx insn .mo8 fun _ a => (Outcome.subtraction 8 a 1 0).keepsCy).run m :=
  step_unary ready fun a _ small => by
    rw [subtraction_byte small (by decide) (Nat.zero_le 1), sub32_zero]
    rfl

end Byte

section Words

variable (ready : Ready B .mo16 insn.operand0 insn.operand1 m)

include ready

theorem transAddw_computes : (transAddw B ctx insn).run m =
    (binary B ctx insn .mo16 fun _ a b => (Outcome.addition 16 a b 0).clearsAc).run m :=
  arithmeticWord_binary ready fun a b _ left right => by
    rw [addition_word left right (Nat.zero_le 1), add32_zero]
    rfl

theorem transSubw_computes : (transSubw B ctx insn).run m =
    (binary B ctx insn .mo16 fun _ a b => (Outcome.subtraction 16 a b 0).clearsAc).run m :=
  arithmeticWord_binary ready fun a b _ left right => by
    rw [subtraction_word left right (Nat.zero_le 1), sub32_zero]
    rfl

theorem transCmpw_computes : (transCmpw B ctx insn).run m = (binary B ctx insn .mo16 fun _ a b =>
      (Outcome.subtraction 16 a b 0).clearsAc.compared).run m :=
  compare_binary ready fun a b _ left right => by
    have difference := @subtraction_word a b 0 left right (Nat.zero_le 1)
    rw [sub32_zero] at difference
    rw [difference]
    rfl

end Words

section Word

variable (ready : Ready B .mo16 insn.operand0 insn.operand0 m)

include ready

theorem transIncw_computes : (transIncw B ctx insn).run m =
    (unary B ctx insn .mo16 fun _ a => (Outcome.addition 16 a 1 0).keepsFlags).run m :=
  stepWord_unary ready fun a _ small => by
    rw [addition_word small (by decide) (Nat.zero_le 1), add32_zero]
    rfl

theorem transDecw_computes : (transDecw B ctx insn).run m =
    (unary B ctx insn .mo16 fun _ a => (Outcome.subtraction 16 a 1 0).keepsFlags).run m :=
  stepWord_unary ready fun a _ small => by
    rw [subtraction_word small (by decide) (Nat.zero_le 1), sub32_zero]
    rfl

end Word

/-! ### Shifts and rotations -/

/-- These instructions work on registers. -/
inductive Register : MemOp → Operand → Prop
  | byte (reg : ByteRegister) : Register .mo8 (.byteReg reg)
  | word (reg : WordRegister) : Register .mo16 (.wordReg reg)

variable {op : Operand} {memop : MemOp}

theorem Register.load (register : Register memop op) (B : Bus σ) (ctx : Context)
    (range : InRange m.cpu) : ∃ value < 2 ^ memop.bits, ∀ access,
      (rl78GenLoadOperand B ctx op access).run m = (value, m) := by
  cases register with
  | byte reg => exact ⟨_, m.cpu.byteValue_lt reg, fun _ => loadByteReg_run range reg⟩
  | word reg => exact ⟨_, m.cpu.wordValue_lt reg, fun _ => loadWordReg_run range reg⟩

theorem Register.store (register : Register memop op) (B : Bus σ) (ctx : Context)
    {cy data value : Nat} (access : MemOp) (same : value % 2 ^ memop.bits = data % 2 ^ memop.bits) :
    ((do
      modify fun m => m.setCy cy
      rl78GenStoreOperand B ctx op data access) : Exec σ Unit).run m =
    (perform B ctx op memop { value := some value, flags := { cy := some cy } }).run m := by
  cases register with
  | byte reg =>
    have stores : storeByteReg (σ := σ) reg value = storeByteReg reg data := by
      rw [← storeByteReg_low reg value, ← storeByteReg_low reg data]
      exact congrArg (storeByteReg reg) same
    show ((do
      modify fun m => m.setCy cy
      storeByteReg reg data) : Exec σ Unit).run m = ((do
      storeByteReg reg value
      modify fun m => { m with cpu.psw := { cy := some cy : Flags }.set m.cpu.psw } :
        Exec σ Unit)).run m
    rw [stores]
    rfl
  | word reg =>
    have stores : storeWordReg (σ := σ) reg value = storeWordReg reg data := by
      rw [← storeWordReg_low reg value, ← storeWordReg_low reg data]
      exact congrArg (storeWordReg reg) same
    show ((do
      modify fun m => m.setCy cy
      storeWordReg reg data) : Exec σ Unit).run m = ((do
      storeWordReg reg value
      modify fun m => { m with cpu.psw := { cy := some cy : Flags }.set m.cpu.psw } :
        Exec σ Unit)).run m
    rw [stores]
    rfl

theorem rotation_unary {rotation : Exec σ Unit} (cy data : Nat → Nat → Nat)
    {outcome : Nat → Nat → Outcome} (range : InRange m.cpu)
    (register : Register memop insn.operand0) (access : MemOp)
    (is : ∀ src, (rl78GenLoadOperand B ctx insn.operand0 access).run m = (src, m) →
      rotation.run m = ((do
        modify fun m' => m'.setCy (cy m.cpu.psw.cy src)
        rl78GenStoreOperand B ctx insn.operand0 (data m.cpu.psw.cy src) access) : Exec σ Unit).run m)
    (same : ∀ carry src, carry ≤ 1 → src < 2 ^ memop.bits → ∃ value,
      outcome carry src = { value := some value, flags := { cy := some (cy carry src) } } ∧
        value % 2 ^ memop.bits = data carry src % 2 ^ memop.bits) :
    rotation.run m = (unary B ctx insn memop outcome).run m := by
  obtain ⟨src, small, load⟩ := register.load B ctx range
  obtain ⟨value, equal, low⟩ := same m.cpu.psw.cy src range.psw.cy_le small
  have performed : (unary B ctx insn memop outcome).run m =
      (perform B ctx insn.operand0 memop (outcome m.cpu.psw.cy src)).run m := by
    unfold unary
    rw [StateT.run_bind, load memop]
    rfl
  rw [is src (load access), performed, equal]
  exact register.store B ctx access low

theorem rotated_right_byte {a top : Nat} (small : a < 2 ^ 8) (isBit : top ≤ 1) :
    a / 2 + 2 ^ 7 * top = (a >>> 1) ||| shl32 top 7 := by
  have shifted : shl32 top 7 = 2 ^ 7 * top := by
    unfold shl32
    omega
  rw [shifted, Nat.shiftRight_eq_div_pow, Nat.or_comm, ← two_pow_add_eq_or_of_lt (by omega),
    Nat.add_comm]

theorem rotated_left (bits : Nat) {a low : Nat} (width : bits ≤ 16) (small : a < 2 ^ bits)
    (isBit : low ≤ 1) :
    (shl32 a 1 ||| low) % 2 ^ bits = (2 * a % 2 ^ bits + low) % 2 ^ bits := by
  have bound : 2 ^ bits ≤ 2 ^ 16 := Nat.pow_le_pow_right (by decide) width
  have shifted : shl32 a 1 = 2 ^ 1 * a := by
    unfold shl32
    omega
  rw [shifted, ← two_pow_add_eq_or_of_lt (by omega), mod_add_mod]

section

variable (range : InRange m.cpu)

include range

theorem transRor_computes (register : Register .mo8 insn.operand0) : (transRor B ctx insn).run m =
      (unary B ctx insn .mo8 fun _ a => .rotatedRight 8 a (a % 2)).run m := by
  refine rotation_unary (fun _ a => a &&& 1)
    (fun _ a => ((shl32 a 8 ||| a) >>> 1) &&& 0xFF) range register .mo8 ?_ ?_
  · intro src load
    unfold transRor
    rw [StateT.run_bind, load]
    rfl
  · intro _ a _ small
    have all : ∀ a < 2 ^ 8, a / 2 + 2 ^ 7 * (a % 2) = ((shl32 a 8 ||| a) >>> 1) &&& 0xFF := by
      decide +kernel
    refine ⟨_, ?_, congrArg (· % 2 ^ 8) (all a small)⟩
    rw [and_one_is_mod]
    rfl

theorem transRol_computes (register : Register .mo8 insn.operand0) : (transRol B ctx insn).run m =
      (unary B ctx insn .mo8 fun _ a => .rotatedLeft 8 a (a / 2 ^ 7)).run m := by
  refine rotation_unary (fun _ a => a >>> 7)
    (fun _ a => (shl32 (shl32 a 8 ||| a) 1 >>> 8) &&& 0xFF) range register .mo8 ?_ ?_
  · intro src load
    unfold transRol
    rw [StateT.run_bind, load]
    rfl
  · intro _ a _ small
    have all : ∀ a < 2 ^ 8, 2 * a % 2 ^ 8 + a / 2 ^ 7 = (shl32 (shl32 a 8 ||| a) 1 >>> 8) &&& 0xFF := by
      decide +kernel
    refine ⟨_, ?_, congrArg (· % 2 ^ 8) (all a small)⟩
    rw [Nat.shiftRight_eq_div_pow]
    rfl

theorem transRorc_computes (isA : insn.operand0 = .byteReg .a) :
    transRorc.run m = (unary B ctx insn .mo8 fun cy a => .rotatedRight 8 a cy).run m := by
  refine rotation_unary (fun _ a => a &&& 1) (fun cy a => (a >>> 1) ||| shl32 cy 7)
    range (isA ▸ .byte .a) .mo8 ?_ ?_
  · intro src load
    rw [isA] at load ⊢
    have loadA : (loadByteReg .a).run m = (src, m) := load
    unfold transRorc
    rw [StateT.run_bind, loadA]
    rfl
  · intro carry a isBit small
    refine ⟨_, ?_, congrArg (· % 2 ^ 8) (rotated_right_byte small isBit)⟩
    rw [and_one_is_mod]
    rfl

theorem transRolc_computes (isA : insn.operand0 = .byteReg .a) :
    transRolc.run m = (unary B ctx insn .mo8 fun cy a => .rotatedLeft 8 a cy).run m := by
  refine rotation_unary (fun _ a => a >>> 7)
    (fun cy a => (shl32 a 1 ||| cy) &&& 0xFF) range (isA ▸ .byte .a) .mo8 ?_ ?_
  · intro src load
    rw [isA] at load ⊢
    have loadA : (loadByteReg .a).run m = (src, m) := load
    unfold transRolc
    rw [StateT.run_bind, loadA]
    rfl
  · intro carry a isBit small
    refine ⟨_, by rw [Nat.shiftRight_eq_div_pow]; rfl, ?_⟩
    rw [and_low_byte]
    exact (rotated_left 8 (by decide) small isBit).symm.trans (mod_mod _ _).symm

theorem transRolwc_computes (register : Register .mo16 insn.operand0) :
    (transRolwc B ctx insn).run m =
      (unary B ctx insn .mo16 fun cy a => .rotatedLeft 16 a cy).run m := by
  refine rotation_unary (fun _ a => (a >>> 15) &&& 1)
    (fun cy a => (shl32 a 1 ||| cy) &&& 0xFFFF) range register .mo16 ?_ ?_
  · intro src load
    unfold transRolwc
    rw [StateT.run_bind, load]
    rfl
  · intro carry a isBit small
    have top : (a >>> 15) &&& 1 = a / 2 ^ 15 := by
      have less : a < 2 ^ 16 := small
      rw [and_one_is_mod, Nat.shiftRight_eq_div_pow]
      omega
    refine ⟨_, by rw [top]; rfl, ?_⟩
    rw [and_low_word]
    exact (rotated_left 16 (by decide) small isBit).symm.trans (mod_mod _ _).symm

end

structure Shifts (memop : MemOp) (insn : Instruction) (count : Nat) : Prop where
  register : Register memop insn.operand0
  amount : insn.operand1 = .shamt count
  pos : 0 < count
  less : count < memop.bits

theorem Shifts.small {count : Nat} (shifts : Shifts memop insn count) : count < 2 ^ 4 := by
  have bound : memop.bits ≤ 2 ^ 4 := by cases memop <;> decide
  exact shifts.less.trans_le bound

theorem Shifts.loadCount {count : Nat} (shifts : Shifts memop insn count) (B : Bus σ)
    (ctx : Context) (access : MemOp) (m : Machine σ) :
    (rl78GenLoadOperand B ctx insn.operand1 access).run m = (count, m) := by
  have less := shifts.small
  have low : count &&& 0x1F = count % 2 ^ 5 := and_two_pow_sub_one_eq_mod count 5
  have same : count &&& 0x1F = count := by omega
  rw [shifts.amount]
  show (count &&& 0x1F, m) = _
  rw [same]

theorem shift_binary {count : Nat} {shift : Exec σ Unit} (cy data : Nat → Nat)
    {outcome : Nat → Nat → Outcome} (range : InRange m.cpu) (shifts : Shifts memop insn count)
    (is : ∀ src, (rl78GenLoadOperand B ctx insn.operand0 .mo8).run m = (src, m) → shift.run m = ((do
        modify fun m' => m'.setCy (cy src)
        rl78GenStoreOperand B ctx insn.operand0 (data src) .mo8) : Exec σ Unit).run m)
    (same : ∀ src < 2 ^ memop.bits, ∃ value,
      outcome src count = { value := some value, flags := { cy := some (cy src) } } ∧
        value % 2 ^ memop.bits = data src % 2 ^ memop.bits) :
    shift.run m = (binary B ctx insn memop fun _ a count => outcome a count).run m := by
  obtain ⟨src, small, load⟩ := shifts.register.load B ctx range
  obtain ⟨value, equal, low⟩ := same src small
  have performed : (binary B ctx insn memop fun _ a count => outcome a count).run m =
      (perform B ctx insn.operand0 memop (outcome src count)).run m := by
    unfold binary
    rw [StateT.run_bind, load memop]
    show ((rl78GenLoadOperand B ctx insn.operand1 memop >>= fun op1 => get >>= fun _ =>
      perform B ctx insn.operand0 memop (outcome src op1)) : Exec σ Unit).run m = _
    rw [StateT.run_bind, shifts.loadCount B ctx memop m]
    rfl
  rw [is src (load .mo8), performed, equal]
  exact shifts.register.store B ctx .mo8 low

theorem shifted_right {a count : Nat} (small : a < 2 ^ 16) (pos : 0 < count) :
    (shl32 a 1 >>> count) &&& 1 = a / 2 ^ (count - 1) % 2 ∧
      (shl32 a 1 >>> count) >>> 1 = a / 2 ^ count := by
  obtain ⟨rest, rfl⟩ := exists_eq_succ_of_ne_zero pos.ne'
  have twice : shl32 a 1 = 2 * a := by
    unfold shl32
    omega
  have quotient : shl32 a 1 >>> (rest + 1) = a / 2 ^ rest := by
    rw [twice, Nat.shiftRight_eq_div_pow, Nat.pow_succ, Nat.mul_comm _ 2,
      Nat.mul_div_mul_left _ _ (by decide)]
  refine ⟨?_, ?_⟩
  · rw [succ_eq_add_one, quotient, and_one_is_mod, Nat.add_sub_cancel]
  · rw [succ_eq_add_one, quotient, Nat.shiftRight_eq_div_pow, Nat.div_div_eq_div_mul,
      ← Nat.pow_add]

theorem shifted_left {bits a count : Nat} (width : bits ≤ 16) (small : a < 2 ^ bits)
    (less : count < bits) :
    (shl32 a count >>> bits) &&& 1 = a / 2 ^ (bits - count) % 2 ∧
      shl32 a count % 2 ^ bits = a * 2 ^ count % 2 ^ bits := by
  have bound : a * 2 ^ count < 2 ^ 32 := by
    calc a * 2 ^ count < 2 ^ bits * 2 ^ count :=
          Nat.mul_lt_mul_of_pos_right small (Nat.two_pow_pos count)
      _ = 2 ^ (bits + count) := (Nat.pow_add 2 bits count).symm
      _ ≤ 2 ^ 32 := Nat.pow_le_pow_right (by decide) (by omega)
  have exact : shl32 a count = a * 2 ^ count := mod_eq_of_lt bound
  have parts : 2 ^ bits = 2 ^ (bits - count) * 2 ^ count := by
    rw [← Nat.pow_add, Nat.sub_add_cancel less.le]
  refine ⟨?_, by rw [exact]⟩
  rw [exact, and_one_is_mod, Nat.shiftRight_eq_div_pow]
  nth_rewrite 1 [parts]
  rw [Nat.mul_div_mul_right _ _ (Nat.two_pow_pos count)]

theorem shifted_out {a bits room count : Nat} (width : bits + room = 32) (above : 0 < room)
    (small : a < 2 ^ bits) (pos : 0 < count) (less : count < bits) :
    (sar32 (shl32 a room) count >>> (room - 1)) &&& 1 = a / 2 ^ (count - 1) % 2 := by
  have halved : (2 : Nat) ^ count = 2 * 2 ^ (count - 1) := by
    rw [← pow_add_one', Nat.sub_add_cancel pos]
  have doubled : (2 : Nat) ^ (bits + 1) = 2 * 2 ^ bits := pow_add_one'
  rw [and_one_is_mod, Nat.shiftRight_eq_div_pow, sar32_top width (by omega) (by omega) small,
    show room - (room - 1) = 1 by omega, show 32 - (room - 1) = bits + 1 by omega, Nat.pow_one,
    doubled]
  split_ifs with positive
  · rw [halved, Nat.mul_div_mul_left _ _ Nat.two_pos]
  · obtain ⟨b, rfl, small'⟩ : ∃ b, a = 2 ^ bits - 1 - b ∧ b < 2 ^ bits :=
      ⟨2 ^ bits - 1 - a, by omega⟩
    have odd : 2 * 2 ^ bits - 1 - 2 * (2 ^ bits - 1 - b) = 2 * b + 1 := by omega
    have quotient : (2 * b + 1) / 2 ^ count = b / 2 ^ (count - 1) := by
      rw [halved, ← Nat.div_div_eq_div_mul]
      congr 1
      omega
    have even : (2 : Nat) ^ (bits - (count - 1)) = 2 * 2 ^ (bits - count) := by
      rw [← pow_add_one']
      congr 1
      omega
    have fits : b / 2 ^ (count - 1) < 2 * 2 ^ (bits - count) := by
      rw [← even, Nat.div_lt_iff_lt_mul (Nat.two_pow_pos _), ← Nat.pow_add,
        Nat.sub_add_cancel (by omega)]
      exact small'
    have within : b / 2 ^ (count - 1) < 2 ^ bits := (Nat.div_le_self _ _).trans_lt small'
    rw [odd, quotient, complement_div (by omega) small', even]
    omega

theorem shifted_value {a bits room count : Nat} (width : bits + room = 32) (wide : 0 < bits)
    (small : a < 2 ^ bits) :
    sar32 (shl32 a room) count >>> room =
      ((Outcome.signed bits a / 2 ^ count) % 2 ^ bits).toNat := by
  have whole : ((2 ^ bits : Nat) : Int) = 2 ^ bits := by norm_cast
  rw [Nat.shiftRight_eq_div_pow, sar32_top width wide le_rfl small, Nat.sub_self, Nat.pow_zero,
    Nat.one_mul, show 32 - room = bits by omega]
  unfold Outcome.signed
  split_ifs with positive
  · have below : a / 2 ^ count < 2 ^ bits := (Nat.div_le_self _ _).trans_lt small
    have quotient : ((a : Int) / 2 ^ count) % 2 ^ bits = (a / 2 ^ count % 2 ^ bits : Nat) := by
      norm_cast
    rw [quotient, mod_eq_of_lt below, toNat_natCast]
  · obtain ⟨b, rfl, small'⟩ : ∃ b, a = 2 ^ bits - 1 - b ∧ b < 2 ^ bits :=
      ⟨2 ^ bits - 1 - a, by omega⟩
    have negative : ((2 ^ bits - 1 - b : Nat) - 2 ^ bits : Int) = negSucc b := by
      rw [negSucc_eq, ← whole]
      omega
    have quotient : ((2 ^ bits - 1 - b : Nat) - 2 ^ bits : Int) / 2 ^ count =
        -((b / 2 ^ count : Nat) + 1) := by
      rw [negative, negSucc_ediv _ (by positivity)]
      rfl
    have wrapped : ∀ q < 2 ^ bits,
        (-((q : Nat) + 1) : Int) % 2 ^ bits = (2 ^ bits - 1 - q : Nat) := by
      intro q within
      rw [← whole, neg_emod_eq_sub_emod, emod_eq_of_lt (by omega) (by omega)]
      omega
    rw [quotient, wrapped _ ((Nat.div_le_self _ _).trans_lt small'), toNat_natCast,
      Nat.sub_sub_self (by omega)]

theorem shiftLogicalRight_computes {count : Nat} (range : InRange m.cpu)
    (shifts : Shifts memop insn count) : (shiftLogicalRight B ctx insn).run m =
      (binary B ctx insn memop fun _ a count => .shiftedRight a count).run m := by
  refine shift_binary (fun a => (shl32 a 1 >>> count) &&& 1)
    (fun a => (shl32 a 1 >>> count) >>> 1) range shifts ?_ ?_
  · intro src load
    unfold shiftLogicalRight
    rw [StateT.run_bind, load]
    show ((rl78GenLoadOperand B ctx insn.operand1 .mo8 >>= fun shamt => _) : Exec σ Unit).run m = _
    rw [StateT.run_bind, shifts.loadCount B ctx .mo8 m]
    rfl
  · intro a small
    have bound : 2 ^ memop.bits ≤ 2 ^ 16 := by cases memop <;> decide
    obtain ⟨cy, value⟩ := shifted_right (small.trans_le bound) shifts.pos
    exact ⟨_, by rw [cy]; rfl, by rw [value]⟩

theorem shiftLeft_computes {count : Nat} (range : InRange m.cpu)
    (shifts : Shifts memop insn count) : (shiftLeft B ctx insn memop.bits).run m =
      (binary B ctx insn memop fun _ a count => .shiftedLeft memop.bits a count).run m := by
  refine shift_binary (fun a => (shl32 a count >>> memop.bits) &&& 1) (fun a => shl32 a count)
    range shifts ?_ ?_
  · intro src load
    unfold shiftLeft
    rw [StateT.run_bind, load]
    show ((rl78GenLoadOperand B ctx insn.operand1 .mo8 >>= fun shamt => _) : Exec σ Unit).run m = _
    rw [StateT.run_bind, shifts.loadCount B ctx .mo8 m]
    rfl
  · intro a small
    have width : memop.bits ≤ 16 := by cases memop <;> decide
    obtain ⟨cy, value⟩ := shifted_left width small shifts.less
    refine ⟨_, by rw [cy]; rfl, ?_⟩
    rw [value, mod_mod]

theorem shiftArithmeticRight_computes {count : Nat} (range : InRange m.cpu)
    (shifts : Shifts memop insn count) : (shiftArithmeticRight B ctx insn memop.bits).run m =
      (binary B ctx insn memop fun _ a count => .shiftedArithmetic memop.bits a count).run m := by
  refine shift_binary
    (fun a => (sar32 (shl32 a (32 - memop.bits)) count >>> (32 - memop.bits - 1)) &&& 1)
    (fun a => sar32 (shl32 a (32 - memop.bits)) count >>> (32 - memop.bits)) range shifts ?_ ?_
  · intro src load
    unfold shiftArithmeticRight
    rw [StateT.run_bind, load]
    show ((rl78GenLoadOperand B ctx insn.operand1 .mo8 >>= fun shamt => _) : Exec σ Unit).run m = _
    rw [StateT.run_bind, shifts.loadCount B ctx .mo8 m]
    rfl
  · intro a small
    have less := shifts.less
    cases memop with
    | mo8 =>
      have cy := @shifted_out a 8 24 count rfl (by decide) small shifts.pos less
      have value := @shifted_value a 8 24 count rfl (by decide) small
      exact ⟨_, congrArg (fun cy => ({ value := _, flags := { cy := some cy } } : Outcome)) cy.symm,
        congrArg (· % 2 ^ 8) value.symm⟩
    | mo16 =>
      have cy := @shifted_out a 16 16 count rfl (by decide) small shifts.pos less
      have value := @shifted_value a 16 16 count rfl (by decide) small
      exact ⟨_, congrArg (fun cy => ({ value := _, flags := { cy := some cy } } : Outcome)) cy.symm,
        congrArg (· % 2 ^ 16) value.symm⟩

end

/-! ### Products -/

theorem transMulu_computes (range : InRange m.cpu) : transMulu.run m = (multiply B ctx).run m := by
  have left := m.cpu.byteValue_lt .a
  have right := m.cpu.byteValue_lt .x
  have less : m.cpu.byteValue .a * m.cpu.byteValue .x < 2 ^ 16 :=
    calc m.cpu.byteValue .a * m.cpu.byteValue .x < 2 ^ 8 * 2 ^ 8 := Nat.mul_lt_mul'' left right
      _ = 2 ^ 16 := by decide
  have product : mul32 (m.cpu.byteValue .a) (m.cpu.byteValue .x) &&& 0xFFFF =
      m.cpu.byteValue .a * m.cpu.byteValue .x := by
    unfold mul32
    rw [and_low_word]
    omega
  unfold transMulu multiply
  rw [StateT.run_bind, StateT.run_bind, loadByteReg_run range]
  show ((loadByteReg .x >>= fun x => storeWordReg .ax (mul32 (m.cpu.byteValue .a) x &&& 0xFFFF)) :
      Exec σ Unit).run m =
    ((loadByteReg .x >>= fun x => perform B ctx (.wordReg .ax) .mo16
      { value := some (m.cpu.byteValue .a * x) }) : Exec σ Unit).run m
  rw [StateT.run_bind, StateT.run_bind, loadByteReg_run range]
  show (storeWordReg .ax (mul32 (m.cpu.byteValue .a) (m.cpu.byteValue .x) &&& 0xFFFF)).run m = _
  rw [product]
  rfl

/-! ### Decoded instructions -/

/-- The instructions that compute. -/
def Mnemonic.arithmetic : Mnemonic → Bool
  | .add | .addc | .sub | .subc | .cmp | .cmp0 | .cmps | .inc | .dec => true
  | .addw | .subw | .cmpw | .incw | .decw | .mulu => true
  | .shl | .shr | .sar | .shlw | .shrw | .sarw => true
  | .ror | .rol | .rorc | .rolc | .rolwc => true
  | _ => false

def Operand.isRegister : MemOp → Operand → Bool
  | .mo8, .byteReg _ | .mo16, .wordReg _ => true
  | _, _ => false

/-- The number of a shift, which is not 0 and less than the width. -/
def Operand.isCount (memop : MemOp) : Operand → Bool
  | .shamt count => 0 < count && count < memop.bits
  | _ => false

def arithmeticForm (mnemonic : Mnemonic) (op0 op1 : Operand) : Bool :=
  match mnemonic with
  | .add | .addc | .sub | .subc | .cmp | .cmps => op0.ofWidth .mo8 && op1.ofWidth .mo8
  | .cmp0 | .inc | .dec => op0.ofWidth .mo8
  | .addw | .subw | .cmpw => op0.ofWidth .mo16 && op1.ofWidth .mo16
  | .incw | .decw => op0.ofWidth .mo16
  | .shl | .shr | .sar => op0.isRegister .mo8 && op1.isCount .mo8
  | .shlw | .shrw | .sarw => op0.isRegister .mo16 && op1.isCount .mo16
  | .ror | .rol => op0.isRegister .mo8
  | .rorc | .rolc => op0 = .byteReg .a
  | .rolwc => op0.isRegister .mo16
  | _ => true

theorem Operand.ofWidth_template (memop : MemOp) (op : Operand) :
    op.template.ofWidth memop = op.ofWidth memop := by
  cases op <;> cases memop <;> rfl

theorem Operand.isRegister_template (memop : MemOp) (op : Operand) :
    op.template.isRegister memop = op.isRegister memop := by
  cases op <;> cases memop <;> rfl

theorem Operand.isCount_template (memop : MemOp) (op : Operand) :
    op.template.isCount memop = op.isCount memop := by
  cases op <;> rfl

theorem template_isA (op : Operand) : op.template = .byteReg .a ↔ op = .byteReg .a :=
  ⟨fun same => template_fixed same (.inr (.inr rfl)), fun same => by rw [same]; rfl⟩

theorem arithmeticForm_template (mnemonic : Mnemonic) (op0 op1 : Operand) :
    arithmeticForm mnemonic op0.template op1.template = arithmeticForm mnemonic op0 op1 := by
  unfold arithmeticForm
  simp [Operand.ofWidth_template, Operand.isRegister_template, Operand.isCount_template, template_isA]

theorem entry_arithmeticForm (map : OpcodeMap) (byte : Nat) :
    arithmeticForm (map.entry byte).mnemonic (map.entry byte).operand0 (map.entry byte).operand1 =
      true := by
  have all : ∀ insn ∈ map.table, arithmeticForm insn.mnemonic insn.operand0 insn.operand1 = true := by
    cases map <;> decide +kernel
  exact map.entry_all all rfl byte

theorem Decoded.arithmeticForm {code : Nat → Nat} {pc : Nat} {ctx : DisasContext}
    {insn : Instruction} (decoded : Decoded code pc ctx insn) :
    Rl78.arithmeticForm insn.mnemonic insn.operand0 insn.operand1 = true := by
  rw [← arithmeticForm_template, decoded.template0, decoded.template1, decoded.mnemonic]
  exact entry_arithmeticForm _ _

theorem register_of_isRegister {memop : MemOp} {op : Operand}
    (is : op.isRegister memop = true) : Register memop op := by
  unfold Operand.isRegister at is
  split at is
  · exact .byte _
  · exact .word _
  · cases is

theorem shifts_of_form {memop : MemOp} {insn : Instruction}
    (form : (insn.operand0.isRegister memop && insn.operand1.isCount memop) = true) :
    ∃ count, Shifts memop insn count := by
  rw [Bool.and_eq_true] at form
  obtain ⟨register, amount⟩ := form
  cases is : insn.operand1 with
  | shamt count =>
    rw [is] at amount
    have inside : (decide (0 < count) && decide (count < memop.bits)) = true := amount
    rw [Bool.and_eq_true, decide_eq_true_iff, decide_eq_true_iff] at inside
    exact ⟨count, register_of_isRegister register, is, inside.1, inside.2⟩
  | _ =>
    rw [is] at amount
    cases amount

/-- Every decoded instruction of arithmetic, and every shift and rotation, computes what it should,
with the flags that it defines. -/
theorem arithmetic_computes (ctx : Context) {code : Nat → Nat} {pc : Nat} {disas : DisasContext}
    {insn : Instruction} (decoded : Decoded code pc disas insn)
    (arithmetic : insn.mnemonic.arithmetic = true) (truncates : B.Truncates)
    (range : InRange m.cpu) (es : m.cpu.es < 2 ^ 8) :
    (translateStraight B ctx insn insn.mnemonic).run m = (computes B ctx insn).run m := by
  have form := decoded.arithmeticForm
  have two {memop : MemOp}
      (widths : (insn.operand0.ofWidth memop && insn.operand1.ofWidth memop) = true) :
      Ready B memop insn.operand0 insn.operand1 m := by
    rw [Bool.and_eq_true] at widths
    exact ⟨truncates, range, es, widths.1, widths.2⟩
  have one {memop : MemOp} (width : insn.operand0.ofWidth memop = true) :
      Ready B memop insn.operand0 insn.operand0 m := ⟨truncates, range, es, width, width⟩
  have register {memop : MemOp} (is : insn.operand0.isRegister memop = true) :
      Register memop insn.operand0 := register_of_isRegister is
  unfold computes
  cases is : insn.mnemonic
  all_goals rw [is] at form arithmetic
  case add => exact transAdd_computes (two form)
  case addc => exact transAddc_computes (two form)
  case sub => exact transSub_computes (two form)
  case subc => exact transSubc_computes (two form)
  case cmp => exact transCmp_computes (two form)
  case cmps => exact transCmps_computes (two form)
  case cmp0 => exact transCmp0_computes (one form)
  case inc => exact transInc_computes (one form)
  case dec => exact transDec_computes (one form)
  case addw => exact transAddw_computes (two form)
  case subw => exact transSubw_computes (two form)
  case cmpw => exact transCmpw_computes (two form)
  case incw => exact transIncw_computes (one form)
  case decw => exact transDecw_computes (one form)
  case mulu => exact transMulu_computes range
  case shr =>
    obtain ⟨count, shifts⟩ := shifts_of_form form
    exact @shiftLogicalRight_computes σ B ctx m insn .mo8 count range shifts
  case shrw =>
    obtain ⟨count, shifts⟩ := shifts_of_form form
    exact @shiftLogicalRight_computes σ B ctx m insn .mo16 count range shifts
  case shl =>
    obtain ⟨count, shifts⟩ := shifts_of_form form
    exact @shiftLeft_computes σ B ctx m insn .mo8 count range shifts
  case shlw =>
    obtain ⟨count, shifts⟩ := shifts_of_form form
    exact @shiftLeft_computes σ B ctx m insn .mo16 count range shifts
  case sar =>
    obtain ⟨count, shifts⟩ := shifts_of_form form
    exact @shiftArithmeticRight_computes σ B ctx m insn .mo8 count range shifts
  case sarw =>
    obtain ⟨count, shifts⟩ := shifts_of_form form
    exact @shiftArithmeticRight_computes σ B ctx m insn .mo16 count range shifts
  case ror => exact transRor_computes range (register form)
  case rol => exact transRol_computes range (register form)
  case rorc => exact transRorc_computes range (of_decide_eq_true form)
  case rolc => exact transRolc_computes range (of_decide_eq_true form)
  case rolwc => exact transRolwc_computes range (register form)
  all_goals cases arithmetic

/-! ### Samples -/

/-- `ADDW AX, #1` at address 0. -/
def addwCode (address : Nat) : Nat := [0x04, 0x01, 0x00].getD address 0

def addwOne : Instruction := { mnemonic := .addw, operand0 := .wordReg .ax, operand1 := .imm16 1 }

/-- `CMPS X, [HL+0]`. -/
def cmpsHl : Instruction :=
  { mnemonic := .cmps, operand0 := .byteReg .x, operand1 := .indRegImm .hl 0 }

/-- With 15 in `AX` there is a carry out of bit 3, but the flag is 0; with 0 everywhere, `CMPS` sets
the carry flag without a borrow. -/
theorem addw_clears_ac : (decode addwCode (.start 0)).2 = some addwOne ∧
    ((transAddw zeroBus ⟨false, 3, 0⟩ addwOne).run (anyMachine.setReg 0 0x0F)).2.cpu.psw.ac = 0 ∧
    carryOut 4 0x0F 1 0 = 1 ∧
    ((transCmps zeroBus ⟨false, 3, 0⟩ cmpsHl).run anyMachine).2.cpu.psw.cy = 1 ∧
    borrowOut 8 0 0 0 = 0 := by
  refine ⟨by decide +kernel, by decide +kernel, by decide, by decide +kernel, by decide⟩

theorem arithmetic_computes_addw : ∃ insn : Instruction, insn.mnemonic = .addw ∧
    (translateStraight zeroBus ⟨false, 3, 0⟩ insn insn.mnemonic).run anyMachine =
      (computes zeroBus ⟨false, 3, 0⟩ insn).run anyMachine := by
  obtain ⟨disas, insn, _, decoded⟩ := @decode_known addwCode 0 (by decide +kernel)
  have is : insn.mnemonic = .addw := decoded.mnemonic.trans (by decide +kernel)
  have arithmetic : insn.mnemonic.arithmetic = true := by
    rw [is]
    rfl
  exact ⟨insn, is, arithmetic_computes ⟨false, 3, 0⟩ decoded arithmetic (fun _ _ _ _ => rfl)
    anyMachine_inRange (by decide)⟩

end Tlib.Rl78
