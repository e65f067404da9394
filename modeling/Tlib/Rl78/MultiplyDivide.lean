import Tlib.Library.CIntegers
import Tlib.Rl78.Arithmetic

/-!
Contract: the commands of the multiply and divide unit against the arithmetic of integers.

Owns: what each command leaves in the register pairs. Does not own: how a command is written, and
what is behind the addresses of the accumulator.
-/

namespace Tlib.Rl78

open Tlib.Library.Words Function Nat
open Outcome (signed)

variable {σ : Type} {B : Bus σ} {m : Machine σ}

/-! ### Register pairs -/

def Cpu.longValue (cpu : Cpu) (low high : WordRegister) : Nat :=
  cpu.wordValue low + 2 ^ 16 * cpu.wordValue high

def Machine.setWord (m : Machine σ) (rp : WordRegister) (value : Nat) : Machine σ :=
  (m.setReg (helperReg m.cpu.psw (rp.index * 2)) (value &&& 0xFF)).setReg
    (helperReg m.cpu.psw (rp.index * 2 + 1)) ((value >>> 8) &&& 0xFF)

@[simp] theorem setWord_psw (rp : WordRegister) (value : Nat) :
    (m.setWord rp value).cpu.psw = m.cpu.psw := rfl

theorem getRp_run (rp : WordRegister) : (getRp rp).run m = (m.cpu.wordValue rp, m) := by
  have low := mod_lt (m.cpu.regs (helperReg m.cpu.psw (rp.index * 2))) (by decide : 0 < 256)
  show ((m.cpu.regs (helperReg m.cpu.psw (rp.index * 2)) &&& 0xFF) |||
    (m.cpu.regs (helperReg m.cpu.psw (rp.index * 2 + 1)) &&& 0xFF) <<< 8, m) = _
  rw [and_low_byte, and_low_byte, shiftLeft_eq, Nat.mul_comm _ (2 ^ 8), Nat.or_comm,
    bytes_or _ low, Nat.add_comm]
  rfl

theorem helperReg_inj (psw : Psw) {reg reg' : Nat} :
    helperReg psw reg = helperReg psw reg' ↔ reg = reg' := by
  unfold helperReg
  omega

def InPair (psw : Psw) (index : Nat) (rp : WordRegister) : Prop :=
  index = helperReg psw (rp.index * 2) ∨ index = helperReg psw (rp.index * 2 + 1)

theorem setWord_regs (m : Machine σ) {rp : WordRegister} {index : Nat}
    (outside : ¬InPair m.cpu.psw index rp) (value : Nat) :
    (m.setWord rp value).cpu.regs index = m.cpu.regs index := by
  unfold InPair at outside
  rw [not_or] at outside
  show update (update m.cpu.regs _ _) _ _ index = _
  rw [update_of_ne outside.2, update_of_ne outside.1]

@[simp] theorem wordValue_setWord (rp : WordRegister) (value : Nat) :
    (m.setWord rp value).cpu.wordValue rp = value % 2 ^ 16 := by
  have apart : helperReg m.cpu.psw (rp.index * 2) ≠ helperReg m.cpu.psw (rp.index * 2 + 1) := by
    rw [Ne, helperReg_inj]
    omega
  show update (update m.cpu.regs _ _) _ _ _ % 2 ^ 8 +
    2 ^ 8 * (update (update m.cpu.regs _ _) _ _ _ % 2 ^ 8) = _
  rw [setWord_psw, update_of_ne apart, update_self, update_self, and_low_byte,
    and_low_byte, shiftRight_eq_div_pow]
  omega

theorem index_injective {rp rp' : WordRegister} (same : rp.index = rp'.index) : rp = rp' := by
  cases rp <;> cases rp' <;> first | rfl | exact absurd same (by decide)

theorem wordValue_setWord_ne {rp rp' : WordRegister} (other : rp' ≠ rp) (value : Nat) :
    (m.setWord rp value).cpu.wordValue rp' = m.cpu.wordValue rp' := by
  have apart : rp'.index ≠ rp.index := fun same => other (index_injective same)
  have outside (reg : Nat) (half : reg / 2 = rp'.index) :
      ¬InPair m.cpu.psw (helperReg m.cpu.psw reg) rp := by
    unfold InPair
    rw [helperReg_inj, helperReg_inj]
    omega
  unfold Cpu.wordValue
  rw [setWord_psw, setWord_regs m (outside _ (by omega)), setWord_regs m (outside _ (by omega))]

theorem longValue_setWord {low high : WordRegister} (apart : low ≠ high) (value : Nat) :
    ((m.setWord low (value &&& 0xFFFF)).setWord high ((value >>> 16) &&& 0xFFFF)).cpu.longValue
      low high = value % 2 ^ 32 := by
  unfold Cpu.longValue
  rw [wordValue_setWord_ne apart, wordValue_setWord, wordValue_setWord, and_low_word, and_low_word,
    shiftRight_eq_div_pow]
  omega

/-! ### The accumulator -/

def macrBytes (B : Bus σ) (s : σ) : Nat × σ :=
  let byte0 := B.readHost macrlPaddr s
  let byte1 := B.readHost (macrlPaddr + 1) byte0.2
  let byte2 := B.readHost (macrlPaddr + 2) byte1.2
  let byte3 := B.readHost (macrlPaddr + 3) byte2.2
  (byte0.1 + 2 ^ 8 * byte1.1 + 2 ^ 16 * (byte2.1 + 2 ^ 8 * byte3.1), byte3.2)

/-- The bytes of a number, written to the accumulator. -/
def writeMacr (B : Bus σ) (macr : Nat) (s : σ) : σ :=
  B.writeHost (macrlPaddr + 3) (macr / 2 ^ 24 % 2 ^ 8)
    (B.writeHost (macrlPaddr + 2) (macr / 2 ^ 16 % 2 ^ 8)
      (B.writeHost (macrlPaddr + 1) (macr / 2 ^ 8 % 2 ^ 8)
        (B.writeHost macrlPaddr (macr % 2 ^ 8) s)))

structure Bus.MacrMemory (B : Bus σ) (byte : σ → Nat → Nat) : Prop where
  read : ∀ k < 4, ∀ s, B.readHost (macrlPaddr + k) s = (byte s k, s)
  write : ∀ k < 4, ∀ data s, data < 2 ^ 8 →
    byte (B.writeHost (macrlPaddr + k) data s) = update (byte s) k data

/-- The number that the accumulator in memory holds. -/
def macrValue (byte : σ → Nat → Nat) (s : σ) : Nat :=
  byte s 0 + 2 ^ 8 * byte s 1 + 2 ^ 16 * (byte s 2 + 2 ^ 8 * byte s 3)

theorem macrBytes_lt (s : σ) : (macrBytes B s).1 < 2 ^ 32 := by
  unfold macrBytes
  dsimp only
  have first := B.readHost_lt macrlPaddr s
  have second := B.readHost_lt (macrlPaddr + 1) (B.readHost macrlPaddr s).2
  have third := B.readHost_lt (macrlPaddr + 2)
    (B.readHost (macrlPaddr + 1) (B.readHost macrlPaddr s).2).2
  have fourth := B.readHost_lt (macrlPaddr + 3)
    (B.readHost (macrlPaddr + 2) (B.readHost (macrlPaddr + 1) (B.readHost macrlPaddr s).2).2).2
  omega

theorem join_bytes {byte0 byte1 byte2 : Nat} (byte3 : Nat) (less0 : byte0 < 2 ^ 8)
    (less1 : byte1 < 2 ^ 8) (less2 : byte2 < 2 ^ 8) :
    byte0 ||| byte1 <<< 8 ||| (byte2 ||| byte3 <<< 8) <<< 16 =
      byte0 + 2 ^ 8 * byte1 + 2 ^ 16 * (byte2 + 2 ^ 8 * byte3) := by
  have joined {low count : Nat} (high : Nat) (less : low < 2 ^ count) :
      low ||| high <<< count = low + 2 ^ count * high := by
    rw [shiftLeft_eq, Nat.mul_comm, Nat.or_comm, ← two_pow_add_eq_or_of_lt less, Nat.add_comm]
  rw [joined byte1 less0, joined byte3 less2, joined _ (by omega)]

theorem loadMacr_run :
    (loadMacr B).run m = ((macrBytes B m.bus).1, m.setBus (macrBytes B m.bus).2) :=
  Prod.ext (join_bytes _ (B.readHost_lt _ _) (B.readHost_lt _ _) (B.readHost_lt _ _)) rfl

theorem storeMacr_run (macr : Nat) :
    (storeMacr B macr).run m = ((), m.setBus (writeMacr B macr m.bus)) := by
  show ((), m.setBus (B.writeHost (macrlPaddr + 3) ((macr >>> 24) &&& 0xFF)
    (B.writeHost (macrlPaddr + 2) ((macr >>> 16) &&& 0xFF)
      (B.writeHost (macrlPaddr + 1) ((macr >>> 8) &&& 0xFF)
        (B.writeHost macrlPaddr (macr &&& 0xFF) m.bus))))) = _
  simp only [and_low_byte, shiftRight_eq_div_pow]
  rfl

theorem Bus.MacrMemory.macrValue_writeMacr {byte : σ → Nat → Nat} (memory : B.MacrMemory byte)
    {macr : Nat} (less : macr < 2 ^ 32) (s : σ) : macrValue byte (writeMacr B macr s) = macr := by
  have small (n : Nat) : n % 2 ^ 8 < 2 ^ 8 := mod_lt n (by decide)
  have first : byte (B.writeHost macrlPaddr (macr % 2 ^ 8) s) =
      update (byte s) 0 (macr % 2 ^ 8) := memory.write 0 (by decide) _ s (small _)
  unfold writeMacr macrValue
  rw [memory.write 3 (by decide) _ _ (small _), memory.write 2 (by decide) _ _ (small _),
    memory.write 1 (by decide) _ _ (small _), first]
  simp only [update_self, update_of_ne, reduceEqDiff, OfNat.zero_ne_ofNat,
    OfNat.one_ne_ofNat, zero_ne_one, ne_eq, not_false_eq_true]
  omega

/-! ### What a command should do -/

inductive MduCommand where
  | mulhu | mulh | divhu | machu | mach | divwu
deriving DecidableEq, Repr

def MduCommand.code : MduCommand → Nat
  | .mulhu => 0x01
  | .mulh => 0x02
  | .divhu => 0x03
  | .machu => 0x05
  | .mach => 0x06
  | .divwu => 0x0B

def MduCommand.results : MduCommand → List WordRegister
  | .mulhu | .mulh => [.ax, .bc]
  | .divhu => [.ax, .de]
  | .machu | .mach => []
  | .divwu => [.ax, .bc, .de, .hl]

def Divided (bits dividend divisor quotient remainder : Nat) : Prop :=
  if divisor = 0 then quotient = 2 ^ bits - 1 ∧ remainder = dividend
  else dividend = quotient * divisor + remainder ∧ remainder < divisor

def number (isSigned : Bool) (bits a : Nat) : Int := if isSigned then signed bits a else a

/-- The number is one of a type of 32 bits. -/
def Fits (isSigned : Bool) (z : Int) : Prop := Library.CIntegers.InRange isSigned 32 z

instance (isSigned : Bool) (z : Int) : Decidable (Fits isSigned z) :=
  inferInstanceAs (Decidable (Library.CIntegers.InRange isSigned 32 z))

/-- The exact sum of the accumulator and the product of `AX` and `BC`. -/
def macrSum (B : Bus σ) (isSigned : Bool) (m : Machine σ) : Int :=
  number isSigned 32 (macrBytes B m.bus).1 +
    number isSigned 16 (m.cpu.wordValue .ax) * number isSigned 16 (m.cpu.wordValue .bc)

/-- The sum is put into the accumulator, modulo its width; the carry says that it does not fit. -/
structure Accumulated (B : Bus σ) (isSigned : Bool) (m m' : Machine σ) : Prop where
  bus : m'.bus = writeMacr B (macrSum B isSigned m % 2 ^ 32).toNat (macrBytes B m.bus).2
  macr : ∀ byte, B.MacrMemory byte → (macrValue byte m'.bus : Int) = macrSum B isSigned m % 2 ^ 32
  cy : m'.cpu.psw.cy = if Fits isSigned (macrSum B isSigned m) then 0 else 1
  psw : m'.cpu.psw = { m.cpu.psw with cy := m'.cpu.psw.cy, ac := m'.cpu.psw.ac, z := 0 }

/-- The memory system and the flags are left alone. -/
def Quiet (m m' : Machine σ) : Prop := m'.bus = m.bus ∧ m'.cpu.psw = m.cpu.psw

def MduCommand.Leaves (B : Bus σ) (m m' : Machine σ) : MduCommand → Prop
  | .mulhu =>
    m'.cpu.longValue .ax .bc = m.cpu.wordValue .ax * m.cpu.wordValue .bc ∧ Quiet m m'
  | .mulh =>
    signed 32 (m'.cpu.longValue .ax .bc) =
      signed 16 (m.cpu.wordValue .ax) * signed 16 (m.cpu.wordValue .bc) ∧ Quiet m m'
  | .divhu =>
    Divided 16 (m.cpu.wordValue .ax) (m.cpu.wordValue .de) (m'.cpu.wordValue .ax)
      (m'.cpu.wordValue .de) ∧ Quiet m m'
  | .divwu =>
    Divided 32 (m.cpu.longValue .ax .bc) (m.cpu.longValue .de .hl) (m'.cpu.longValue .ax .bc)
      (m'.cpu.longValue .de .hl) ∧ Quiet m m'
  | .machu => Accumulated B false m m'
  | .mach => Accumulated B true m m'

/-- The result, and what is left alone. -/
structure MduCommand.Obeyed (B : Bus σ) (m m' : Machine σ) (command : MduCommand) : Prop where
  leaves : command.Leaves B m m'
  registers : ∀ index, (∀ rp ∈ command.results, ¬InPair m.cpu.psw index rp) →
    m'.cpu.regs index = m.cpu.regs index
  cpu : m'.cpu = { m.cpu with regs := m'.cpu.regs, psw := m'.cpu.psw }
  update : m'.update = m.update

/-! ### Operations without a result -/

/-- An operation of C that the language does not define. -/
inductive Undefined where
  | signedOverflow | divisionByZero
deriving DecidableEq, Repr

/-- The helper as the language defines it; `-fwrapv` defines signed overflow, too. -/
abbrev Strict (σ : Type) := ExceptT Undefined (Exec σ)

/-- Code that has no such operation. -/
def defined {α : Type} (f : Exec σ α) : Strict σ α := liftM f

/-- A result of type `int32_t`. -/
def intResult (z : Int) : Strict σ Int := if Fits true z then return z else throw .signedOverflow

def divide (a b : Nat) : Strict σ Nat := if b = 0 then throw .divisionByZero else return a / b

def remainder (a b : Nat) : Strict σ Nat := if b = 0 then throw .divisionByZero else return a % b

/-- The word that an `int32_t` is converted to. -/
def wordOfInt (z : Int) : Nat := (z % 2 ^ 32).toNat

def strictMulh : Strict σ Unit := do
  let ax ← defined (getRp .ax)
  let bc ← defined (getRp .bc)
  let product ← intResult (signed 16 ax * signed 16 bc)
  defined (mduMul (wordOfInt product))

def strictDivhu : Strict σ Unit := do
  let ax ← defined (getRp .ax)
  let de ← defined (getRp .de)
  if de = 0 then
    defined (setRp .ax 0xFFFF)
    defined (setRp .de ax)
  else
    let quot ← divide ax de
    defined (setRp .ax quot)
    let rem ← remainder ax de
    defined (setRp .de rem)

def strictDivwu : Strict σ Unit := do
  let ax ← defined (getRp .ax)
  let bc ← defined (getRp .bc)
  let de ← defined (getRp .de)
  let hl ← defined (getRp .hl)
  let dividend := ax ||| bc <<< 16
  let divisor := de ||| hl <<< 16
  if divisor = 0 then
    defined (setRp .ax 0xFFFF)
    defined (setRp .bc 0xFFFF)
    defined (setRp .de ax)
    defined (setRp .hl bc)
  else
    let quot ← divide dividend divisor
    let rem ← remainder dividend divisor
    defined (setRp .ax (quot &&& 0xFFFF))
    defined (setRp .bc (quot >>> 16 &&& 0xFFFF))
    defined (setRp .de (rem &&& 0xFFFF))
    defined (setRp .hl (rem >>> 16 &&& 0xFFFF))

def strictMach (B : Bus σ) : Strict σ Unit := do
  let ax ← defined (getRp .ax)
  let bc ← defined (getRp .bc)
  let macr ← defined (loadMacr B)
  let product ← intResult (signed 16 ax * signed 16 bc)
  let result ← intResult (signed 32 macr + product)
  let ov := ((macr ^^^ wordOfInt result) &&& (wordOfInt product ^^^ wordOfInt result)) >>> 31
  defined (storeMacr B (wordOfInt result))
  defined (modify fun m => m.setCy (ov &&& 1))
  defined (modify fun m => m.setAc ((wordOfInt result >>> 31) &&& 1))
  defined (modify fun m => m.setZ 0)

/-- The other commands have unsigned arithmetic only. -/
def strictMduCmd (B : Bus σ) (cmd : Nat) : Strict σ Unit :=
  match cmd &&& 0xFF with
  | 0x02 => strictMulh
  | 0x03 => strictDivhu
  | 0x06 => strictMach B
  | 0x0B => strictDivwu
  | _ => defined (helperMduCmd B cmd)

/-! ### Multiplication and division -/

theorem getRp_bind {α : Type} (rp : WordRegister) (f : Nat → Exec σ α) :
    (getRp rp >>= f).run m = (f (m.cpu.wordValue rp)).run m := by
  rw [StateT.run_bind, getRp_run]
  rfl

theorem mduMul_run (product : Nat) : (mduMul product).run m = ((),
    (m.setWord .ax (product &&& 0xFFFF)).setWord .bc ((product >>> 16) &&& 0xFFFF)) := rfl

theorem longValue_lt (cpu : Cpu) (low high : WordRegister) : cpu.longValue low high < 2 ^ 32 := by
  have first := cpu.wordValue_lt low
  have second := cpu.wordValue_lt high
  unfold Cpu.longValue
  omega

theorem longValue_or (cpu : Cpu) (low high : WordRegister) :
    cpu.wordValue low ||| cpu.wordValue high <<< 16 = cpu.longValue low high := by
  rw [shiftLeft_eq, Nat.mul_comm, Nat.or_comm,
    ← two_pow_add_eq_or_of_lt (cpu.wordValue_lt low), Nat.add_comm]
  rfl

theorem signed_word_bounds {a : Nat} (less : a < 2 ^ 16) :
    -2 ^ 15 ≤ signed 16 a ∧ signed 16 a < 2 ^ 15 := by
  unfold Outcome.signed
  split_ifs <;> omega

theorem fits_true_iff {z : Int} : Fits true z ↔ -2 ^ 31 ≤ z ∧ z < 2 ^ 31 := by
  show -2 ^ 31 ≤ z ∧ z ≤ 2 ^ 31 - 1 ↔ _
  omega

theorem fits_false_iff {z : Int} : Fits false z ↔ 0 ≤ z ∧ z < 2 ^ 32 := by
  show 0 ≤ z ∧ z ≤ 2 ^ 32 - 1 ↔ _
  omega

theorem fits_product {a b : Nat} (left : a < 2 ^ 16) (right : b < 2 ^ 16) :
    Fits true (signed 16 a * signed 16 b) := by
  obtain ⟨low, high⟩ := signed_word_bounds left
  obtain ⟨low', high'⟩ := signed_word_bounds right
  have magnitude : (signed 16 a * signed 16 b).natAbs ≤ 2 ^ 15 * 2 ^ 15 := by
    rw [Int.natAbs_mul]
    exact Nat.mul_le_mul (by omega) (by omega)
  rw [fits_true_iff]
  omega

theorem signed_wordOfInt {z : Int} (fits : Fits true z) : signed 32 (wordOfInt z) = z := by
  rw [fits_true_iff] at fits
  unfold Outcome.signed wordOfInt
  split_ifs <;> omega

theorem signed16_cast {a : Nat} (less : a < 2 ^ 16) : (signed16 a : Int) = signed 16 a % 2 ^ 32 := by
  unfold signed16 Outcome.signed
  split_ifs <;> omega

theorem mul32_signed {a b : Nat} (left : a < 2 ^ 16) (right : b < 2 ^ 16) :
    mul32 (signed16 a) (signed16 b) = wordOfInt (signed 16 a * signed 16 b) := by
  have product : ((signed16 a * signed16 b : Nat) : Int) % 2 ^ 32 =
      signed 16 a * signed 16 b % 2 ^ 32 := by
    rw [cast_mul, signed16_cast left, signed16_cast right, ← Int.mul_emod]
  unfold mul32 wordOfInt
  omega

theorem add32_signed (macr : Nat) (z : Int) :
    add32 macr (wordOfInt z) = wordOfInt (signed 32 macr + z) := by
  unfold add32 wordOfInt Outcome.signed
  split_ifs <;> omega

theorem overflow_bit {macr product : Nat} (left : macr < 2 ^ 32) (right : product < 2 ^ 32) :
    ((macr ^^^ add32 macr product) &&& (product ^^^ add32 macr product)) >>> 31 &&& 1 =
      if Fits true (signed 32 macr + signed 32 product) then 0 else 1 := by
  have sum : add32 macr product < 2 ^ 32 := by
    unfold add32
    exact mod_lt _ (by decide)
  have sign {a : Nat} (less : a < 2 ^ 32) : a >>> 31 = if a < 2 ^ 31 then 0 else 1 := by
    rw [shiftRight_eq_div_pow]
    split_ifs <;> omega
  rw [shiftRight_and_distrib, shiftRight_xor_distrib, shiftRight_xor_distrib, sign left,
    sign right, sign sum]
  simp only [fits_true_iff]
  unfold add32 Outcome.signed
  split_ifs <;> first | omega | decide

theorem divided_div_mod (bits : Nat) {dividend divisor : Nat} (nonzero : divisor ≠ 0) :
    Divided bits dividend divisor (dividend / divisor) (dividend % divisor) := by
  unfold Divided
  rw [if_neg nonzero]
  exact ⟨(div_add_mod' dividend divisor).symm, mod_lt _ (Nat.pos_of_ne_zero nonzero)⟩

def MduCommand.perform (B : Bus σ) : MduCommand → Exec σ Unit
  | .mulhu => do
    let ax ← getRp .ax
    let bc ← getRp .bc
    mduMul (mul32 ax bc)
  | .mulh => do
    let ax ← getRp .ax
    let bc ← getRp .bc
    mduMul (mul32 (signed16 ax) (signed16 bc))
  | .divhu => mduDivhu
  | .machu => mduMachu B
  | .mach => mduMach B
  | .divwu => mduDivwu

theorem helperMduCmd_code {cmd : Nat} {command : MduCommand} (code : cmd % 2 ^ 8 = command.code) :
    helperMduCmd B cmd = command.perform B := by
  have masked : cmd &&& 0xFF = command.code := (and_low_byte cmd).trans code
  unfold helperMduCmd
  rw [masked]
  cases command <;> rfl

/-! ### What the commands do -/

theorem outside_pairs {psw : Psw} {index : Nat} {low high : WordRegister}
    (outside : ∀ rp ∈ [low, high], ¬InPair psw index rp) :
    ¬InPair psw index low ∧ ¬InPair psw index high :=
  ⟨outside low (by simp), outside high (by simp)⟩

theorem mduMul_obeyed (product : Nat) {command : MduCommand} (results : command.results = [.ax, .bc])
    (leaves : ∀ m' : Machine σ, m'.cpu.longValue .ax .bc = product % 2 ^ 32 → Quiet m m' →
      command.Leaves B m m') :
    command.Obeyed B m ((mduMul product).run m).2 where
  leaves := leaves _ (longValue_setWord (by decide) product) ⟨rfl, rfl⟩
  registers index outside := by
    rw [results] at outside
    obtain ⟨ax, bc⟩ := outside_pairs outside
    rw [mduMul_run]
    rw [setWord_regs (m.setWord _ _) bc, setWord_regs m ax]
  cpu := rfl
  update := rfl

theorem mulhu_obeyed : MduCommand.mulhu.Obeyed B m ((MduCommand.mulhu.perform B).run m).2 := by
  have left := m.cpu.wordValue_lt .ax
  have right := m.cpu.wordValue_lt .bc
  have fits : m.cpu.wordValue .ax * m.cpu.wordValue .bc < 2 ^ 32 :=
    calc m.cpu.wordValue .ax * m.cpu.wordValue .bc < 2 ^ 16 * 2 ^ 16 := Nat.mul_lt_mul'' left right
      _ = 2 ^ 32 := by decide
  have product : mul32 (m.cpu.wordValue .ax) (m.cpu.wordValue .bc) % 2 ^ 32 =
      m.cpu.wordValue .ax * m.cpu.wordValue .bc := by
    unfold mul32
    rw [mod_mod, mod_eq_of_lt fits]
  unfold MduCommand.perform
  rw [getRp_bind, getRp_bind]
  exact mduMul_obeyed _ rfl fun m' long quiet => ⟨long.trans product, quiet⟩

theorem mulh_obeyed : MduCommand.mulh.Obeyed B m ((MduCommand.mulh.perform B).run m).2 := by
  have left := m.cpu.wordValue_lt .ax
  have right := m.cpu.wordValue_lt .bc
  have small (z : Int) : wordOfInt z % 2 ^ 32 = wordOfInt z := by
    unfold wordOfInt
    omega
  unfold MduCommand.perform
  rw [getRp_bind, getRp_bind, mul32_signed left right]
  refine mduMul_obeyed _ rfl fun m' long quiet => ⟨?_, quiet⟩
  rw [long, small, signed_wordOfInt (fits_product left right)]

theorem divhu_obeyed : MduCommand.divhu.Obeyed B m ((MduCommand.divhu.perform B).run m).2 := by
  have stored (q r : Nat) (leaves : Divided 16 (m.cpu.wordValue .ax) (m.cpu.wordValue .de)
      (q % 2 ^ 16) (r % 2 ^ 16)) :
      MduCommand.divhu.Obeyed B m ((m.setWord .ax q).setWord .de r) :=
    { leaves := by
        refine ⟨?_, rfl, rfl⟩
        rw [wordValue_setWord_ne (by decide), wordValue_setWord, wordValue_setWord]
        exact leaves
      registers := fun index outside => by
        obtain ⟨ax, de⟩ := outside_pairs outside
        rw [setWord_regs (m.setWord _ _) de, setWord_regs m ax]
      cpu := rfl
      update := rfl }
  have left := m.cpu.wordValue_lt .ax
  unfold MduCommand.perform mduDivhu
  rw [getRp_bind, getRp_bind]
  split_ifs with zero
  · refine stored 0xFFFF _ ?_
    rw [mod_eq_of_lt left]
    unfold Divided
    rw [if_pos zero]
    exact ⟨rfl, rfl⟩
  · refine stored (m.cpu.wordValue .ax / m.cpu.wordValue .de)
      (m.cpu.wordValue .ax % m.cpu.wordValue .de) ?_
    rw [mod_eq_of_lt ((Nat.div_le_self _ _).trans_lt left),
      mod_eq_of_lt ((mod_le _ _).trans_lt left)]
    exact divided_div_mod 16 zero

theorem setLong_long (m : Machine σ) (q0 q1 r0 r1 : Nat) :
    let m' := (((m.setWord .ax q0).setWord .bc q1).setWord .de r0).setWord .hl r1
    m'.cpu.longValue .ax .bc = q0 % 2 ^ 16 + 2 ^ 16 * (q1 % 2 ^ 16) ∧
      m'.cpu.longValue .de .hl = r0 % 2 ^ 16 + 2 ^ 16 * (r1 % 2 ^ 16) := by
  unfold Cpu.longValue
  constructor
  · rw [wordValue_setWord_ne (by decide), wordValue_setWord_ne (by decide),
      wordValue_setWord_ne (by decide), wordValue_setWord, wordValue_setWord_ne (by decide),
      wordValue_setWord_ne (by decide), wordValue_setWord]
  · rw [wordValue_setWord_ne (by decide), wordValue_setWord, wordValue_setWord]

theorem divwu_obeyed : MduCommand.divwu.Obeyed B m ((MduCommand.divwu.perform B).run m).2 := by
  have stored (q0 q1 r0 r1 : Nat) (leaves : Divided 32 (m.cpu.longValue .ax .bc)
      (m.cpu.longValue .de .hl) (q0 % 2 ^ 16 + 2 ^ 16 * (q1 % 2 ^ 16))
      (r0 % 2 ^ 16 + 2 ^ 16 * (r1 % 2 ^ 16))) :
      MduCommand.divwu.Obeyed B m
        ((((m.setWord .ax q0).setWord .bc q1).setWord .de r0).setWord .hl r1) :=
    { leaves := by
        obtain ⟨quotient, rest⟩ := setLong_long m q0 q1 r0 r1
        refine ⟨?_, rfl, rfl⟩
        rw [quotient, rest]
        exact leaves
      registers := fun index outside => by
        have pair (rp : WordRegister) : ¬InPair m.cpu.psw index rp :=
          outside rp (by cases rp <;> decide)
        rw [setWord_regs (((m.setWord _ _).setWord _ _).setWord _ _) (pair .hl),
          setWord_regs ((m.setWord _ _).setWord _ _) (pair .de),
          setWord_regs (m.setWord _ _) (pair .bc), setWord_regs m (pair .ax)]
      cpu := rfl
      update := rfl }
  have small := longValue_lt m.cpu .ax .bc
  have halves {a : Nat} (less : a < 2 ^ 32) :
      (a &&& 0xFFFF) % 2 ^ 16 + 2 ^ 16 * ((a >>> 16 &&& 0xFFFF) % 2 ^ 16) = a := by
    rw [and_low_word, and_low_word, shiftRight_eq_div_pow]
    omega
  unfold MduCommand.perform mduDivwu
  rw [getRp_bind, getRp_bind, getRp_bind, getRp_bind]
  dsimp only
  rw [longValue_or, longValue_or]
  split_ifs with zero
  · refine stored 0xFFFF 0xFFFF _ _ ?_
    unfold Divided
    rw [if_pos zero, mod_eq_of_lt (m.cpu.wordValue_lt .ax), mod_eq_of_lt (m.cpu.wordValue_lt .bc)]
    exact ⟨rfl, rfl⟩
  · refine stored _ _ _ _ ?_
    rw [halves ((Nat.div_le_self _ _).trans_lt small), halves ((mod_le _ _).trans_lt small)]
    exact divided_div_mod 32 zero

def Machine.accumulated (B : Bus σ) (m : Machine σ) (macr cy ac : Nat) : Machine σ :=
  (((m.setBus (writeMacr B macr (macrBytes B m.bus).2)).setCy cy).setAc ac).setZ 0

theorem accumulated_obeyed {isSigned : Bool} {command : MduCommand} {macr cy : Nat} (ac : Nat)
    (leaves : ∀ m' : Machine σ, Accumulated B isSigned m m' → command.Leaves B m m')
    (sum : macr = wordOfInt (macrSum B isSigned m))
    (carry : cy = if Fits isSigned (macrSum B isSigned m) then 0 else 1) :
    command.Obeyed B m (m.accumulated B macr cy ac) where
  leaves := leaves _
    { bus := by
        rw [sum]
        rfl
      macr := fun byte memory => by
        have nonneg : 0 ≤ macrSum B isSigned m % 2 ^ 32 := Int.emod_nonneg _ (by decide)
        have less : macr < 2 ^ 32 := by
          unfold wordOfInt at sum
          omega
        refine Eq.trans (congrArg Int.ofNat (memory.macrValue_writeMacr less _)) ?_
        rw [sum]
        exact Int.toNat_of_nonneg nonneg
      cy := carry
      psw := rfl }
  registers _ _ := rfl
  cpu := rfl
  update := rfl

theorem machu_obeyed : MduCommand.machu.Obeyed B m ((MduCommand.machu.perform B).run m).2 := by
  have exactSum : macrSum B false m =
      ((macrBytes B m.bus).1 + m.cpu.wordValue .ax * m.cpu.wordValue .bc : Nat) := by
    rfl
  unfold MduCommand.perform mduMachu
  rw [getRp_bind, getRp_bind, StateT.run_bind, loadMacr_run]
  show MduCommand.machu.Obeyed B m ((storeMacr B _ >>= _ : Exec σ Unit).run (m.setBus _)).2
  rw [StateT.run_bind, storeMacr_run]
  refine accumulated_obeyed 0 (fun _ leaves => leaves) ?_ ?_
  · rw [exactSum]
    rfl
  · rw [exactSum]
    simp only [fits_false_iff]
    split_ifs <;> omega

theorem mach_obeyed : MduCommand.mach.Obeyed B m ((MduCommand.mach.perform B).run m).2 := by
  have left := m.cpu.wordValue_lt .ax
  have right := m.cpu.wordValue_lt .bc
  have product := fits_product left right
  have macr := @macrBytes_lt σ B m.bus
  have word :
      wordOfInt (signed 16 (m.cpu.wordValue .ax) * signed 16 (m.cpu.wordValue .bc)) < 2 ^ 32 := by
    unfold wordOfInt
    omega
  unfold MduCommand.perform mduMach
  rw [getRp_bind, getRp_bind, StateT.run_bind, loadMacr_run]
  show MduCommand.mach.Obeyed B m ((storeMacr B _ >>= _ : Exec σ Unit).run (m.setBus _)).2
  rw [StateT.run_bind, storeMacr_run]
  refine accumulated_obeyed _ (fun _ leaves => leaves) ?_ ?_
  · rw [mul32_signed left right, add32_signed]
    rfl
  · dsimp only
    rw [mul32_signed left right, overflow_bit macr word, signed_wordOfInt product]
    rfl

theorem perform_obeyed (command : MduCommand) :
    command.Obeyed B m ((command.perform B).run m).2 := by
  cases command with
  | mulhu => exact mulhu_obeyed
  | mulh => exact mulh_obeyed
  | divhu => exact divhu_obeyed
  | machu => exact machu_obeyed
  | mach => exact mach_obeyed
  | divwu => exact divwu_obeyed

/-! ### Which operations are undefined -/

def Strict.runs {α : Type} (f : Strict σ α) (m : Machine σ) : Except Undefined α × Machine σ :=
  (ExceptT.run f).run m

theorem runs_defined {α β : Type} (f : Exec σ α) (g : α → Strict σ β) :
    (defined f >>= g).runs m = (g (f.run m).1).runs (f.run m).2 := rfl

theorem runs_getRp {β : Type} (rp : WordRegister) (g : Nat → Strict σ β) :
    (defined (getRp rp) >>= g).runs m = (g (m.cpu.wordValue rp)).runs m := by
  rw [runs_defined, getRp_run]

theorem runs_loadMacr {β : Type} (g : Nat → Strict σ β) : (defined (loadMacr B) >>= g).runs m =
      (g (macrBytes B m.bus).1).runs (m.setBus (macrBytes B m.bus).2) := by
  rw [runs_defined, loadMacr_run]

theorem runs_intResult {β : Type} {z : Int} (fits : Fits true z) (g : Int → Strict σ β) :
    (intResult z >>= g).runs m = (g z).runs m := by
  unfold intResult
  rw [if_pos fits]
  rfl

theorem runs_overflow {β : Type} {z : Int} (overflow : ¬Fits true z) (g : Int → Strict σ β) :
    (intResult z >>= g).runs m = (.error .signedOverflow, m) := by
  unfold intResult
  rw [if_neg overflow]
  rfl

theorem runs_divide {β : Type} {a b : Nat} (nonzero : b ≠ 0) (g : Nat → Strict σ β) :
    (divide a b >>= g).runs m = (g (a / b)).runs m := by
  unfold divide
  rw [if_neg nonzero]
  rfl

theorem runs_remainder {β : Type} {a b : Nat} (nonzero : b ≠ 0) (g : Nat → Strict σ β) :
    (remainder a b >>= g).runs m = (g (a % b)).runs m := by
  unfold remainder
  rw [if_neg nonzero]
  rfl

theorem strictMulh_runs : strictMulh.runs m = (.ok (), ((MduCommand.mulh.perform B).run m).2) := by
  have left := m.cpu.wordValue_lt .ax
  have right := m.cpu.wordValue_lt .bc
  unfold strictMulh MduCommand.perform
  rw [runs_getRp, runs_getRp, runs_intResult (fits_product left right), getRp_bind, getRp_bind,
    mul32_signed left right]
  rfl

theorem strictDivhu_runs : strictDivhu.runs m = (.ok (), (mduDivhu.run m).2) := by
  unfold strictDivhu mduDivhu
  rw [runs_getRp, runs_getRp, getRp_bind, getRp_bind]
  split_ifs with zero
  · rfl
  · rw [runs_divide zero, runs_defined, runs_remainder zero]
    rfl

theorem strictDivwu_runs : strictDivwu.runs m = (.ok (), (mduDivwu.run m).2) := by
  unfold strictDivwu mduDivwu
  rw [runs_getRp, runs_getRp, runs_getRp, runs_getRp, getRp_bind, getRp_bind, getRp_bind, getRp_bind]
  dsimp only
  split_ifs with zero
  · rfl
  · rw [runs_divide zero, runs_remainder zero]
    rfl

theorem macrSum_true : macrSum B true m = signed 32 (macrBytes B m.bus).1 +
    signed 16 (m.cpu.wordValue .ax) * signed 16 (m.cpu.wordValue .bc) := rfl

theorem strictMach_fits (fits : Fits true (macrSum B true m)) :
    (strictMach B).runs m = (.ok (), ((mduMach B).run m).2) := by
  have left := m.cpu.wordValue_lt .ax
  have right := m.cpu.wordValue_lt .bc
  rw [macrSum_true] at fits
  unfold strictMach mduMach
  rw [runs_getRp, runs_getRp, runs_loadMacr, runs_intResult (fits_product left right),
    runs_intResult fits, getRp_bind, getRp_bind, StateT.run_bind, loadMacr_run]
  dsimp only [bind, Id.run]
  rw [mul32_signed left right, add32_signed]
  rfl

theorem strictMach_overflow (overflow : ¬Fits true (macrSum B true m)) :
    ((strictMach B).runs m).1 = .error .signedOverflow := by
  have left := m.cpu.wordValue_lt .ax
  have right := m.cpu.wordValue_lt .bc
  rw [macrSum_true] at overflow
  unfold strictMach
  rw [runs_getRp, runs_getRp, runs_loadMacr, runs_intResult (fits_product left right),
    runs_overflow overflow]

/-- The sum of `MACH` is the only result that may leave its type. -/
def SumOverflows (B : Bus σ) (cmd : Nat) (m : Machine σ) : Prop :=
  cmd % 2 ^ 8 = MduCommand.mach.code ∧ ¬Fits true (macrSum B true m)

instance (B : Bus σ) (cmd : Nat) (m : Machine σ) : Decidable (SumOverflows B cmd m) :=
  inferInstanceAs (Decidable (_ ∧ _))

theorem strictMduCmd_runs (cmd : Nat) (m : Machine σ) : (¬SumOverflows B cmd m →
      (strictMduCmd B cmd).runs m = (.ok (), ((helperMduCmd B cmd).run m).2)) ∧
    (SumOverflows B cmd m → ((strictMduCmd B cmd).runs m).1 = .error .signedOverflow) := by
  have other (command : MduCommand) (code : cmd % 2 ^ 8 = command.code) (ne : command ≠ .mach)
      (overflows : SumOverflows B cmd m) : False := by
    have same := code.symm.trans overflows.1
    cases command <;> first | exact ne rfl | exact absurd same (by decide)
  unfold strictMduCmd
  rw [and_low_byte]
  split
  case h_1 code =>
    refine ⟨fun _ => ?_, fun overflows => (other .mulh code (by decide) overflows).elim⟩
    rw [@helperMduCmd_code σ B cmd .mulh code]
    exact strictMulh_runs
  case h_2 code =>
    refine ⟨fun _ => ?_, fun overflows => (other .divhu code (by decide) overflows).elim⟩
    rw [@helperMduCmd_code σ B cmd .divhu code]
    exact strictDivhu_runs
  case h_3 code =>
    refine ⟨fun inside => ?_, fun overflows => strictMach_overflow overflows.2⟩
    rw [@helperMduCmd_code σ B cmd .mach code]
    exact strictMach_fits (not_not.mp fun overflow => inside ⟨code, overflow⟩)
  case h_4 code =>
    refine ⟨fun _ => ?_, fun overflows => (other .divwu code (by decide) overflows).elim⟩
    rw [@helperMduCmd_code σ B cmd .divwu code]
    exact strictDivwu_runs
  case h_5 mach _ => exact ⟨fun _ => rfl, fun overflows => (mach overflows.1).elim⟩

/-- Every command leaves the exact result and nothing else. -/
theorem mduCmd_exact (B : Bus σ) (cmd : Nat) (m : Machine σ) :
    (∀ command : MduCommand, cmd % 2 ^ 8 = command.code →
      command.Obeyed B m ((helperMduCmd B cmd).run m).2) ∧
    ((strictMduCmd B cmd).runs m).1 ≠ .error .divisionByZero ∧
    (((strictMduCmd B cmd).runs m).1 = .error .signedOverflow ↔ SumOverflows B cmd m) ∧
    (¬SumOverflows B cmd m →
      (strictMduCmd B cmd).runs m = (.ok (), ((helperMduCmd B cmd).run m).2)) := by
  obtain ⟨inside, outside⟩ := @strictMduCmd_runs σ B cmd m
  refine ⟨fun command code => ?_, ?_, ?_, inside⟩
  · rw [helperMduCmd_code code]
    exact perform_obeyed command
  · by_cases overflows : SumOverflows B cmd m
    · rw [outside overflows]
      decide
    · rw [inside overflows]
      intro same
      cases same
  · refine ⟨fun error => ?_, outside⟩
    by_contra overflows
    rw [inside overflows] at error
    cases error

/-- `AX` and `BC` are 1, and the accumulator is the greatest signed number. -/
def greatestMacr : Machine (Nat → Nat) where
  cpu :=
    { psw := { cy := 0, isp := 3, rbs := 0, ac := 0, z := 0, ie := 0 }
      regs := fun index => if index = 0 ∨ index = 2 then 1 else 0
      sp := 0
      pc := 0
      es := 0x0F
      cs := 0
      skipEn := 0
      skipReq := 0
      irqIndex := -1
      irqPriority := 0 }
  bus := fun paddr => if paddr = macrlPaddr + 3 then 0x7F else 0xFF
  update := false

/-- The product is added to the greatest accumulator. -/
theorem mach_overflows : ¬∀ (cmd : Nat) (m : Machine (Nat → Nat)),
    ((strictMduCmd ramBus cmd).runs m).1 ≠ .error .signedOverflow := fun never =>
  never 0x06 greatestMacr (by decide)

end Tlib.Rl78
