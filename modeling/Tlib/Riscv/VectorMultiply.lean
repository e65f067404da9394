import Mathlib.Tactic.Ring
import Tlib.Library.CIntegers

/-!
Contract: the multiplications and divisions of the vector unit, for one element.

Owns: the macros and functions of `vector_helper_template.h` that compute an element, and that each
is exact for every width.
-/

namespace Tlib.Riscv.Vector

open Tlib.Library.CIntegers

variable {n : Nat}

/-- `sizeof(a) << 2` is half the width of the element. -/
def halfWidth (n : Nat) : Nat := n / 2

def lowMask (n bits : Nat) : BitVec (promotedWidth n) :=
  ((1 : BitVec (promotedWidth n)) <<< bits) - 1

def lbits (signed : Bool) (a : BitVec n) (bits : Nat) : BitVec (promotedWidth n) :=
  promote signed a &&& lowMask n bits

def hbits (signed : Bool) (a : BitVec n) (bits : Nat) : BitVec (promotedWidth n) :=
  shiftRight signed (promote signed a) bits &&& lowMask n bits

structure Partials (n : Nat) where
  (a1b1 a1b0 a0b1 a0b0 ab_1 : BitVec n)
  deriving DecidableEq, Repr

def partials (signed : Bool) (a b : BitVec n) : Partials n :=
  let h := halfWidth n
  let a1b1 := assign n (hbits signed a h * hbits signed b h)
  let a1b0 := assign n (hbits signed a h * lbits signed b h)
  let a0b1 := assign n (lbits signed a h * hbits signed b h)
  let a0b0 := assign n (lbits signed a h * lbits signed b h)
  let ab_1 := assign n (hbits signed a0b0 h + lbits signed a1b0 h + lbits signed a0b1 h)
  ⟨a1b1, a1b0, a0b1, a0b0, ab_1⟩

/-- The sum at the end of `OP_MULHU`, before it is assigned. -/
def upperSum (signed : Bool) (p : Partials n) : BitVec (promotedWidth n) :=
  let h := halfWidth n
  promote signed p.a1b1 + hbits signed p.a1b0 h + hbits signed p.a0b1 h + hbits signed p.ab_1 h

/-- `OP_MULHU`; `signed` is the type of `B`. -/
def opMulhu (signed : Bool) (a b : BitVec n) : BitVec n :=
  assign n (upperSum signed (partials signed a b))

def opNegMulhu (signed : Bool) (a b : BitVec n) : BitVec n :=
  let p := partials signed a b
  let ab_0 := assign n (lbits signed p.a0b0 (halfWidth n))
  assign n (~~~upperSum signed p +
    ofBool (promotedWidth n) (lbits signed p.ab_1 (halfWidth n) = 0 && ab_0 = 0))

/-- `a < 0 ? -a : a`, assigned to a variable of the type of `a`. -/
def absolute (a : BitVec n) : BitVec n :=
  assign n (if value true a < 0 then -promote true a else promote true a)

def opMulh (a b : BitVec n) : BitVec n :=
  let absA := absolute a
  let absB := absolute b
  if (value true a < 0) ≠ (value true b < 0) then opNegMulhu true absA absB
  else opMulhu true absA absB

def opMulhsu (a b : BitVec n) : BitVec n :=
  if value true a < 0 then opNegMulhu false (assign n (-promote true a)) b
  else opMulhu false a b

def divu (dividend divisor : BitVec n) : BitVec n :=
  if divisor = 0 then BitVec.allOnes n else dividend / divisor

def div (dividend divisor : BitVec n) : BitVec n :=
  if divisor = 0 then -1
  else if divisor = -1 ∧ dividend = BitVec.intMin n then BitVec.intMin n
  else dividend.sdiv divisor

def remu (dividend divisor : BitVec n) : BitVec n :=
  if divisor = 0 then dividend else dividend % divisor

def rem (dividend divisor : BitVec n) : BitVec n :=
  if divisor = 0 then dividend
  else if divisor = -1 ∧ dividend = BitVec.intMin n then 0
  else dividend.srem divisor

/-- The types of the accumulator and of the operands. -/
structure Signs where
  (acc a b : Bool)
  deriving DecidableEq, Repr

variable (signs : Signs) (acc a b : BitVec n)

def opMacc : BitVec n := assign n (promote signs.b b * promote signs.a a + promote signs.acc acc)

def opNmsac : BitVec n :=
  assign n (-(promote signs.b b * promote signs.a a) + promote signs.acc acc)

def opMadd : BitVec n := assign n (promote signs.b b * promote signs.acc acc + promote signs.a a)

def opNmsub : BitVec n :=
  assign n (-(promote signs.b b * promote signs.acc acc) + promote signs.a a)

def widen (signed : Bool) (x : BitVec n) : BitVec (2 * n) :=
  if signed then x.signExtend (2 * n) else x.setWidth (2 * n)

variable {a b : BitVec n} {h : Nat}

structure Halved (n h : Nat) : Prop where
  width : n = 2 * h
  least : 2 ≤ h

theorem Halved.halfWidth_eq (halved : Halved n h) : halfWidth n = h := by
  unfold halfWidth
  rw [halved.width]
  omega

theorem Halved.two_pow (halved : Halved n h) : 2 ^ n = 2 ^ h * 2 ^ h := by
  rw [halved.width, Nat.two_mul, Nat.pow_add]

theorem getLsbD_ones {w k : Nat} (less : k < w) (i : Nat) :
    ((1 : BitVec w) <<< k - 1).getLsbD i = decide (i < k) := by
  have one : (1 : BitVec w).toNat = 1 := by
    exact Nat.mod_eq_of_lt (Nat.one_lt_two_pow (by omega))
  have shifted : ((1 : BitVec w) <<< k).toNat = 2 ^ k := by
    rw [BitVec.toNat_shiftLeft, one, Nat.shiftLeft_eq, Nat.one_mul]
    exact Nat.mod_eq_of_lt (Nat.pow_lt_pow_right (by decide) less)
  have mask : ((1 : BitVec w) <<< k - 1).toNat = 2 ^ k - 1 := by
    rw [BitVec.toNat_sub_of_le, shifted, one]
    rw [BitVec.le_def, shifted, one]
    exact Nat.one_le_two_pow
  rw [BitVec.getLsbD, mask, Nat.testBit_two_pow_sub_one]

section

variable (halved : Halved n h)

include halved

theorem getLsbD_lowMask (i : Nat) : (lowMask n h).getLsbD i = decide (i < h) := by
  have wide := le_promotedWidth n
  have width := halved.width
  have least := halved.least
  exact getLsbD_ones (by omega) i

theorem toNat_lbits (signed : Bool) (a : BitVec n) :
    (lbits signed a h).toNat = a.toNat % 2 ^ h := by
  have width := halved.width
  apply Nat.eq_of_testBit_eq
  intro i
  rw [BitVec.testBit_toNat, Nat.testBit_mod_two_pow, BitVec.testBit_toNat]
  unfold lbits
  rw [BitVec.getLsbD_and, getLsbD_lowMask halved]
  by_cases low : i < h
  · rw [getLsbD_promote signed a (by omega), Bool.and_comm]
  · simp [low]

theorem toNat_hbits (signed : Bool) (a : BitVec n) :
    (hbits signed a h).toNat = a.toNat / 2 ^ h := by
  have wide := le_promotedWidth n
  have width := halved.width
  apply Nat.eq_of_testBit_eq
  intro i
  rw [BitVec.testBit_toNat, ← Nat.shiftRight_eq_div_pow, Nat.testBit_shiftRight,
    BitVec.testBit_toNat]
  unfold hbits
  rw [BitVec.getLsbD_and, getLsbD_lowMask halved]
  by_cases low : i < h
  · rw [getLsbD_shiftRight signed _ (by omega), getLsbD_promote signed a (by omega)]
    simp [low]
  · rw [BitVec.getLsbD_of_ge a (h + i) (by omega)]
    simp [low]

theorem toNat_div_lt (a : BitVec n) : a.toNat / 2 ^ h < 2 ^ h := by
  apply Nat.div_lt_of_lt_mul
  rw [← Nat.pow_add, ← Nat.two_mul, ← halved.width]
  exact a.isLt

theorem toNat_assign_mul {x y : BitVec (promotedWidth n)}
    (left : x.toNat < 2 ^ h) (right : y.toNat < 2 ^ h) :
    (assign n (x * y)).toNat = x.toNat * y.toNat := by
  have product : x.toNat * y.toNat < 2 ^ n := by
    rw [halved.two_pow]
    exact Nat.mul_lt_mul'' left right
  have wide : 2 ^ n ≤ 2 ^ promotedWidth n := Nat.pow_le_pow_right (by decide) (le_promotedWidth n)
  unfold assign
  rw [BitVec.toNat_setWidth, BitVec.toNat_mul, Nat.mod_eq_of_lt (Nat.lt_of_lt_of_le product wide),
    Nat.mod_eq_of_lt product]

theorem toNat_assign_sum {x y z : BitVec (promotedWidth n)}
    (first : x.toNat < 2 ^ h) (second : y.toNat < 2 ^ h) (third : z.toNat < 2 ^ h) :
    (assign n (x + y + z)).toNat = x.toNat + y.toNat + z.toNat := by
  have four : 2 ^ 2 ≤ 2 ^ h := Nat.pow_le_pow_right (by decide) halved.least
  have square := halved.two_pow
  have room : 2 ^ 2 * 2 ^ h ≤ 2 ^ h * 2 ^ h := Nat.mul_le_mul_right _ four
  have wide : 2 ^ n ≤ 2 ^ promotedWidth n := Nat.pow_le_pow_right (by decide) (le_promotedWidth n)
  unfold assign
  rw [BitVec.toNat_setWidth, BitVec.toNat_add, BitVec.toNat_add]
  generalize 2 ^ promotedWidth n = W at wide ⊢
  have sum : x.toNat + y.toNat + z.toNat < 2 ^ n := by omega
  rw [Nat.mod_eq_of_lt (show x.toNat + y.toNat < W by omega),
    Nat.mod_eq_of_lt (Nat.lt_of_lt_of_le sum wide), Nat.mod_eq_of_lt sum]

end

structure PartialsExact (a b : BitVec n) (h : Nat) (p : Partials n) : Prop where
  a1b1 : p.a1b1.toNat = a.toNat / 2 ^ h * (b.toNat / 2 ^ h)
  a1b0 : p.a1b0.toNat = a.toNat / 2 ^ h * (b.toNat % 2 ^ h)
  a0b1 : p.a0b1.toNat = a.toNat % 2 ^ h * (b.toNat / 2 ^ h)
  a0b0 : p.a0b0.toNat = a.toNat % 2 ^ h * (b.toNat % 2 ^ h)
  ab_1 : p.ab_1.toNat = p.a0b0.toNat / 2 ^ h + p.a1b0.toNat % 2 ^ h + p.a0b1.toNat % 2 ^ h

theorem partials_exact (halved : Halved n h) (signed : Bool) (a b : BitVec n) :
    PartialsExact a b h (partials signed a b) := by
  have low (x : BitVec n) : (lbits signed x h).toNat < 2 ^ h := by
    rw [toNat_lbits halved]
    exact Nat.mod_lt _ (Nat.two_pow_pos h)
  have high (x : BitVec n) : (hbits signed x h).toNat < 2 ^ h := by
    rw [toNat_hbits halved]
    exact toNat_div_lt halved x
  unfold partials
  simp only [halved.halfWidth_eq]
  constructor
  · rw [toNat_assign_mul halved (high a) (high b), toNat_hbits halved, toNat_hbits halved]
  · rw [toNat_assign_mul halved (high a) (low b), toNat_hbits halved, toNat_lbits halved]
  · rw [toNat_assign_mul halved (low a) (high b), toNat_lbits halved, toNat_hbits halved]
  · rw [toNat_assign_mul halved (low a) (low b), toNat_lbits halved, toNat_lbits halved]
  · rw [toNat_assign_sum halved (high _) (low _) (low _), toNat_hbits halved,
      toNat_lbits halved, toNat_lbits halved]

section

variable {H a0 a1 b0 b1 : Nat}

theorem mul_eq_partials : (a1 * H + a0) * (b1 * H + b0) =
      a0 * b0 % H + H * ((a0 * b0 / H + a1 * b0 % H + a0 * b1 % H) +
        H * (a1 * b1 + a1 * b0 / H + a0 * b1 / H)) := by
  have first := Nat.div_add_mod (a1 * b0) H
  have second := Nat.div_add_mod (a0 * b1) H
  have third := Nat.div_add_mod (a0 * b0) H
  calc (a1 * H + a0) * (b1 * H + b0)
      = a0 * b0 + H * (a1 * b0 + a0 * b1 + H * (a1 * b1)) := by ring
    _ = (H * (a0 * b0 / H) + a0 * b0 % H) + H * ((H * (a1 * b0 / H) + a1 * b0 % H) +
          (H * (a0 * b1 / H) + a0 * b1 % H) + H * (a1 * b1)) := by
        rw [first, second, third]
    _ = _ := by ring

theorem mul_div_square (positive : 0 < H) : (a1 * H + a0) * (b1 * H + b0) / (H * H) =
      a1 * b1 + a1 * b0 / H + a0 * b1 / H + (a0 * b0 / H + a1 * b0 % H + a0 * b1 % H) / H := by
  rw [mul_eq_partials, ← Nat.div_div_eq_div_mul, Nat.add_mul_div_left _ _ positive,
    Nat.div_eq_of_lt (Nat.mod_lt _ positive), Nat.zero_add, Nat.add_mul_div_left _ _ positive,
    Nat.add_comm]

theorem mul_mod_square_eq_zero_iff (positive : 0 < H) :
    (a1 * H + a0) * (b1 * H + b0) % (H * H) = 0 ↔
      (a0 * b0 / H + a1 * b0 % H + a0 * b1 % H) % H = 0 ∧ a0 * b0 % H = 0 := by
  rw [mul_eq_partials, Nat.mod_mul, Nat.add_mul_mod_self_left, Nat.mod_mod,
    Nat.add_mul_div_left _ _ positive, Nat.div_eq_of_lt (Nat.mod_lt _ positive), Nat.zero_add,
    Nat.add_mul_mod_self_left, Nat.add_eq_zero_iff, Nat.mul_eq_zero, and_comm]
  simp [Nat.pos_iff_ne_zero.mp positive]

end

theorem assign_eq_ofNat {w : Nat} (x : BitVec w) : assign n x = BitVec.ofNat n x.toNat := by
  apply BitVec.eq_of_toNat_eq
  unfold assign
  rw [BitVec.toNat_setWidth, BitVec.toNat_ofNat]

theorem toNat_eq_halves (a : BitVec n) (h : Nat) :
    a.toNat / 2 ^ h * 2 ^ h + a.toNat % 2 ^ h = a.toNat := Nat.div_add_mod' a.toNat (2 ^ h)

def upper (a b : BitVec n) : Nat := a.toNat * b.toNat / 2 ^ n

theorem assign_upperSum (halved : Halved n h) (signed : Bool) (a b : BitVec n) :
    assign n (upperSum signed (partials signed a b)) = BitVec.ofNat n (upper a b) := by
  have wide := le_promotedWidth n
  have exact_ := partials_exact halved signed a b
  have number : upper a b = (partials signed a b).a1b1.toNat +
      (partials signed a b).a1b0.toNat / 2 ^ h + (partials signed a b).a0b1.toNat / 2 ^ h +
        (partials signed a b).ab_1.toNat / 2 ^ h := by
    unfold upper
    rw [exact_.ab_1, exact_.a1b1, exact_.a1b0, exact_.a0b1, exact_.a0b0, halved.two_pow,
      ← mul_div_square (Nat.two_pow_pos h), toNat_eq_halves, toNat_eq_halves]
  unfold upperSum
  simp only [halved.halfWidth_eq]
  rw [assign_add wide, assign_add wide, assign_add wide, assign_promote, assign_eq_ofNat,
    assign_eq_ofNat, assign_eq_ofNat, toNat_hbits halved, toNat_hbits halved, toNat_hbits halved,
    number, BitVec.ofNat_add, BitVec.ofNat_add, BitVec.ofNat_add, BitVec.ofNat_toNat,
    BitVec.setWidth_eq]

theorem opMulhu_eq (halved : Halved n h) (signed : Bool) (a b : BitVec n) :
    opMulhu signed a b = BitVec.ofNat n (upper a b) := assign_upperSum halved signed a b

theorem neg_ediv_eq {P M : Nat} (positive : 0 < M) :
    (-(P : Int)) / M = -(P / M : Nat) - 1 + if P % M = 0 then 1 else 0 := by
  have whole := Nat.div_add_mod P M
  have small := Nat.mod_lt P positive
  generalize P / M = q at whole ⊢
  generalize P % M = r at whole small ⊢
  have number : (P : Int) = M * q + r := by exact_mod_cast whole.symm
  split
  next clear =>
    refine ((Int.ediv_emod_unique (r := 0) (by omega)).mpr ⟨?_, by decide, by omega⟩).1
    rw [number, clear]
    ring
  next rest =>
    refine ((Int.ediv_emod_unique (r := M - r) (by omega)).mpr ⟨?_, by omega, by omega⟩).1
    rw [number]
    ring

theorem borrow_eq (halved : Halved n h) (signed : Bool) (a b : BitVec n) :
    (lbits signed (partials signed a b).ab_1 (halfWidth n) = 0 &&
        assign n (lbits signed (partials signed a b).a0b0 (halfWidth n)) = 0) =
      decide (a.toNat * b.toNat % 2 ^ n = 0) := by
  have exact_ := partials_exact halved signed a b
  have positive := Nat.two_pow_pos h
  have less : 2 ^ h < 2 ^ n := by
    have width := halved.width
    have least := halved.least
    exact Nat.pow_lt_pow_right (by decide) (by omega)
  have zero {w : Nat} (x : BitVec w) : x = 0 ↔ x.toNat = 0 := by
    rw [← BitVec.toNat_inj]
    simp
  have low : (partials signed a b).a0b0.toNat % 2 ^ h < 2 ^ h := Nat.mod_lt _ positive
  rw [Bool.eq_iff_iff, Bool.and_eq_true, decide_eq_true_eq, decide_eq_true_eq, decide_eq_true_eq,
    zero, zero, halved.halfWidth_eq, assign_eq_ofNat, BitVec.toNat_ofNat, toNat_lbits halved,
    toNat_lbits halved, Nat.mod_eq_of_lt (Nat.lt_trans low less), exact_.ab_1, exact_.a1b0,
    exact_.a0b1, exact_.a0b0, ← mul_mod_square_eq_zero_iff positive, toNat_eq_halves,
    toNat_eq_halves, halved.two_pow]

theorem opNegMulhu_eq (halved : Halved n h) (signed : Bool) (a b : BitVec n) :
    opNegMulhu signed a b =
      BitVec.ofInt n ((-((a.toNat * b.toNat : Nat) : Int)) / ((2 ^ n : Nat) : Int)) := by
  have wide := le_promotedWidth n
  have borrow := borrow_eq halved signed a b
  unfold opNegMulhu
  simp only [borrow]
  rw [assign_add wide, assign_not wide, assign_upperSum halved, assign_ofBool wide,
    neg_ediv_eq (Nat.two_pow_pos n), BitVec.ofInt_add, Int.sub_eq_add_neg, BitVec.ofInt_add,
    BitVec.ofInt_neg, BitVec.ofInt_natCast]
  have complement : ~~~BitVec.ofNat n (upper a b) =
      -BitVec.ofNat n (upper a b) + BitVec.ofInt n (-1) := by
    have one : BitVec.ofInt n (-1) = -1#n := BitVec.ofInt_neg
    rw [one, BitVec.neg_eq_not_add, BitVec.add_assoc, BitVec.add_right_neg, BitVec.add_zero]
  rw [complement]
  unfold upper ofBool
  by_cases clear : a.toNat * b.toNat % 2 ^ n = 0
  · simp [clear]
  · simp [clear]

theorem toNat_absolute (a : BitVec n) : (absolute a).toNat = a.toInt.natAbs := by
  have wide := le_promotedWidth n
  unfold absolute value
  simp only [if_true]
  by_cases negative : a.toInt < 0
  · have big : ¬2 * a.toNat < 2 ^ n := by
      intro small
      rw [BitVec.toInt_eq_toNat_of_lt small] at negative
      omega
    rw [if_pos negative, assign_neg wide, assign_promote, BitVec.toNat_neg, BitVec.toInt,
      if_neg big, Nat.mod_eq_of_lt (by omega)]
    omega
  · have small : 2 * a.toNat < 2 ^ n := by
      by_contra big
      rw [BitVec.toInt, if_neg big] at negative
      omega
    rw [if_neg negative, assign_promote, BitVec.toInt_eq_toNat_of_lt small, Int.natAbs_natCast]

def highHalf (n : Nat) (product : Int) : BitVec n := BitVec.ofInt n (product / (2 ^ n : Nat))

theorem opMulhu_high (halved : Halved n h) (signed : Bool) (a b : BitVec n) :
    opMulhu signed a b = highHalf n (a.toNat * b.toNat) := by
  rw [opMulhu_eq halved]
  unfold highHalf upper
  rw [← BitVec.ofInt_natCast, Int.natCast_ediv, Int.natCast_mul]

theorem opNegMulhu_high (halved : Halved n h) (signed : Bool) (a b : BitVec n) :
    opNegMulhu signed a b = highHalf n (-(a.toNat * b.toNat)) := by
  rw [opNegMulhu_eq halved]
  unfold highHalf
  rw [Int.natCast_mul]

theorem opMulh_high (halved : Halved n h) (a b : BitVec n) :
    opMulh a b = highHalf n (a.toInt * b.toInt) := by
  unfold opMulh value
  simp only [if_true]
  split
  next differ =>
    rw [opNegMulhu_high halved, toNat_absolute, toNat_absolute]
    by_cases left : a.toInt < 0
    · have right : ¬b.toInt < 0 := fun right => differ (by simp [left, right])
      rw [Int.ofNat_natAbs_of_nonpos (by omega), Int.natAbs_of_nonneg (by omega)]
      exact congrArg (highHalf n) (by ring)
    · have right : b.toInt < 0 := by
        by_contra right
        exact differ (by simp [left, right])
      rw [Int.ofNat_natAbs_of_nonpos (a := b.toInt) (by omega), Int.natAbs_of_nonneg (by omega)]
      exact congrArg (highHalf n) (by ring)
  next same =>
    rw [opMulhu_high halved, toNat_absolute, toNat_absolute]
    by_cases left : a.toInt < 0
    · have right : b.toInt < 0 := by
        by_contra right
        exact same (by simp [left, right])
      rw [Int.ofNat_natAbs_of_nonpos (by omega), Int.ofNat_natAbs_of_nonpos (by omega)]
      exact congrArg (highHalf n) (by ring)
    · have right : ¬b.toInt < 0 := fun right => same (by simp [left, right])
      rw [Int.natAbs_of_nonneg (by omega), Int.natAbs_of_nonneg (by omega)]

theorem opMulhsu_high (halved : Halved n h) (a b : BitVec n) :
    opMulhsu a b = highHalf n (a.toInt * b.toNat) := by
  have absolute_ := toNat_absolute a
  unfold absolute value at absolute_
  unfold opMulhsu value
  simp only [if_true] at absolute_ ⊢
  by_cases negative : a.toInt < 0
  · rw [if_pos negative] at absolute_ ⊢
    rw [opNegMulhu_high halved, absolute_, Int.ofNat_natAbs_of_nonpos (by omega), Int.neg_mul,
      Int.neg_neg]
  · rw [if_neg negative] at absolute_ ⊢
    rw [assign_promote] at absolute_
    rw [opMulhu_high halved, absolute_, Int.natAbs_of_nonneg (by omega)]

section

variable (signs : Signs) (acc a b : BitVec n)

theorem ofInt_product (signedA signedB : Bool) : assign n (promote signedB b * promote signedA a) =
      BitVec.ofInt n (value signedB b * value signedA a) := by
  rw [assign_mul (le_promotedWidth n), assign_promote, assign_promote, BitVec.ofInt_mul,
    ofInt_value, ofInt_value]

theorem opMacc_eq : opMacc signs acc a b =
    BitVec.ofInt n (value signs.b b * value signs.a a + value signs.acc acc) := by
  unfold opMacc
  rw [assign_add (le_promotedWidth n), ofInt_product, assign_promote, BitVec.ofInt_add, ofInt_value]

theorem opNmsac_eq : opNmsac signs acc a b =
    BitVec.ofInt n (-(value signs.b b * value signs.a a) + value signs.acc acc) := by
  have wide := le_promotedWidth n
  unfold opNmsac
  rw [assign_add wide, assign_neg wide, ofInt_product, assign_promote, BitVec.ofInt_add,
    BitVec.ofInt_neg, ofInt_value]

theorem opMadd_eq : opMadd signs acc a b =
    BitVec.ofInt n (value signs.b b * value signs.acc acc + value signs.a a) := by
  unfold opMadd
  rw [assign_add (le_promotedWidth n), ofInt_product, assign_promote, BitVec.ofInt_add, ofInt_value]

theorem opNmsub_eq : opNmsub signs acc a b =
    BitVec.ofInt n (-(value signs.b b * value signs.acc acc) + value signs.a a) := by
  have wide := le_promotedWidth n
  unfold opNmsub
  rw [assign_add wide, assign_neg wide, ofInt_product, assign_promote, BitVec.ofInt_add,
    BitVec.ofInt_neg, ofInt_value]

theorem value_widen (signed : Bool) (x : BitVec n) :
    value signed (widen signed x) = value signed x := by
  unfold value widen
  split
  · exact BitVec.toInt_signExtend_of_le (by omega)
  · rw [BitVec.toNat_setWidth_of_le (by omega)]

end

structure Divides (dividend divisor quotient remainder : Int) : Prop where
  sum : dividend = quotient * divisor + remainder
  small : remainder.natAbs < divisor.natAbs
  sign : 0 ≤ remainder * dividend

theorem tmod_mul_self_nonneg (x y : Int) : 0 ≤ x.tmod y * x := by
  rcases Int.le_total 0 x with up | down
  · exact Int.mul_nonneg (Int.tmod_nonneg y up) up
  · have negated : 0 ≤ (-x).tmod y := Int.tmod_nonneg y (by omega)
    rw [Int.neg_tmod] at negated
    have product := Int.mul_nonneg negated (show 0 ≤ -x by omega)
    rwa [Int.neg_mul_neg] at product

theorem divides_tdiv {x y : Int} (nonzero : y ≠ 0) : Divides x y (x.tdiv y) (x.tmod y) where
  sum := (Int.tdiv_mul_add_tmod x y).symm
  small := by
    rw [Int.natAbs_tmod]
    exact Nat.mod_lt _ (Int.natAbs_pos.mpr nonzero)
  sign := tmod_mul_self_nonneg x y

theorem divu_remu_divides {dividend divisor : BitVec n} (nonzero : divisor ≠ 0) :
    Divides dividend.toNat divisor.toNat (divu dividend divisor).toNat
      (remu dividend divisor).toNat := by
  have positive : divisor.toNat ≠ 0 := fun zero => nonzero (BitVec.eq_of_toNat_eq (by simpa using zero))
  unfold divu remu
  rw [if_neg nonzero, if_neg nonzero, BitVec.toNat_udiv, BitVec.toNat_umod, Int.ofNat_tdiv,
    Int.ofNat_tmod]
  exact divides_tdiv (by omega)

theorem div_rem_divides {dividend divisor : BitVec n} (nonzero : divisor ≠ 0)
    (fits : ¬(divisor = -1 ∧ dividend = BitVec.intMin n)) :
    Divides dividend.toInt divisor.toInt (div dividend divisor).toInt
      (rem dividend divisor).toInt := by
  have number : divisor.toInt ≠ 0 := fun zero => nonzero (BitVec.eq_of_toInt_eq (by simpa using zero))
  have apart : dividend ≠ BitVec.intMin n ∨ divisor ≠ -1#n := by
    by_cases least : dividend = BitVec.intMin n
    · exact Or.inr fun minusOne => fits ⟨minusOne, least⟩
    · exact Or.inl least
  unfold div rem
  rw [if_neg nonzero, if_neg nonzero, if_neg fits, if_neg fits,
    BitVec.toInt_sdiv_of_ne_or_ne _ _ apart, BitVec.toInt_srem]
  exact divides_tdiv number

structure ExactElement (n : Nat) (a b acc : BitVec n) : Prop where
  mulhu : opMulhu false a b = highHalf n (a.toNat * b.toNat)
  mulh : opMulh a b = highHalf n (a.toInt * b.toInt)
  mulhsu : opMulhsu a b = highHalf n (a.toInt * b.toNat)
  unsigned : b ≠ 0 → Divides a.toNat b.toNat (divu a b).toNat (remu a b).toNat
  unsignedByZero : b = 0 → divu a b = BitVec.allOnes n ∧ remu a b = a
  signed : b ≠ 0 → ¬(b = -1 ∧ a = BitVec.intMin n) →
    Divides a.toInt b.toInt (div a b).toInt (rem a b).toInt
  signedByZero : b = 0 → div a b = BitVec.allOnes n ∧ rem a b = a
  overflow : b ≠ 0 → b = -1 → a = BitVec.intMin n → div a b = BitVec.intMin n ∧ rem a b = 0
  sums : ∀ signs : Signs, opMacc signs acc a b =
        BitVec.ofInt n (value signs.b b * value signs.a a + value signs.acc acc) ∧
      opNmsac signs acc a b =
        BitVec.ofInt n (-(value signs.b b * value signs.a a) + value signs.acc acc) ∧
      opMadd signs acc a b =
        BitVec.ofInt n (value signs.b b * value signs.acc acc + value signs.a a) ∧
      opNmsub signs acc a b =
        BitVec.ofInt n (-(value signs.b b * value signs.acc acc) + value signs.a a)
  wideSums : ∀ (signs : Signs) (wide : BitVec (2 * n)),
    opMacc signs wide (widen signs.a a) (widen signs.b b) =
      BitVec.ofInt (2 * n) (value signs.b b * value signs.a a + value signs.acc wide)

theorem halved_of_sew (sew : n = 8 ∨ n = 16 ∨ n = 32 ∨ n = 64) : Halved n (n / 2) := by
  rcases sew with rfl | rfl | rfl | rfl <;> exact ⟨rfl, by decide⟩

theorem neg_one_eq_allOnes : (-1 : BitVec n) = BitVec.allOnes n := by
  rw [← BitVec.neg_one_eq_allOnes]
  rfl

/-- The element is exact for every `SEW` and all operands. -/
theorem exactElement_of_sew (sew : n = 8 ∨ n = 16 ∨ n = 32 ∨ n = 64) (a b acc : BitVec n) :
    ExactElement n a b acc := by
  have halved := halved_of_sew sew
  exact
    { mulhu := opMulhu_high halved false a b
      mulh := opMulh_high halved a b
      mulhsu := opMulhsu_high halved a b
      unsigned := divu_remu_divides
      unsignedByZero := fun zero => ⟨if_pos zero, if_pos zero⟩
      signed := div_rem_divides
      signedByZero := fun zero => ⟨(if_pos zero).trans neg_one_eq_allOnes, if_pos zero⟩
      overflow := fun nonzero minusOne least =>
        ⟨(if_neg nonzero).trans (if_pos ⟨minusOne, least⟩),
          (if_neg nonzero).trans (if_pos ⟨minusOne, least⟩)⟩
      sums := fun signs => ⟨opMacc_eq signs acc a b, opNmsac_eq signs acc a b,
        opMadd_eq signs acc a b, opNmsub_eq signs acc a b⟩
      wideSums := fun signs wide => by
        rw [opMacc_eq, value_widen, value_widen] }

/-- The high halves of the product of the least values of 64 bits. -/
theorem exactElement_least : ExactElement 64 (BitVec.intMin 64) (BitVec.intMin 64) 0 :=
  exactElement_of_sew (.inr (.inr (.inr rfl))) _ _ _

end Tlib.Riscv.Vector
