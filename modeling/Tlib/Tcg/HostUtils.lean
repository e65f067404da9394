import Mathlib.Algebra.Ring.Int.Defs
import Mathlib.Tactic.Ring

/-!
Contract: products of 64-bit words in two words.

Owns: `mul64` with its partial products, and that `mulu64` and `muls64` are exact.
-/

namespace Tlib.Tcg

/-! ### Partial products -/

def lowHalf (x : Nat) : Nat := x % 2 ^ 32

def highHalf (x : Nat) : Nat := x / 2 ^ 32

/-- The low and the high word; the partial products are of words of 64 bits. -/
def mul64 (a b : Nat) : Nat × Nat :=
  let rl := lowHalf a * lowHalf b
  let rm := lowHalf a * highHalf b
  let rn := highHalf a * lowHalf b
  let rh := highHalf a * highHalf b
  let c := (highHalf rl + lowHalf rm + lowHalf rn) % 2 ^ 64
  let low := lowHalf rl + 2 ^ 32 * lowHalf c
  let c := (highHalf c + highHalf rm + highHalf rn + lowHalf rh) % 2 ^ 64
  (low, lowHalf c + 2 ^ 32 * ((highHalf rh + highHalf c) % 2 ^ 32))

theorem mul64_exact {a b : Nat} (aLess : a < 2 ^ 64) (bLess : b < 2 ^ 64) :
    (mul64 a b).1 + 2 ^ 64 * (mul64 a b).2 = a * b ∧ (mul64 a b).1 < 2 ^ 64 ∧
      (mul64 a b).2 < 2 ^ 64 := by
  have whole : a * b = lowHalf a * lowHalf b +
      2 ^ 32 * (lowHalf a * highHalf b + highHalf a * lowHalf b) +
      2 ^ 64 * (highHalf a * highHalf b) := by
    conv_lhs => rw [← Nat.mod_add_div a (2 ^ 32), ← Nat.mod_add_div b (2 ^ 32)]
    unfold lowHalf highHalf
    ring
  have aLow : lowHalf a ≤ 2 ^ 32 - 1 := by unfold lowHalf; omega
  have aHigh : highHalf a ≤ 2 ^ 32 - 1 := by unfold highHalf; omega
  have bLow : lowHalf b ≤ 2 ^ 32 - 1 := by unfold lowHalf; omega
  have bHigh : highHalf b ≤ 2 ^ 32 - 1 := by unfold highHalf; omega
  have rl := Nat.mul_le_mul aLow bLow
  have rm := Nat.mul_le_mul aLow bHigh
  have rn := Nat.mul_le_mul aHigh bLow
  have rh := Nat.mul_le_mul aHigh bHigh
  have fits : a * b ≤ (2 ^ 64 - 1) * (2 ^ 64 - 1) :=
    Nat.mul_le_mul (Nat.le_sub_one_of_lt aLess) (Nat.le_sub_one_of_lt bLess)
  rw [whole] at fits ⊢
  unfold mul64
  generalize lowHalf a * lowHalf b = p at *
  generalize lowHalf a * highHalf b = q at *
  generalize highHalf a * lowHalf b = r at *
  generalize highHalf a * highHalf b = t at *
  unfold lowHalf highHalf
  dsimp only
  omega

/-! ### Words -/

def mulu64 (a b : BitVec 64) : BitVec 64 × BitVec 64 :=
  (BitVec.ofNat 64 (mul64 a.toNat b.toNat).1, BitVec.ofNat 64 (mul64 a.toNat b.toNat).2)

/-- The high word is adjusted for signs. -/
def muls64 (a b : BitVec 64) : BitVec 64 × BitVec 64 :=
  let rh := (mulu64 a b).2
  let rh := if b.toInt < 0 then rh - a else rh
  let rh := if a.toInt < 0 then rh - b else rh
  ((mulu64 a b).1, rh)

theorem mulu64_exact (a b : BitVec 64) :
    (mulu64 a b).1.toNat + 2 ^ 64 * (mulu64 a b).2.toNat = a.toNat * b.toNat := by
  obtain ⟨exact', low, high⟩ := mul64_exact a.isLt b.isLt
  unfold mulu64
  rw [BitVec.toNat_ofNat, BitVec.toNat_ofNat, Nat.mod_eq_of_lt low, Nat.mod_eq_of_lt high, exact']

theorem toInt_eq (x : BitVec 64) :
    x.toInt = x.toNat - 2 ^ 64 * (if x.toInt < 0 then 1 else 0) := by
  have less := x.isLt
  have cond := BitVec.toInt_eq_toNat_cond x
  split_ifs at cond ⊢ <;> omega

theorem natAbs_toInt_le (x : BitVec 64) : x.toInt.natAbs ≤ 2 ^ 63 := by
  have less := x.isLt
  rw [BitVec.toInt_eq_toNat_cond]
  split_ifs <;> omega

/-- The two words of `muls64` are the signed product, with the sign in the high word. -/
theorem muls64_exact (a b : BitVec 64) :
    ((muls64 a b).1.toNat : Int) + 2 ^ 64 * (muls64 a b).2.toInt = a.toInt * b.toInt := by
  have unsigned := mulu64_exact a b
  have bound : (a.toInt * b.toInt).natAbs ≤ 2 ^ 63 * 2 ^ 63 :=
    Int.natAbs_mul .. ▸ Nat.mul_le_mul (natAbs_toInt_le a) (natAbs_toInt_le b)
  have low := (mulu64 a b).1.isLt
  have high := (mulu64 a b).2.isLt
  have aLess := a.isLt
  have bLess := b.isLt
  unfold muls64
  dsimp only
  generalize (mulu64 a b).1 = l at *
  generalize (mulu64 a b).2 = h at *
  have product : (l.toNat : Int) + 2 ^ 64 * h.toNat = a.toNat * b.toNat := by
    exact_mod_cast unsigned
  have aSign := toInt_eq a
  have bSign := toInt_eq b
  -- the product of the signed words is that of the unsigned ones, less the words at the signs
  have signed : a.toInt * b.toInt = a.toNat * b.toNat -
      2 ^ 64 * (a.toNat * (if b.toInt < 0 then 1 else 0)) -
      2 ^ 64 * (b.toNat * (if a.toInt < 0 then 1 else 0)) +
      2 ^ 128 * ((if a.toInt < 0 then 1 else 0) * (if b.toInt < 0 then 1 else 0)) := by
    conv_lhs => rw [aSign, bSign]
    ring
  rw [← product] at signed
  generalize a.toInt * b.toInt = result at *
  split_ifs at * <;> rw [BitVec.toInt_eq_toNat_cond]
  all_goals
    try rw [BitVec.toNat_sub]
    try rw [BitVec.toNat_sub]
    split_ifs <;> omega

end Tlib.Tcg
