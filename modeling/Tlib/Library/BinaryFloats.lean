import Mathlib.Algebra.Order.Floor.Ring
import Mathlib.Data.Int.Log
import Mathlib.Data.Rat.Floor
import Mathlib.Tactic.Linarith

/-!
Contract: rounding of binary floating-point numbers.

Owns: the nearest number with a given number of significant bits, ties to even, and the numbers that
it leaves as they are. Does not own: exponent ranges.
-/

namespace Tlib.Library.BinaryFloats

def nearestEven (x : ℚ) : ℤ :=
  let below := ⌊x⌋
  if x - below < 1 / 2 then below
  else if 1 / 2 < x - below then below + 1
  else if below % 2 = 0 then below
  else below + 1

variable (precision : ℕ)

def lastPlace (x : ℚ) : ℚ := 2 ^ (Int.log 2 |x| + 1 - precision)

/-- The nearest number with `precision` significant bits. -/
def nearest (x : ℚ) : ℚ :=
  if x = 0 then 0 else nearestEven (x / lastPlace precision x) * lastPlace precision x

/-- The number has no more than `precision` significant bits. -/
def Representable (x : ℚ) : Prop := ∃ (m e : ℤ), |m| < 2 ^ precision ∧ x = m * 2 ^ e

variable {precision}

theorem nearestEven_intCast (n : ℤ) : nearestEven n = n := by
  unfold nearestEven
  simp

theorem nearest_zero : nearest precision 0 = 0 := if_pos rfl

theorem lastPlace_pos (x : ℚ) : 0 < lastPlace precision x := zpow_pos (by decide) _

theorem Representable.multiple {x : ℚ} (representable : Representable precision x)
    (nonzero : x ≠ 0) : ∃ k : ℤ, x / lastPlace precision x = k := by
  obtain ⟨m, e, small, rfl⟩ := representable
  have two : (2 : ℚ) ≠ 0 := by decide
  have positive : (0 : ℚ) < 2 ^ e := zpow_pos (by decide) e
  have size : |(m : ℚ) * 2 ^ e| < 2 ^ (precision + e) := by
    rw [abs_mul, abs_of_pos positive, zpow_add₀ two, zpow_natCast]
    refine mul_lt_mul_of_pos_right ?_ positive
    exact_mod_cast small
  have place : Int.log 2 |(m : ℚ) * 2 ^ e| < precision + e :=
    (Int.lt_zpow_iff_log_lt (by decide) (abs_pos.mpr nonzero)).mp (by exact_mod_cast size)
  refine ⟨m * 2 ^ (e - (Int.log 2 |(m : ℚ) * 2 ^ e| + 1 - precision)).toNat, ?_⟩
  unfold lastPlace
  rw [mul_div_assoc, ← zpow_sub₀ two]
  push_cast
  rw [← zpow_natCast, Int.toNat_of_nonneg (by omega)]

theorem nearest_of_representable {x : ℚ} (representable : Representable precision x) :
    nearest precision x = x := by
  unfold nearest
  by_cases zero : x = 0
  · rw [if_pos zero, zero]
  · obtain ⟨k, multiple⟩ := representable.multiple zero
    rw [if_neg zero, multiple, nearestEven_intCast, ← multiple]
    exact div_mul_cancel₀ x (lastPlace_pos x).ne'

theorem representable_mul_zpow {n : ℕ} (small : n < 2 ^ precision) (e : ℤ) :
    Representable precision (n * 2 ^ e) := by
  refine ⟨n, e, ?_, rfl⟩
  exact_mod_cast small

theorem nearest_natCast {n : ℕ} (small : n < 2 ^ precision) : nearest precision n = n := by
  have representable := representable_mul_zpow small 0
  rw [zpow_zero, mul_one] at representable
  exact nearest_of_representable representable

end Tlib.Library.BinaryFloats
