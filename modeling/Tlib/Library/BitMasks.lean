import Mathlib.Data.Nat.Bitwise
import Mathlib.Tactic.Ring

/-!
Contract: masks of bit ranges as arithmetic on powers of two.

Owns: what masks of high and of low bits leave of a number, and the masks that a shift makes.
-/

namespace Tlib.Library.BitMasks

open BitVec Nat

theorem and_highMask {width low value : Nat} (small : value < 2 ^ width) (le : low ≤ width) :
    value &&& (2 ^ width - 2 ^ low) = value / 2 ^ low * 2 ^ low := by
  have split : 2 ^ width - 2 ^ low = (2 ^ (width - low) - 1) <<< low := by
    rw [Nat.shiftLeft_eq, Nat.sub_mul, ← Nat.pow_add, Nat.sub_add_cancel le, Nat.one_mul]
  apply eq_of_testBit_eq
  intro i
  rw [split, ← shiftRight_eq_div_pow, ← Nat.shiftLeft_eq, testBit_and,
    testBit_shiftLeft, testBit_shiftLeft, testBit_shiftRight,
    testBit_two_pow_sub_one]
  by_cases high : low ≤ i
  · rw [Nat.add_sub_cancel' high]
    by_cases inside : i < width
    · have : i - low < width - low := by omega
      simp [high, this]
    · have beyond : value < 2 ^ i :=
        small.trans_le (Nat.pow_le_pow_right (by decide) (Nat.le_of_not_lt inside))
      simp [testBit_lt_two_pow beyond]
  · simp [high]

theorem highMask_and_highMask {width low other : Nat} (le : low ≤ width) (le' : other ≤ width) :
    (2 ^ width - 2 ^ low) &&& (2 ^ width - 2 ^ other) = 2 ^ width - 2 ^ max low other := by
  have pos := Nat.two_pow_pos low
  have top : 2 ^ width - 2 ^ low < 2 ^ width := by
    have := Nat.two_pow_pos width
    omega
  rw [and_highMask top le']
  rcases Nat.le_total low other with less | more
  · obtain ⟨k, rfl⟩ := Nat.exists_eq_add_of_le le'
    have pos' := Nat.two_pow_pos other
    have large : 2 ^ low ≤ 2 ^ other := Nat.pow_le_pow_right (by decide) less
    have some : 0 < 2 ^ k := Nat.two_pow_pos k
    have quotient : (2 ^ (other + k) - 2 ^ low) / 2 ^ other = 2 ^ k - 1 := by
      have full : 2 ^ (other + k) = 2 ^ other * (2 ^ k - 1) + 2 ^ other := by
        rw [Nat.pow_add, Nat.mul_sub, Nat.mul_one, Nat.sub_add_cancel]
        exact Nat.le_mul_of_pos_right _ some
      rw [full, Nat.add_sub_assoc large, mul_add_div pos', div_eq_of_lt (by omega),
        Nat.add_zero]
    rw [quotient, Nat.max_eq_right less, Nat.sub_mul, Nat.one_mul, ← Nat.pow_add, Nat.add_comm k]
  · obtain ⟨k, rfl⟩ := Nat.exists_eq_add_of_le more
    obtain ⟨l, rfl⟩ := Nat.exists_eq_add_of_le le
    have multiple : 2 ^ (other + k + l) - 2 ^ (other + k) = (2 ^ (k + l) - 2 ^ k) * 2 ^ other := by
      rw [Nat.sub_mul, ← Nat.pow_add, ← Nat.pow_add, Nat.add_comm k other]
      congr 2
      omega
    rw [Nat.max_eq_left more, multiple, Nat.mul_div_cancel _ (Nat.two_pow_pos other)]

theorem highMask_shift {width low : Nat} (less : low < width) :
    (2 ^ width - 2) <<< low % 2 ^ width = 2 ^ width - 2 ^ (low + 1) := by
  have pos := Nat.two_pow_pos low
  have le : 2 ^ (low + 1) ≤ 2 ^ width := Nat.pow_le_pow_right (by decide) less
  have value : (2 ^ width - 2) <<< low =
      (2 ^ width - 2 ^ (low + 1)) + 2 ^ width * (2 ^ low - 1) := by
    rw [Nat.shiftLeft_eq, Nat.sub_mul, Nat.mul_sub, Nat.mul_one, Nat.pow_succ, Nat.mul_comm 2]
    have : 2 ^ width ≤ 2 ^ width * 2 ^ low := Nat.le_mul_of_pos_right _ pos
    omega
  rw [value, add_mul_mod_self_left]
  refine mod_eq_of_lt ?_
  omega

theorem toNat_lowMask {w k : Nat} (less : k < w) : (((1 : BitVec w) <<< k) - 1).toNat = 2 ^ k - 1 := by
  have small : 2 ^ k < 2 ^ w := Nat.pow_lt_pow_right (by decide) less
  have one : (1 : BitVec w).toNat = 1 := toNat_one (zero_lt_of_lt less)
  have shifted : ((1 : BitVec w) <<< k).toNat = 2 ^ k := by
    rw [toNat_shiftLeft, one, Nat.shiftLeft_eq, Nat.one_mul, mod_eq_of_lt small]
  rw [toNat_sub_of_le, shifted, one]
  rw [le_def, shifted, one]
  exact Nat.two_pow_pos k

theorem toNat_and_lowMask {w k : Nat} (x : BitVec w) (less : k < w) :
    (x &&& (((1 : BitVec w) <<< k) - 1)).toNat = x.toNat % 2 ^ k := by
  rw [toNat_and, toNat_lowMask less, and_two_pow_sub_one_eq_mod]

theorem mod_two_pow_eq_iff {n a b : Nat} (le : a ≤ b) :
    n % 2 ^ b = n % 2 ^ a ↔ ∀ i, a ≤ i → i < b → n.testBit i = false := by
  constructor
  · intro same i above below
    have bits := congrArg (testBit · i) same
    simp only [testBit_mod_two_pow, below, decide_true, Bool.true_and,
      Nat.not_lt.mpr above, decide_false, Bool.false_and] at bits
    exact bits
  · intro clear
    apply eq_of_testBit_eq
    intro i
    by_cases low : i < a
    · simp [low, Nat.lt_of_lt_of_le low le]
    · by_cases below : i < b
      · simp [clear i (Nat.le_of_not_lt low) below]
      · simp [low, below]

end Tlib.Library.BitMasks
