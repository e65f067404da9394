import Mathlib.Data.Nat.Bitwise

/-!
Contract: carries and borrows as bits of sums and differences that are wider than the operands.

Owns: the carry out of the lower bits of a sum, and the bit of the exclusive or that shows it.
-/

namespace Tlib.Library.CarryBits

open Nat

def carryOut (bits a b carry : Nat) : Nat :=
  if 2 ^ bits ≤ a % 2 ^ bits + b % 2 ^ bits + carry then 1 else 0

def borrowOut (bits a b borrow : Nat) : Nat := if a % 2 ^ bits < b % 2 ^ bits + borrow then 1 else 0

variable {bits a b carry : Nat}

theorem xor_bit (bits a b : Nat) :
    ((a ^^^ b) >>> bits) &&& 1 = ((a >>> bits) + (b >>> bits)) % 2 := by
  rw [and_one_is_mod, shiftRight_xor_distrib, xor_mod_two_eq]

theorem sum_div (small : carry ≤ 1) :
    (a + b + carry) / 2 ^ bits = a / 2 ^ bits + b / 2 ^ bits + carryOut bits a b carry := by
  have positive := Nat.two_pow_pos bits
  have parts : a + b + carry = (a % 2 ^ bits + b % 2 ^ bits + carry) +
      2 ^ bits * (a / 2 ^ bits + b / 2 ^ bits) := by
    have hereA := mod_add_div a (2 ^ bits)
    have hereB := mod_add_div b (2 ^ bits)
    rw [Nat.mul_add]
    omega
  have low : (a % 2 ^ bits + b % 2 ^ bits + carry) / 2 ^ bits = carryOut bits a b carry := by
    unfold carryOut
    split
    next carries =>
      rw [Nat.div_eq_iff positive]
      omega
    next under => exact div_eq_of_lt (by omega)
  calc (a + b + carry) / 2 ^ bits
      = ((a % 2 ^ bits + b % 2 ^ bits + carry) +
          2 ^ bits * (a / 2 ^ bits + b / 2 ^ bits)) / 2 ^ bits := by rw [← parts]
    _ = carryOut bits a b carry + (a / 2 ^ bits + b / 2 ^ bits) := by
        rw [add_mul_div_left _ _ positive, low]
    _ = a / 2 ^ bits + b / 2 ^ bits + carryOut bits a b carry := Nat.add_comm _ _

theorem xor_sum_bit (bits a b : Nat) (small : carry ≤ 1) :
    ((a ^^^ b ^^^ (a + b + carry)) >>> bits) &&& 1 = carryOut bits a b carry := by
  have sum := @sum_div bits a b carry small
  have le : carryOut bits a b carry ≤ 1 := by
    unfold carryOut
    split <;> omega
  rw [Nat.xor_assoc, xor_bit, shiftRight_xor_distrib, add_mod, xor_mod_two_eq,
    ← add_mod]
  omega

theorem sum_bit (left : a < 2 ^ bits) (right : b < 2 ^ bits) (small : carry ≤ 1) :
    ((a + b + carry) >>> bits) &&& 1 = carryOut bits a b carry := by
  have le : carryOut bits a b carry ≤ 1 := by
    unfold carryOut
    split <;> omega
  rw [and_one_is_mod, shiftRight_eq_div_pow, sum_div small, div_eq_of_lt left,
    div_eq_of_lt right]
  omega

variable {borrow difference turns : Nat}

theorem carryOut_difference (is : difference + b + borrow = a + 2 ^ bits * turns)
    (small : borrow ≤ 1) : carryOut bits difference b borrow = borrowOut bits a b borrow := by
  have positive := Nat.two_pow_pos bits
  have low := mod_lt difference positive
  have right := mod_lt b positive
  have minuend := mod_lt a positive
  have sum := @sum_div bits difference b borrow small
  have same : a % 2 ^ bits + 2 ^ bits * carryOut bits difference b borrow =
      difference % 2 ^ bits + b % 2 ^ bits + borrow := by
    have modulo : (difference + b + borrow) % 2 ^ bits = a % 2 ^ bits := by
      rw [is, add_mul_mod_self_left]
    have whole := mod_add_div (difference + b + borrow) (2 ^ bits)
    have hereD := mod_add_div difference (2 ^ bits)
    have hereB := mod_add_div b (2 ^ bits)
    rw [modulo, sum, Nat.mul_add, Nat.mul_add] at whole
    omega
  unfold carryOut borrowOut at *
  split at same
  next carries =>
    rw [if_pos carries, if_pos (by omega)]
  next under =>
    rw [if_neg under, if_neg (by omega)]

theorem xor_difference_bit (is : difference + b + borrow = a + 2 ^ (bits + 1) * turns)
    (small : borrow ≤ 1) :
    ((a ^^^ b ^^^ difference) >>> bits) &&& 1 = borrowOut bits a b borrow := by
  have twice : 2 ^ (bits + 1) * turns = 2 ^ bits * (2 * turns) := by
    rw [Nat.pow_succ, Nat.mul_assoc]
  have carry := carryOut_difference (is.trans (congrArg (a + ·) twice)) small
  have sum := xor_sum_bit bits difference b small
  have high : (a + 2 ^ bits * (2 * turns)) / 2 ^ bits = a / 2 ^ bits + 2 * turns :=
    add_mul_div_left _ _ (Nat.two_pow_pos bits)
  rw [← carry, ← sum, is, twice, Nat.xor_assoc, xor_bit, Nat.xor_assoc, xor_bit,
    shiftRight_xor_distrib, shiftRight_xor_distrib, add_mod, xor_mod_two_eq,
    ← add_mod, add_mod (difference >>> bits), xor_mod_two_eq, ← add_mod]
  omega

theorem difference_bit (is : difference + b + borrow = a + 2 ^ (bits + 1) * turns)
    (left : a < 2 ^ bits) (right : b < 2 ^ bits) (small : borrow ≤ 1) :
    (difference >>> bits) &&& 1 = borrowOut bits a b borrow := by
  have xor := xor_difference_bit is small
  have none : (a ^^^ b) >>> bits = 0 := by
    rw [shiftRight_eq_div_pow]
    exact div_eq_of_lt (xor_lt_two_pow left right)
  rw [xor_bit, none, Nat.zero_add] at xor
  rw [and_one_is_mod]
  exact xor

end Tlib.Library.CarryBits
