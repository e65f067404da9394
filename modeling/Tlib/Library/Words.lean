import Mathlib.Data.Nat.Bitwise

/-!
Contract: arithmetic of 32-bit words that are kept as natural numbers.

Owns: sums and differences that wrap around, shifts, and the fields of a word.
-/

namespace Tlib.Library.Words

open Nat

@[irreducible] def add32 (a b : Nat) : Nat := (a + b) % 2 ^ 32

@[irreducible] def sub32 (a b : Nat) : Nat := (a + (2 ^ 32 - b % 2 ^ 32)) % 2 ^ 32

def mul32 (a b : Nat) : Nat := a * b % 2 ^ 32

def shl32 (a count : Nat) : Nat := a * 2 ^ count % 2 ^ 32

/-- The shift to the right that repeats the sign bit. -/
def sar32 (a count : Nat) : Nat :=
  if a < 2 ^ 31 then a / 2 ^ count else 2 ^ 32 - 1 - (2 ^ 32 - 1 - a) / 2 ^ count

/-- A field of bits, moved to the lowest place. -/
def extract (a start length : Nat) : Nat := a / 2 ^ start % 2 ^ length

def deposit (a field start length : Nat) : Nat :=
  a % 2 ^ start + 2 ^ start * (field % 2 ^ length) +
    2 ^ (start + length) * (a / 2 ^ (start + length))

def signed8 (value : Nat) : Nat := if value % 2 ^ 8 < 2 ^ 7 then value % 2 ^ 8
  else 2 ^ 32 - 2 ^ 8 + value % 2 ^ 8

def signed16 (value : Nat) : Nat := if value % 2 ^ 16 < 2 ^ 15 then value % 2 ^ 16
  else 2 ^ 32 - 2 ^ 16 + value % 2 ^ 16

theorem and_low_byte (a : Nat) : a &&& 0xFF = a % 256 := and_two_pow_sub_one_eq_mod a 8

theorem and_low_word (a : Nat) : a &&& 0xFFFF = a % 65536 := and_two_pow_sub_one_eq_mod a 16

theorem extract_lt (a start length : Nat) : extract a start length < 2 ^ length :=
  mod_lt _ (Nat.two_pow_pos length)

theorem deposit_above {low start : Nat} (high field length : Nat) (less : low < 2 ^ start) :
    deposit (low + 2 ^ start * high) field start length =
      (low + 2 ^ start * (field % 2 ^ length)) + 2 ^ (start + length) * (high / 2 ^ length) := by
  have rest : (low + 2 ^ start * high) % 2 ^ start = low := by
    rw [add_mul_mod_self_left, mod_eq_of_lt less]
  have quotient : (low + 2 ^ start * high) / 2 ^ (start + length) = high / 2 ^ length := by
    rw [Nat.pow_add, ← Nat.div_div_eq_div_mul, add_mul_div_left _ _ (Nat.two_pow_pos start),
      div_eq_of_lt less, Nat.zero_add]
  unfold deposit
  rw [rest, quotient]

theorem or_lt_two_pow {a b bits : Nat} (left : a < 2 ^ bits) (right : b < 2 ^ bits) :
    a ||| b < 2 ^ bits := Nat.or_lt_two_pow left right

theorem complement_div {n k y : Nat} (fits : k ≤ n) (small : y < 2 ^ n) :
    (2 ^ n - 1 - y) / 2 ^ k = 2 ^ (n - k) - 1 - y / 2 ^ k := by
  have whole : 2 ^ n = 2 ^ k * 2 ^ (n - k) := by rw [← Nat.pow_add, Nat.add_sub_cancel' fits]
  have quotient := mul_sub_div y (2 ^ k) (2 ^ (n - k)) (whole ▸ small)
  rw [← whole] at quotient
  rw [Nat.sub_sub, Nat.add_comm 1 y, quotient, Nat.sub_sub, Nat.add_comm 1]

theorem sar32_top {a bits room low count : Nat} (width : bits + room = 32) (positive : 0 < bits)
    (below : low ≤ room) (small : a < 2 ^ bits) :
    sar32 (shl32 a room) count / 2 ^ low =
      if a < 2 ^ (bits - 1) then 2 ^ (room - low) * a / 2 ^ count
      else 2 ^ (32 - low) - 1 - (2 ^ (32 - low) - 1 - 2 ^ (room - low) * a) / 2 ^ count := by
  have whole : (2 : Nat) ^ 32 = 2 ^ room * 2 ^ bits := by
    rw [← Nat.pow_add, Nat.add_comm room, width]
  have half : (2 : Nat) ^ 31 = 2 ^ room * 2 ^ (bits - 1) := by
    rw [← Nat.pow_add, show room + (bits - 1) = 31 by omega]
  have less : 2 ^ room * a < 2 ^ 32 := whole ▸ Nat.mul_lt_mul_of_pos_left small (Nat.two_pow_pos room)
  have top : shl32 a room = 2 ^ room * a := by
    rw [shl32, Nat.mul_comm a, mod_eq_of_lt less]
  have sign : 2 ^ room * a < 2 ^ 31 ↔ a < 2 ^ (bits - 1) := by
    rw [half, Nat.mul_lt_mul_left (Nat.two_pow_pos room)]
  have split : 2 ^ room * a = 2 ^ low * (2 ^ (room - low) * a) := by
    rw [← Nat.mul_assoc, ← Nat.pow_add, Nat.add_sub_cancel' below]
  have quotient : 2 ^ room * a / 2 ^ low = 2 ^ (room - low) * a := by
    rw [split, Nat.mul_div_cancel_left _ (Nat.two_pow_pos low)]
  rw [sar32, top]
  simp only [sign]
  split_ifs with negative
  · rw [Nat.div_right_comm, quotient]
  · have less' : (2 ^ 32 - 1 - 2 ^ room * a) / 2 ^ count < 2 ^ 32 :=
      (Nat.div_le_self _ _).trans_lt (by omega)
    rw [complement_div (by omega) less', Nat.div_right_comm, complement_div (by omega) less, quotient]

end Tlib.Library.Words
