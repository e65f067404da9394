import Mathlib.Data.Rat.Floor
import Mathlib.Tactic.Linarith
import Mathlib.Tactic.Ring
import Tlib.Library.BinaryFloats

/-!
Contract: rounding of binary fixed-point numbers.

Owns: four rounding modes on rational numbers, and the increment by which an integer is rounded when
low bits are shifted out.
-/

namespace Tlib.Library.FixedPoint

open Tlib.Library.BinaryFloats Int

inductive Mode where
  | nearestUp
  /-- To the nearest, and to the even one from the middle. -/
  | nearestEven
  | down
  /-- To the odd neighbour, unless the number is an integer. -/
  | odd
  deriving DecidableEq, Repr

def Mode.round : Mode → ℚ → ℤ
  | .nearestUp, x => ⌊x + 1 / 2⌋
  | .nearestEven, x => BinaryFloats.nearestEven x
  | .down, x => ⌊x⌋
  | .odd, x => if (⌊x⌋ : ℚ) = x ∨ ⌊x⌋ % 2 = 1 then ⌊x⌋ else ⌊x⌋ + 1

/-- One is added to the number without its `d` fraction bits. -/
def Mode.increment (x : ℤ) (d : ℕ) : Mode → Bool
  | .nearestUp => x / 2 ^ (d - 1) % 2 = 1
  | .nearestEven => x / 2 ^ (d - 1) % 2 = 1 && (x / 2 ^ d % 2 = 1 || x % 2 ^ (d - 1) ≠ 0)
  | .down => false
  | .odd => x / 2 ^ d % 2 = 0 && x % 2 ^ d ≠ 0

structure Parts (x H q : ℤ) (first rest : ℤ) : Prop where
  number : x = 2 * H * q + H * first + rest
  bit : first = 0 ∨ first = 1
  rest_nonneg : 0 ≤ rest
  rest_lt : rest < H

theorem exists_parts (x : ℤ) {H : ℤ} (positive : 0 < H) :
    ∃ first rest, Parts x H (x / (2 * H)) first rest ∧ x / H % 2 = first ∧ x % H = rest := by
  refine ⟨x / H % 2, x % H, ⟨?_, ?_, ?_, ?_⟩, rfl, rfl⟩
  · have outer := mul_ediv_add_emod x H
    have inner := mul_ediv_add_emod (x / H) 2
    rw [show x / (2 * H) = x / H / 2 by rw [mul_comm, ediv_ediv_of_nonneg positive.le]]
    calc x = H * (x / H) + x % H := outer.symm
      _ = H * (2 * (x / H / 2) + x / H % 2) + x % H := by rw [inner]
      _ = _ := by ring
  · exact emod_two_eq_zero_or_one (x / H)
  · exact emod_nonneg x positive.ne'
  · exact emod_lt_of_pos x positive

section

variable {x H q first rest : ℤ}

theorem Parts.quotient (parts : Parts x H q first rest) (positive : 0 < H) :
    (x : ℚ) / (2 * H) = q + (first / 2 + rest / (2 * H)) := by
  rw [parts.number]
  push_cast
  field_simp
  ring

theorem Parts.rest_range (parts : Parts x H q first rest) (positive : 0 < H) :
    0 ≤ (rest : ℚ) / (2 * H) ∧ (rest : ℚ) / (2 * H) < 1 / 2 := by
  have place : (0 : ℚ) < 2 * H := by exact_mod_cast (by omega : 0 < 2 * H)
  have nonneg : (0 : ℚ) ≤ rest := by exact_mod_cast parts.rest_nonneg
  have less : (rest : ℚ) < H := by exact_mod_cast parts.rest_lt
  refine ⟨div_nonneg nonneg place.le, ?_⟩
  rw [div_lt_iff₀ place]
  linarith

theorem Parts.rest_eq_zero_iff (positive : 0 < H) : (rest : ℚ) / (2 * H) = 0 ↔ rest = 0 := by
  have nonzero : (2 * H : ℚ) ≠ 0 := by exact_mod_cast (by omega : 2 * H ≠ 0)
  rw [div_eq_zero_iff, or_iff_left nonzero, cast_eq_zero]

section

variable (parts : Parts x H q first rest) (positive : 0 < H)

include parts positive

theorem Parts.floor : ⌊(x : ℚ) / (2 * H)⌋ = q := by
  obtain ⟨nonneg, less⟩ := parts.rest_range positive
  have small : (first : ℚ) = 0 ∨ (first : ℚ) = 1 := by exact_mod_cast parts.bit
  rw [parts.quotient positive, floor_eq_iff]
  rcases small with zero | one
  · rw [zero]
    constructor <;> linarith
  · rw [one]
    constructor <;> linarith

theorem Parts.emod_eq_zero_iff : x % (2 * H) = 0 ↔ first = 0 ∧ rest = 0 := by
  have nonneg := parts.rest_nonneg
  have less := parts.rest_lt
  have remainder : x % (2 * H) = H * first + rest := by
    rw [parts.number, show 2 * H * q + H * first + rest = H * first + rest + 2 * H * q by ring,
      add_mul_emod_self_left]
    rcases parts.bit with rfl | rfl
    · exact emod_eq_of_lt (by omega) (by omega)
    · exact emod_eq_of_lt (by omega) (by omega)
  rcases parts.bit with rfl | rfl <;> omega

theorem round_nearestUp : ⌊(x : ℚ) / (2 * H) + 1 / 2⌋ = q + first := by
  obtain ⟨nonneg, less⟩ := parts.rest_range positive
  have small : (first : ℚ) = 0 ∨ (first : ℚ) = 1 := by exact_mod_cast parts.bit
  rw [parts.quotient positive, floor_eq_iff]
  push_cast
  rcases small with zero | one
  · rw [zero]
    constructor <;> linarith
  · rw [one]
    constructor <;> linarith

theorem round_nearestEven : BinaryFloats.nearestEven ((x : ℚ) / (2 * H)) =
      q + if first = 1 && (q % 2 = 1 || rest ≠ 0) then 1 else 0 := by
  obtain ⟨nonneg, less⟩ := parts.rest_range positive
  unfold BinaryFloats.nearestEven
  simp only [parts.floor positive]
  rw [parts.quotient positive, add_sub_cancel_left]
  rcases parts.bit with rfl | rfl
  · rw [if_pos (by push_cast; linarith), if_neg (by simp)]
    simp
  · rw [if_neg (by push_cast; linarith)]
    by_cases exact_ : rest = 0
    · rw [if_neg (by rw [exact_]; push_cast; simp)]
      rcases emod_two_eq_zero_or_one q with even | odd
      · simp [exact_, even]
      · simp [odd]
    · have above : 0 < (rest : ℚ) / (2 * H) :=
        lt_of_le_of_ne nonneg fun zero => exact_ ((Parts.rest_eq_zero_iff positive).mp zero.symm)
      rw [if_pos (by push_cast; linarith)]
      simp [exact_]

theorem round_odd : Mode.odd.round ((x : ℚ) / (2 * H)) =
      q + if q % 2 = 0 && x % (2 * H) ≠ 0 then 1 else 0 := by
  have whole : (q : ℚ) = (x : ℚ) / (2 * H) ↔ x % (2 * H) = 0 := by
    rw [parts.emod_eq_zero_iff positive, parts.quotient positive]
    obtain ⟨nonneg, less⟩ := parts.rest_range positive
    rcases parts.bit with rfl | rfl
    · rw [← @Parts.rest_eq_zero_iff H rest positive]
      simp
    · constructor
      · intro same
        linarith
      · rintro ⟨impossible, _⟩
        exact absurd impossible (by decide)
  unfold Mode.round
  simp only [parts.floor positive, whole]
  rcases emod_two_eq_zero_or_one q with even | odd
  · by_cases exact_ : x % (2 * H) = 0
    · simp [exact_]
    · simp [exact_, even]
  · simp [odd]

end

end

theorem round_shifted (m : Mode) (x : ℤ) {d : ℕ} (positive : 0 < d) :
    m.round (x / 2 ^ d) = x / 2 ^ d + if m.increment x d then 1 else 0 := by
  have half : (0 : ℤ) < 2 ^ (d - 1) := by positivity
  have power : (2 : ℤ) ^ d = 2 * 2 ^ (d - 1) := by
    rw [← pow_succ', Nat.sub_add_cancel positive]
  obtain ⟨first, rest, parts, bit, low⟩ := exists_parts x half
  have cast : (x : ℚ) / 2 ^ d = x / (2 * ((2 ^ (d - 1) : ℤ) : ℚ)) := by
    have powers : (2 : ℚ) ^ d = 2 * ((2 ^ (d - 1) : ℤ) : ℚ) := by exact_mod_cast power
    rw [powers]
  rw [cast, power]
  cases m with
  | nearestUp =>
    refine (round_nearestUp parts half).trans ?_
    unfold Mode.increment
    rw [bit]
    rcases parts.bit with zero | one
    · simp [zero]
    · simp [one]
  | nearestEven =>
    refine (round_nearestEven parts half).trans ?_
    unfold Mode.increment
    rw [bit, low, power]
  | down =>
    refine (parts.floor half).trans ?_
    unfold Mode.increment
    simp
  | odd =>
    refine (round_odd parts half).trans ?_
    unfold Mode.increment
    rw [power]

theorem round_intCast (m : Mode) (x : ℤ) : m.round x = x := by
  cases m with
  | nearestUp =>
    have small : ⌊(1 / 2 : ℚ)⌋ = 0 := by norm_num
    exact (floor_intCast_add x (1 / 2)).trans (by rw [small, add_zero])
  | nearestEven => exact nearestEven_intCast x
  | down => exact floor_intCast x
  | odd =>
    have floor : ⌊(x : ℚ)⌋ = x := floor_intCast x
    simp [Mode.round]

end Tlib.Library.FixedPoint
