import Tlib.Library.FixedPoint
import Tlib.Riscv.VectorMultiply

/-!
Contract: the fixed-point instructions of the vector unit, for one element.

Owns: the functions and macros of `vector_helper_template.h` that round and saturate, and what the
compiler may make of a shift that is too wide.
-/

namespace Tlib.Riscv.Vector

open Tlib.Library.CIntegers BitVec Bool Int
open Tlib.Library.FixedPoint

variable {n w : Nat}

/-- What the compiler makes of `1 << k` for an `int` when `k` is not below its width. -/
abbrev WideShift := Nat → BitVec 32

/-- `((DATA_TYPE)1 << k) - 1`; for 128 bits the one is an `int`. -/
def roundingMask (H : WideShift) (w k : Nat) : BitVec (promotedWidth w) :=
  if w = 128 then ((if k < 32 then (1 : BitVec 32) <<< k else H k) - 1).signExtend (promotedWidth w)
  else lowMask w k

/-- `(v >> k) & 0b1` -/
def roundingBit (signed : Bool) (v : BitVec w) (k : Nat) : Bool :=
  (shiftRight signed (promote signed v) k).getLsbD 0

section Rounding

variable (H : WideShift)

/-- The value of `r`. -/
def roundingIncrement (signed : Bool) (v : BitVec w) (d : Nat) (rm : BitVec 2) : Bool :=
  match rm.toNat with
  | 0 => roundingBit signed v (d - 1)
  | 1 =>
    roundingBit signed v (d - 1) && (roundingBit signed v d ||
        decide (1 < d) && decide (promote signed v &&& roundingMask H w (d - 1) ≠ 0))
  | 2 => false
  | _ => !roundingBit signed v d && decide (promote signed v &&& roundingMask H w d ≠ 0)

/-- `roundoff_u` and `roundoff_i` -/
def roundoff (signed : Bool) (v : BitVec w) (d : Nat) (rm : BitVec 2) : BitVec w :=
  if d = 0 then v
  else assign w (shiftRight signed (promote signed v) d +
    ofBool (promotedWidth w) (roundingIncrement H signed v d rm))

end Rounding

/-- `clipto_u` and `clipto_i`, with the flag that they raise. -/
def clipto (signed : Bool) (val : BitVec (2 * n)) : BitVec n × Bool :=
  if signed ∧ value signed val < least signed n then (BitVec.ofInt n (least signed n), true)
  else if greatest signed n < value signed val then (BitVec.ofInt n (greatest signed n), true)
  else (assign n val, false)

def smax (n : Nat) : BitVec (promotedWidth n) :=
  ~~~((0 : BitVec (promotedWidth n)) ||| (1 : BitVec (promotedWidth n)) <<< (n - 1))

/-- `SMAX(typeof(a)) + (a < 0)`, assigned to a variable of the type of `a`. -/
def satValue (a : BitVec n) : BitVec n :=
  assign n (smax n + ofBool (promotedWidth n) (value true a < 0))

def vopSaddu (a b : BitVec n) : BitVec n × Bool :=
  let ab := assign n (promote false a + promote false b)
  let sat := decide (value false ab < value false a)
  (if sat then allOnes n else ab, sat)

def vopSadd (a b : BitVec n) : BitVec n × Bool :=
  let sat := decide (value true a < 0) !=
    decide (value true (promote true (satValue a) - promote true a) < value true (promote true b))
  (if sat then satValue a else assign n (promote true a + promote true b), sat)

def vopSsubu (a b : BitVec n) : BitVec n × Bool :=
  let sat := decide (value false a < value false b)
  (if sat then 0 else assign n (promote false a - promote false b), sat)

def vopSsub (a b : BitVec n) : BitVec n × Bool :=
  let result := assign n (promote true a - promote true b)
  let a := satValue a
  let sat := decide (value true ((promote true a ^^^ promote true b) &&&
    (promote true a ^^^ promote true result)) < 0)
  (if sat then a else result, sat)

inductive FixedOp where
  | vssrl
  | vssra
  | vnclipu
  | vnclip
  | vaaddu
  | vaadd
  | vasubu
  | vasub
  | vsmul
  | vsaddu
  | vsadd
  | vssubu
  | vssub
  deriving DecidableEq, Repr

namespace FixedOp

/-- The width of the elements of `vs2`. -/
def sourceWidth : FixedOp → Nat → Nat
  | vnclipu, n => 2 * n
  | vnclip, n => 2 * n
  | _, n => n

def wideSum (signed : Bool) (a b : BitVec n) : BitVec (2 * n) :=
  assign (2 * n) (promote signed (widen signed a) + promote signed (widen signed b))

def wideDifference (signed : Bool) (a b : BitVec n) : BitVec (2 * n) :=
  assign (2 * n) (promote signed (widen signed a) - promote signed (widen signed b))

def wideProduct (a b : BitVec n) : BitVec (2 * n) :=
  assign (2 * n) (promote true (widen true a) * promote true (widen true b))

/-- An element of `vd`, and whether it saturates. -/
def outcome (H : WideShift) (rm : BitVec 2) : (op : FixedOp) → BitVec (op.sourceWidth n) → BitVec n →
    BitVec n × Bool
  | vssrl, (a : BitVec n), b => (roundoff H false a (b.toNat &&& (n - 1)) rm, false)
  | vssra, (a : BitVec n), b => (roundoff H true a (b.toNat &&& (n - 1)) rm, false)
  | vnclipu, (a : BitVec (2 * n)), b =>
    clipto false (roundoff H false a (b.toNat &&& (2 * n - 1)) rm)
  | vnclip, (a : BitVec (2 * n)), b =>
    clipto true (roundoff H true a (b.toNat &&& (2 * n - 1)) rm)
  | vaaddu, (a : BitVec n), b => (assign n (roundoff H false (wideSum false a b) 1 rm), false)
  | vaadd, (a : BitVec n), b => (assign n (roundoff H true (wideSum true a b) 1 rm), false)
  | vasubu, (a : BitVec n), b =>
    (assign n (roundoff H false (wideDifference false a b) 1 rm), false)
  | vasub, (a : BitVec n), b => (assign n (roundoff H true (wideDifference true a b) 1 rm), false)
  | vsmul, (a : BitVec n), b => clipto true (roundoff H true (wideProduct a b) (n - 1) rm)
  | vsaddu, (a : BitVec n), b => vopSaddu a b
  | vsadd, (a : BitVec n), b => vopSadd a b
  | vssubu, (a : BitVec n), b => vopSsubu a b
  | vssub, (a : BitVec n), b => vopSsub a b

/-- The widths that the instruction has a case for. -/
def Allowed (op : FixedOp) (n : Nat) : Prop :=
  n = 8 ∨ n = 16 ∨ n = 32 ∨ n = 64 ∧ op ≠ vnclipu ∧ op ≠ vnclip

def signed : FixedOp → Bool
  | vssra | vnclip | vaadd | vasub | vsmul | vsadd | vssub => true
  | vssrl | vnclipu | vaaddu | vasubu | vsaddu | vssubu => false

def saturating : FixedOp → Bool
  | vnclipu | vnclip | vsmul | vsaddu | vsadd | vssubu | vssub => true
  | vssrl | vssra | vaaddu | vaadd | vasubu | vasub => false

/-- The rational result, before it is rounded. -/
def exact : (op : FixedOp) → BitVec (op.sourceWidth n) → BitVec n → ℚ
  | vssrl, (a : BitVec n), b => value false a / 2 ^ (b.toNat % n)
  | vssra, (a : BitVec n), b => value true a / 2 ^ (b.toNat % n)
  | vnclipu, (a : BitVec (2 * n)), b => value false a / 2 ^ (b.toNat % (2 * n))
  | vnclip, (a : BitVec (2 * n)), b => value true a / 2 ^ (b.toNat % (2 * n))
  | vaaddu, (a : BitVec n), b => ((value false a + value false b : ℤ) : ℚ) / 2
  | vaadd, (a : BitVec n), b => ((value true a + value true b : ℤ) : ℚ) / 2
  | vasubu, (a : BitVec n), b => ((value false a - value false b : ℤ) : ℚ) / 2
  | vasub, (a : BitVec n), b => ((value true a - value true b : ℤ) : ℚ) / 2
  | vsmul, (a : BitVec n), b => ((value true a * value true b : ℤ) : ℚ) / 2 ^ (n - 1)
  | vsaddu, (a : BitVec n), b => ((value false a + value false b : ℤ) : ℚ)
  | vsadd, (a : BitVec n), b => ((value true a + value true b : ℤ) : ℚ)
  | vssubu, (a : BitVec n), b => ((value false a - value false b : ℤ) : ℚ)
  | vssub, (a : BitVec n), b => ((value true a - value true b : ℤ) : ℚ)

end FixedOp

/-- The mode that `vxrm` prescribes. -/
def modeOf (rm : BitVec 2) : Mode :=
  match rm.toNat with
  | 0 => .nearestUp
  | 1 => .nearestEven
  | 2 => .down
  | _ => .odd

namespace FixedOp

variable (op : FixedOp) (m : Mode) (a : BitVec (op.sourceWidth n)) (b : BitVec n)

def rounded : ℤ := m.round (op.exact a b)

/-- The element that the extension asks for. -/
def expected : BitVec n :=
  BitVec.ofInt n
    (if op.saturating then clip op.signed n (op.rounded m a b) else op.rounded m a b)

def overflows : Bool := op.saturating && !decide (InRange op.signed n (op.rounded m a b))

end FixedOp

section Masks

variable (H : WideShift)

theorem getLsbD_roundingMask {k : Nat} (less : k < w) (full : w ≠ 128 ∨ k ≤ 1) (i : Nat) :
    (roundingMask H w k).getLsbD i = decide (i < k) := by
  have wide := le_promotedWidth w
  unfold roundingMask
  split
  next quad =>
    have count : k < 32 := by omega
    have sign : ((1 : BitVec 32) <<< k - 1).msb = false := by
      rw [msb_eq_getLsbD_last, getLsbD_ones count]
      simp only [decide_eq_false_iff_not]
      omega
    rw [if_pos count, getLsbD_signExtend, sign, getLsbD_ones count]
    by_cases low : i < k
    · simp [show i < promotedWidth w by omega, show i < 32 by omega]
    · simp [low]
  next => exact getLsbD_ones (by omega) i

theorem roundingBit_eq (signed : Bool) (v : BitVec w) (k : Nat) (positive : 0 < w) :
    roundingBit signed v k = decide (value signed v / 2 ^ k % 2 = 1) := by
  have wide := le_promotedWidth w
  unfold roundingBit
  rw [getLsbD_zero_iff signed _ (by omega), value_shiftRight, value_promote]

/-- Some bit of `v` is under the mask. -/
def underMask (signed : Bool) (v : BitVec w) (k : Nat) : Bool :=
  promote signed v &&& roundingMask H w k ≠ 0

theorem underMask_eq (signed : Bool) (v : BitVec w) {k : Nat} (less : k < w)
    (full : w ≠ 128 ∨ k ≤ 1) : underMask H signed v k = decide (value signed v % 2 ^ k ≠ 0) := by
  have wide := le_promotedWidth w
  have zero := and_lowest_eq_zero_iff signed (x := promote signed v)
    (show k ≤ promotedWidth w by omega) (getLsbD_roundingMask H less full)
  rw [value_promote] at zero
  simp only [underMask, ne_eq, zero]

/-- The increment, where `low` and `all` tell what the masks find. -/
def incrementMasked (x : ℤ) (d : ℕ) (low all : Bool) : Mode → Bool
  | .nearestUp => x / 2 ^ (d - 1) % 2 = 1
  | .nearestEven => x / 2 ^ (d - 1) % 2 = 1 && (x / 2 ^ d % 2 = 1 || low)
  | .down => false
  | .odd => x / 2 ^ d % 2 = 0 && all

theorem incrementMasked_full (m : Mode) (x : ℤ) (d : ℕ) :
    incrementMasked x d (decide (x % 2 ^ (d - 1) ≠ 0)) (decide (x % 2 ^ d ≠ 0)) m =
      m.increment x d := by
  cases m <;> rfl

theorem roundingIncrement_eq (signed : Bool) (v : BitVec w) {d : Nat} (less : d < w)
    (rm : BitVec 2) :
    roundingIncrement H signed v d rm = incrementMasked (value signed v) d
      (decide (1 < d) && underMask H signed v (d - 1)) (underMask H signed v d) (modeOf rm) := by
  have bit (k : Nat) := roundingBit_eq signed v k (by omega)
  have even : (!decide (value signed v / 2 ^ d % 2 = 1)) =
      decide (value signed v / 2 ^ d % 2 = 0) := by
    rcases emod_two_eq_zero_or_one (value signed v / 2 ^ d) with zero | one
    · simp [zero]
    · simp [one]
  unfold roundingIncrement modeOf
  rw [bit, bit, even]
  split <;> rfl

theorem inRange_shifted {signed : Bool} {x : ℤ} (wide : 2 ≤ w) (fits : InRange signed w x) {d : ℕ}
    (positive : 0 < d) (r : Bool) :
    InRange signed w (x / 2 ^ d + if r then 1 else 0) := by
  have some : (2 : ℤ) ≤ 2 ^ (w - 1) := by
    calc (2 : ℤ) = 2 ^ 1 := (pow_one 2).symm
      _ ≤ 2 ^ (w - 1) := pow_le_pow_right₀ (by decide) (by omega)
  have power : (2 : ℤ) ^ w = 2 * 2 ^ (w - 1) := by
    rw [← pow_succ', Nat.sub_add_cancel (by omega)]
  have place : (0 : ℤ) < 2 ^ d := by positivity
  have halves : x / 2 ^ d = x / 2 / 2 ^ (d - 1) := by
    rw [← Nat.sub_add_cancel positive, pow_succ', ediv_ediv_of_nonneg (by decide),
      Nat.add_sub_cancel]
  unfold InRange least greatest at fits ⊢
  have bound : min x 0 ≤ x / 2 ^ d ∧ x / 2 ^ d ≤ max (x / 2) (-1) := by
    rcases lt_or_ge x 0 with negative | nonneg
    · have below := ediv_neg_of_neg_of_pos negative place
      have above : x ≤ x / 2 ^ d := by
        apply Int.le_ediv_of_mul_le place
        nlinarith
      omega
    · have half : 0 ≤ x / 2 := by omega
      have small := ediv_le_self (2 ^ (d - 1)) half
      have sign := ediv_nonneg nonneg place.le
      omega
  generalize x / 2 ^ d = q at bound ⊢
  cases signed with
  | true =>
    simp only [if_true] at fits ⊢
    cases r <;> simp <;> omega
  | false =>
    simp only [false_eq_true, if_false] at fits ⊢
    cases r <;> simp <;> omega

theorem value_roundoff (signed : Bool) (v : BitVec w) {d : Nat} (wide : 2 ≤ w) (positive : 0 < d)
    (less : d < w) (rm : BitVec 2) :
    value signed (roundoff H signed v d rm) = value signed v / 2 ^ d +
        if incrementMasked (value signed v) d (decide (1 < d) && underMask H signed v (d - 1))
            (underMask H signed v d) (modeOf rm)
          then 1 else 0 := by
  have le := le_promotedWidth w
  have one (r : Bool) : ofBool w r = BitVec.ofInt w (if r then 1 else 0) := by
    cases r <;> rfl
  unfold roundoff
  rw [if_neg (by omega), assign_add le, assign_ofBool le, one, assign_eq_ofInt signed le,
    ← ofInt_add, value_shiftRight, value_promote, roundingIncrement_eq H signed v less rm]
  apply value_ofInt (by omega)
  exact inRange_shifted wide (inRange_value signed v) positive _

theorem roundoff_exact (signed : Bool) (v : BitVec w) {d : Nat} (wide : 2 ≤ w) (less : d < w)
    (full : w ≠ 128 ∨ d ≤ 1) (rm : BitVec 2) :
    value signed (roundoff H signed v d rm) =
      (modeOf rm).round ((value signed v : ℚ) / 2 ^ d) := by
  rcases Nat.eq_zero_or_pos d with rfl | positive
  · rw [pow_zero, div_one, round_intCast]
    rfl
  · have several : (decide (1 < d) && decide (value signed v % 2 ^ (d - 1) ≠ 0)) =
        decide (value signed v % 2 ^ (d - 1) ≠ 0) := by
      by_cases one : d = 1
      · simp [one]
      · simp [show 1 < d by omega]
    rw [round_shifted _ _ positive, value_roundoff H signed v wide positive less rm,
      underMask_eq H signed v (by omega) (by omega), underMask_eq H signed v less full, several,
      incrementMasked_full]

theorem ofInt_eq_iff {x y : ℤ} : BitVec.ofInt n x = BitVec.ofInt n y ↔ x % 2 ^ n = y % 2 ^ n := by
  rw [← toNat_inj, toNat_ofInt, toNat_ofInt]
  have same : (x % ((2 ^ n : ℕ) : ℤ)).toNat = (y % ((2 ^ n : ℕ) : ℤ)).toNat ↔
      x % ((2 ^ n : ℕ) : ℤ) = y % ((2 ^ n : ℕ) : ℤ) := by
    omega
  rw [same]
  rfl

theorem increment_half_congr {x y : ℤ} (same : x % 4 = y % 4) (m : Mode) :
    m.increment x 1 = m.increment y 1 := by
  have low : x % 2 = y % 2 := by omega
  have high : x / 2 % 2 = y / 2 % 2 := by omega
  cases m with
  | nearestUp => simp [Mode.increment, low]
  | nearestEven => simp [Mode.increment, low, high]
  | down => rfl
  | odd => simp [Mode.increment, low, high]

theorem average_exact (signed : Bool) (positive : 0 < n) (x : BitVec (2 * n)) {z : ℤ}
    (number : x = BitVec.ofInt (2 * n) z) (rm : BitVec 2) :
    assign n (roundoff H signed x 1 rm) = BitVec.ofInt n ((modeOf rm).round ((z : ℚ) / 2)) := by
  have known : value signed x % 2 ^ (2 * n) = z % 2 ^ (2 * n) := by
    rw [← ofInt_eq_iff, ofInt_value, number]
  obtain ⟨k, product⟩ := dvd_of_emod_eq_zero (emod_eq_emod_iff_emod_sub_eq_zero.mp known)
  have wide : (2 : ℤ) ^ (2 * n) = 2 * (2 ^ n * 2 ^ (n - 1)) := by
    rw [← pow_add, ← pow_succ']
    congr 1
    omega
  have even : (2 : ℤ) ^ n = 2 * 2 ^ (n - 1) := by
    rw [← pow_succ', Nat.sub_add_cancel positive]
  have sum : value signed x = z + 2 * (2 ^ n * (2 ^ (n - 1) * k)) := by
    rw [wide] at product
    linarith
  have four : value signed x % 4 = z % 4 := by
    rw [sum, even, show 2 * (2 * 2 ^ (n - 1) * (2 ^ (n - 1) * k)) =
      4 * (2 ^ (n - 1) * (2 ^ (n - 1) * k)) by ring, add_mul_emod_self_left]
  have halves : value signed x / 2 = z / 2 + 2 ^ n * (2 ^ (n - 1) * k) := by
    rw [sum, add_mul_ediv_left _ _ (by decide)]
  have narrow := round_shifted (modeOf rm) z (show 0 < 1 by decide)
  rw [pow_one, pow_one] at narrow
  rw [assign_eq_ofInt signed (show n ≤ 2 * n by omega),
    roundoff_exact H signed x (by omega) (by omega) (Or.inr (Nat.le_refl 1)) rm,
    round_shifted _ _ (by decide), narrow, pow_one, increment_half_congr four, halves,
    ofInt_eq_iff, show z / 2 + 2 ^ n * (2 ^ (n - 1) * k) +
      (if (modeOf rm).increment z 1 then 1 else 0) =
        z / 2 + (if (modeOf rm).increment z 1 then 1 else 0) + 2 ^ n * (2 ^ (n - 1) * k) by ring,
    add_mul_emod_self_left]

end Masks

theorem clipto_eq (signed : Bool) (val : BitVec (2 * n)) : clipto signed val =
      (BitVec.ofInt n (clip signed n (value signed val)),
        !decide (InRange signed n (value signed val))) := by
  have unsigned : signed = false → ¬value signed val < least signed n := by
    intro no
    have range := inRange_value signed val
    unfold InRange least at range
    rw [no] at range ⊢
    simp only [false_eq_true, if_false] at range
    unfold least
    simp only [false_eq_true, if_false]
    omega
  have order : least signed n ≤ greatest signed n := by
    have some : (1 : ℤ) ≤ 2 ^ (n - 1) := one_le_pow₀ (by decide)
    have all : (1 : ℤ) ≤ 2 ^ n := one_le_pow₀ (by decide)
    unfold least greatest
    split <;> omega
  unfold clipto clip InRange
  by_cases below : value signed val < least signed n
  · have yes : signed = true := by
      by_contra no
      exact unsigned (eq_false_iff.mpr no) below
    rw [if_pos ⟨yes, below⟩, min_eq_left (by omega), max_eq_left (by omega)]
    simp [show ¬least signed n ≤ value signed val by omega]
  · rw [if_neg (fun both => below both.2)]
    by_cases above : greatest signed n < value signed val
    · rw [if_pos above, min_eq_right (by omega), max_eq_right order]
      simp [show ¬value signed val ≤ greatest signed n by omega]
    · rw [if_neg above, min_eq_left (by omega), max_eq_right (by omega),
        assign_eq_ofInt signed (show n ≤ 2 * n by omega)]
      simp [show least signed n ≤ value signed val by omega,
        show value signed val ≤ greatest signed n by omega]

theorem ofInt_sum (signed : Bool) (a b : BitVec n) :
    assign n (promote signed a + promote signed b) =
      BitVec.ofInt n (value signed a + value signed b) := by
  rw [assign_add (le_promotedWidth n), assign_promote, assign_promote, ofInt_add,
    ofInt_value, ofInt_value]

theorem promote_sub (signed : Bool) (a b : BitVec n) : promote signed a - promote signed b =
      BitVec.ofInt (promotedWidth n) (value signed a - value signed b) := by
  rw [Int.sub_eq_add_neg, ofInt_add, ofInt_neg, ← value_promote signed a,
    ← value_promote signed b, ofInt_value, ofInt_value, BitVec.sub_eq_add_neg]

theorem ofInt_difference (signed : Bool) (a b : BitVec n) :
    assign n (promote signed a - promote signed b) =
      BitVec.ofInt n (value signed a - value signed b) := by
  have le := le_promotedWidth n
  rw [BitVec.sub_eq_add_neg, assign_add le, assign_neg le, assign_promote, assign_promote,
    Int.sub_eq_add_neg, ofInt_add, ofInt_neg, ofInt_value, ofInt_value]

theorem ofInt_add_two_pow (z : ℤ) : BitVec.ofInt n (z + 2 ^ n) = BitVec.ofInt n z := by
  rw [ofInt_eq_iff, add_emod_right]

theorem two_pow_eq (positive : 0 < n) : (2 : ℤ) ^ n = 2 * 2 ^ (n - 1) := by
  rw [← pow_succ', Nat.sub_add_cancel positive]

theorem allOnes_eq_ofInt : allOnes n = BitVec.ofInt n (greatest false n) := by
  have minus : greatest false n = -1 + 2 ^ n := by
    unfold greatest
    simp only [false_eq_true, if_false]
    ring
  rw [minus, ofInt_add_two_pow, ofInt_neg, ← neg_one_eq_allOnes]
  rfl

theorem vopSaddu_eq (positive : 0 < n) (a b : BitVec n) : vopSaddu a b =
      (BitVec.ofInt n (clip false n (value false a + value false b)),
        !decide (InRange false n (value false a + value false b))) := by
  have left := inRange_value false a
  have right := inRange_value false b
  unfold vopSaddu
  simp only [ofInt_sum]
  generalize value false a = x at left ⊢
  generalize value false b = y at right ⊢
  by_cases fits : InRange false n (x + y)
  · have above : ¬x + y < x := by
      have nonneg := right.1
      unfold least at nonneg
      simp only [false_eq_true, if_false] at nonneg
      omega
    rw [value_ofInt positive fits, clip_of_inRange fits]
    simp [above, fits]
  · have wrapped : BitVec.ofInt n (x + y) = BitVec.ofInt n (x + y - 2 ^ n) := by
      rw [← ofInt_add_two_pow (x + y - 2 ^ n), Int.sub_add_cancel]
    have small : InRange false n (x + y - 2 ^ n) ∧ x + y - 2 ^ n < x ∧
        greatest false n < x + y := by
      unfold InRange least greatest at left right fits ⊢
      simp only [false_eq_true, if_false] at left right fits ⊢
      omega
    have top : clip false n (x + y) = greatest false n := by
      have order := left.1.trans left.2
      unfold clip
      rw [min_eq_right small.2.2.le, max_eq_right order]
    rw [wrapped, value_ofInt positive small.1, top, ← allOnes_eq_ofInt]
    simp [small.2.1, fits]

theorem vopSsubu_eq (a b : BitVec n) : vopSsubu a b =
      (BitVec.ofInt n (clip false n (value false a - value false b)),
        !decide (InRange false n (value false a - value false b))) := by
  have left := inRange_value false a
  have right := inRange_value false b
  unfold vopSsubu
  simp only [ofInt_difference]
  generalize value false a = x at left ⊢
  generalize value false b = y at right ⊢
  have fits_iff : InRange false n (x - y) ↔ ¬x < y := by
    unfold InRange least greatest at left right ⊢
    simp only [false_eq_true, if_false] at left right ⊢
    omega
  by_cases below : x < y
  · have bottom : clip false n (x - y) = 0 := by
      unfold clip InRange least greatest at *
      simp only [false_eq_true, if_false] at left right ⊢
      omega
    rw [bottom]
    simp [below, fits_iff]
  · rw [clip_of_inRange (fits_iff.mpr below)]
    simp [below, fits_iff]

def limit (a : BitVec n) : ℤ := if value true a < 0 then least true n else greatest true n

theorem satValue_eq (sew : n = 8 ∨ n = 16 ∨ n = 32 ∨ n = 64) (a : BitVec n) :
    satValue a = BitVec.ofInt n (limit a) := by
  unfold satValue limit
  by_cases negative : value true a < 0
  · simp only [negative, decide_true, if_true]
    rcases sew with rfl | rfl | rfl | rfl <;> decide
  · simp only [negative, decide_false, if_false]
    rcases sew with rfl | rfl | rfl | rfl <;> decide

theorem inRange_limit (a : BitVec n) : InRange true n (limit a) := by
  have range := inRange_value true a
  have order := range.1.trans range.2
  unfold limit
  split
  · exact ⟨Int.le_refl _, order⟩
  · exact ⟨order, Int.le_refl _⟩

theorem inRange_mono {z : ℤ} (le : n ≤ w) (fits : InRange true n z) : InRange true w z := by
  have powers : (2 : ℤ) ^ (n - 1) ≤ 2 ^ (w - 1) := pow_le_pow_right₀ (by decide) (by omega)
  unfold InRange least greatest at fits ⊢
  simp only [if_true] at fits ⊢
  omega

theorem value_limit (positive : 0 < n) (a : BitVec n) :
    value true (BitVec.ofInt n (limit a)) = limit a :=
  value_ofInt positive (inRange_limit a)

theorem value_distance (positive : 0 < n) (a : BitVec n) :
    value true (promote true (BitVec.ofInt n (limit a)) - promote true a) =
      limit a - value true a := by
  have le := le_promotedWidth n
  have range := inRange_value true a
  rw [promote_sub, value_limit positive]
  apply value_ofInt (by omega)
  apply inRange_mono le
  unfold limit InRange least greatest at range ⊢
  simp only [if_true] at range ⊢
  split <;> omega

theorem vopSadd_eq (sew : n = 8 ∨ n = 16 ∨ n = 32 ∨ n = 64) (a b : BitVec n) : vopSadd a b =
      (BitVec.ofInt n (clip true n (value true a + value true b)),
        !decide (InRange true n (value true a + value true b)) ||
          decide (value true a < 0 ∧ value true a + value true b = least true n)) := by
  have positive : 0 < n := by omega
  have left := inRange_value true a
  have right := inRange_value true b
  unfold vopSadd
  simp only [satValue_eq sew, value_distance positive, value_promote, ofInt_sum]
  unfold limit
  generalize value true a = x at left ⊢
  generalize value true b = y at right ⊢
  have fits_iff : InRange true n (x + y) ↔ least true n ≤ x + y ∧ x + y ≤ greatest true n := Iff.rfl
  have bounds : least true n < 0 ∧ 0 ≤ greatest true n := by
    have some : (1 : ℤ) ≤ 2 ^ (n - 1) := one_le_pow₀ (by decide)
    unfold least greatest
    simp only [if_true]
    omega
  obtain ⟨left_ge, left_le⟩ := left
  obtain ⟨right_ge, right_le⟩ := right
  unfold clip
  by_cases negative : x < 0
  · by_cases flagged : x + y ≤ least true n
    · have clipped : max (least true n) (min (x + y) (greatest true n)) = least true n := by omega
      rw [clipped]
      simp [negative, fits_iff, show ¬least true n - x < y by omega]
      omega
    · have exact_ : max (least true n) (min (x + y) (greatest true n)) = x + y := by omega
      rw [exact_]
      simp [negative, fits_iff, show least true n - x < y by omega]
      omega
  · by_cases flagged : greatest true n < x + y
    · have clipped : max (least true n) (min (x + y) (greatest true n)) = greatest true n := by
        omega
      rw [clipped]
      simp [negative, fits_iff, show greatest true n - x < y by omega]
      omega
    · have exact_ : max (least true n) (min (x + y) (greatest true n)) = x + y := by omega
      rw [exact_]
      simp [negative, fits_iff, show ¬greatest true n - x < y by omega]
      omega

theorem msb_eq_negative (x : BitVec n) : x.msb = decide (value true x < 0) := msb_eq_toInt

theorem vopSsub_eq (sew : n = 8 ∨ n = 16 ∨ n = 32 ∨ n = 64) (a b : BitVec n) : vopSsub a b =
      (BitVec.ofInt n (clip true n (value true a - value true b)),
        !decide (InRange true n (value true a - value true b))) := by
  have positive : 0 < n := by omega
  have left := inRange_value true a
  have right := inRange_value true b
  unfold vopSsub
  simp only [ofInt_difference, satValue_eq sew, ← msb_eq_negative, msb_and, msb_xor]
  simp only [msb_eq_negative, value_promote, value_limit positive]
  have side : limit a < 0 ↔ value true a < 0 := by
    have some : (1 : ℤ) ≤ 2 ^ (n - 1) := one_le_pow₀ (by decide)
    unfold limit least greatest
    simp only [if_true]
    split <;> omega
  unfold limit at side ⊢
  generalize value true a = x at left side ⊢
  generalize value true b = y at right ⊢
  have fits_iff : InRange true n (x - y) ↔ least true n ≤ x - y ∧ x - y ≤ greatest true n := Iff.rfl
  have apart : greatest true n = -least true n - 1 ∧ 0 < -least true n ∧
      (2 : ℤ) ^ n = -2 * least true n := by
    have some : (1 : ℤ) ≤ 2 ^ (n - 1) := one_le_pow₀ (by decide)
    have power := two_pow_eq positive
    unfold least greatest
    simp only [if_true]
    omega
  obtain ⟨left_ge, left_le⟩ := left
  obtain ⟨right_ge, right_le⟩ := right
  by_cases fits : InRange true n (x - y)
  · rw [value_ofInt positive fits, clip_of_inRange fits]
    have flag : ((decide (x < 0) != decide (y < 0)) && (decide (x < 0) != decide (x - y < 0))) =
        false := by
      by_cases first : x < 0 <;> by_cases second : y < 0 <;> simp [first, second] <;> omega
    simp only [side, flag]
    simp [fits]
  · have outside : ¬(least true n ≤ x - y ∧ x - y ≤ greatest true n) := fits
    have within {z : ℤ} (bounds : least true n ≤ z ∧ z ≤ greatest true n) :
        value true (BitVec.ofInt n z) = z := value_ofInt positive bounds
    unfold clip
    by_cases negative : x < 0
    · have wrapped : value true (BitVec.ofInt n (x - y)) = x - y + 2 ^ n := by
        rw [← ofInt_add_two_pow, within (by omega)]
      have clipped : max (least true n) (min (x - y) (greatest true n)) = least true n := by omega
      rw [wrapped, clipped]
      simp only [side]
      simp [negative, fits, show ¬y < 0 by omega, show ¬x - y + 2 ^ n < 0 by omega]
    · have wrapped : value true (BitVec.ofInt n (x - y)) = x - y - 2 ^ n := by
        rw [← Int.sub_add_cancel (x - y) (2 ^ n), ofInt_add_two_pow, within (by omega),
          Int.sub_add_cancel]
      have clipped : max (least true n) (min (x - y) (greatest true n)) = greatest true n := by
        omega
      rw [wrapped, clipped]
      simp only [side]
      simp [negative, fits, show y < 0 by omega, show x - y - 2 ^ n < 0 by omega]

end Tlib.Riscv.Vector
