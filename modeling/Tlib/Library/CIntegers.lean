import Mathlib.Algebra.Order.Ring.Int
import Mathlib.Tactic.Positivity
import Mathlib.Tactic.Ring

/-!
Contract: integer types of C.

Owns: the promotion of the operands. Does not own: which results are undefined; arithmetic wraps
around at the width of its type.
-/

namespace Tlib.Library.CIntegers

open BitVec Int

variable {n w : Nat}

def value (signed : Bool) (x : BitVec n) : Int := if signed then x.toInt else x.toNat

/-- Operands are as wide as an `int` at least. -/
def promotedWidth (n : Nat) : Nat := max n 32

theorem le_promotedWidth (n : Nat) : n ≤ promotedWidth n := Nat.le_max_left n 32

def promote (signed : Bool) (x : BitVec n) : BitVec (promotedWidth n) :=
  if signed then x.signExtend (promotedWidth n) else x.setWidth (promotedWidth n)

def shiftRight (signed : Bool) (x : BitVec w) (count : Nat) : BitVec w :=
  if signed then x.sshiftRight count else x >>> count

def assign (n : Nat) (x : BitVec w) : BitVec n := x.setWidth n

/-- A comparison is an `int`. -/
def ofBool (n : Nat) (b : Bool) : BitVec n := if b then 1 else 0

theorem getLsbD_promote (signed : Bool) (x : BitVec n) {i : Nat} (less : i < n) :
    (promote signed x).getLsbD i = x.getLsbD i := by
  have wide := le_promotedWidth n
  unfold promote
  split
  · rw [getLsbD_signExtend]
    simp [less, show i < promotedWidth n by omega]
  · rw [getLsbD_setWidth]
    simp [show i < promotedWidth n by omega]

theorem getLsbD_shiftRight (signed : Bool) (x : BitVec w) {count i : Nat} (less : count + i < w) :
    (shiftRight signed x count).getLsbD i = x.getLsbD (count + i) := by
  unfold shiftRight
  split
  · rw [getLsbD_sshiftRight]
    simp [show i < w by omega, less]
  · rw [getLsbD_ushiftRight]

@[simp] theorem assign_promote (signed : Bool) (x : BitVec n) : assign n (promote signed x) = x := by
  apply eq_of_getLsbD_eq
  intro i less
  unfold assign
  rw [getLsbD_setWidth, getLsbD_promote signed x less]
  simp [less]

theorem assign_add (le : n ≤ w) (x y : BitVec w) : assign n (x + y) = assign n x + assign n y :=
  setWidth_add x y le

theorem assign_mul (le : n ≤ w) (x y : BitVec w) : assign n (x * y) = assign n x * assign n y :=
  setWidth_mul x y le

theorem assign_neg (le : n ≤ w) (x : BitVec w) : assign n (-x) = -assign n x :=
  setWidth_neg_of_le le

theorem assign_not (le : n ≤ w) (x : BitVec w) : assign n (~~~x) = ~~~assign n x :=
  setWidth_not le

theorem assign_ofBool (le : n ≤ w) (b : Bool) : assign n (ofBool w b) = ofBool n b := by
  unfold assign ofBool
  cases b with
  | false => simp
  | true =>
    apply eq_of_toNat_eq
    have divides : 2 ^ n ∣ 2 ^ w := Nat.pow_dvd_pow 2 le
    simp [Nat.mod_mod_of_dvd _ divides]

theorem ofInt_value (signed : Bool) (x : BitVec n) : BitVec.ofInt n (value signed x) = x := by
  unfold value
  split
  · exact ofInt_toInt
  · rw [ofInt_natCast, BitVec.ofNat_toNat, setWidth_eq]

def least (signed : Bool) (n : Nat) : Int := if signed then -2 ^ (n - 1) else 0

def greatest (signed : Bool) (n : Nat) : Int := if signed then 2 ^ (n - 1) - 1 else 2 ^ n - 1

/-- The number is one of the type. -/
def InRange (signed : Bool) (n : Nat) (z : Int) : Prop := least signed n ≤ z ∧ z ≤ greatest signed n

instance (signed : Bool) (n : Nat) (z : Int) : Decidable (InRange signed n z) :=
  inferInstanceAs (Decidable (_ ∧ _))

/-- The number of the type that is closest. -/
def clip (signed : Bool) (n : Nat) (z : Int) : Int := max (least signed n) (min z (greatest signed n))

theorem clip_of_inRange {signed : Bool} {z : Int} (fits : InRange signed n z) :
    clip signed n z = z := by
  unfold clip
  rw [Int.min_eq_left fits.2, Int.max_eq_right fits.1]

theorem inRange_value (signed : Bool) (x : BitVec n) : InRange signed n (value signed x) := by
  unfold InRange least greatest value
  cases signed with
  | true => exact ⟨le_toInt x, toInt_le⟩
  | false =>
    have less : (x.toNat : Int) < 2 ^ n := by exact_mod_cast x.isLt
    simp only [Bool.false_eq_true, if_false]
    omega

theorem value_ofInt {signed : Bool} {z : Int} (positive : 0 < n) (fits : InRange signed n z) :
    value signed (BitVec.ofInt n z) = z := by
  have power : (2 : Int) ^ n = 2 * 2 ^ (n - 1) := by
    rw [← Int.pow_succ', Nat.sub_add_cancel positive]
  unfold InRange least greatest at fits
  unfold value
  cases signed with
  | true =>
    simp only [if_true] at fits ⊢
    exact toInt_ofInt_eq_self positive (by omega) (by omega)
  | false =>
    simp only [Bool.false_eq_true, if_false] at fits ⊢
    rw [toNat_ofInt, toNat_of_nonneg (emod_nonneg _ (by positivity))]
    push_cast
    exact emod_eq_of_lt fits.1 (by omega)

theorem value_promote (signed : Bool) (x : BitVec n) :
    value signed (promote signed x) = value signed x := by
  have wide := le_promotedWidth n
  unfold value promote
  split
  · exact toInt_signExtend_of_le wide
  · rw [toNat_setWidth_of_le wide]

theorem value_shiftRight (signed : Bool) (x : BitVec w) (count : Nat) :
    value signed (shiftRight signed x count) = value signed x / 2 ^ count := by
  unfold value shiftRight
  split
  · rw [toInt_sshiftRight, shiftRight_eq_div_pow]
    rfl
  · rw [toNat_ushiftRight, Nat.shiftRight_eq_div_pow]
    rfl

theorem value_emod (signed : Bool) (x : BitVec w) {count : Nat} (le : count ≤ w) :
    value signed x % 2 ^ count = (x.toNat : Int) % 2 ^ count := by
  have divides : (2 : Int) ^ count ∣ 2 ^ w := pow_dvd_pow 2 le
  have whole : value signed x % 2 ^ w = x.toNat := by
    have number := congrArg BitVec.toNat (ofInt_value signed x)
    rw [toNat_ofInt] at number
    have nonneg : 0 ≤ value signed x % ((2 ^ w : Nat) : Int) := emod_nonneg _ (by positivity)
    rw [← number, toNat_of_nonneg nonneg]
    push_cast
    rfl
  rw [← whole, emod_emod_of_dvd _ divides]

theorem assign_eq_ofInt (signed : Bool) (le : n ≤ w) (x : BitVec w) :
    assign n x = BitVec.ofInt n (value signed x) := by
  apply eq_of_toNat_eq
  unfold assign
  rw [toNat_setWidth, toNat_ofInt]
  push_cast
  rw [value_emod signed x le]
  exact_mod_cast rfl

theorem getLsbD_zero_iff (signed : Bool) (x : BitVec w) (positive : 0 < w) :
    x.getLsbD 0 = decide (value signed x % 2 = 1) := by
  have low := value_emod signed x (show 1 ≤ w from positive)
  rw [pow_one] at low
  rw [low, getLsbD, Nat.testBit_zero]
  norm_cast

theorem and_lowest_eq_zero_iff (signed : Bool) {x mask : BitVec w} {count : Nat} (le : count ≤ w)
    (lowest : ∀ i, mask.getLsbD i = decide (i < count)) :
    x &&& mask = 0 ↔ value signed x % 2 ^ count = 0 := by
  have same : (x &&& mask).toNat = x.toNat % 2 ^ count := by
    apply Nat.eq_of_testBit_eq
    intro i
    rw [testBit_toNat, Nat.testBit_mod_two_pow, testBit_toNat, getLsbD_and,
      lowest i, Bool.and_comm]
  rw [value_emod signed x le, ← toNat_inj, same]
  norm_cast

end Tlib.Library.CIntegers
