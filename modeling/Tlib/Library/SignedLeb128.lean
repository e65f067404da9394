import Mathlib.Tactic.Ring
import Mathlib.Data.Nat.Bitwise

/-!
Contract: integers as bytes of seven bits, lowest first, the last byte with the sign.

Owns: the encoding, the bits of its bytes, and how a decoder puts the groups together again.
-/

namespace Tlib.Library.SignedLeb128

open BitVec Nat

def Fits (value : Int) : Prop := -64 ≤ value ∧ value < 64

instance (value : Int) : Decidable (Fits value) := inferInstanceAs (Decidable (_ ∧ _))

def encode (value : Int) : List (BitVec 8) :=
  if Fits value then [BitVec.ofInt 8 (value % 128)]
  else BitVec.ofInt 8 (value % 128 + 128) :: encode (value / 128)
termination_by value.natAbs
decreasing_by
  rename_i wide
  unfold Fits at wide
  omega

theorem encode_of_fits {value : Int} (fits : Fits value) :
    encode value = [BitVec.ofInt 8 (value % 128)] := by
  rw [encode, if_pos fits]

theorem encode_of_wide {value : Int} (wide : ¬ Fits value) :
    encode value = BitVec.ofInt 8 (value % 128 + 128) :: encode (value / 128) := by
  rw [encode, if_neg wide]

theorem group_toNat (value : Int) :
    ((BitVec.ofInt 8 (value % 128)) &&& 0x7F#8).toNat = (value % 128).toNat := by
  rw [toNat_and, toNat_ofInt, show (0x7F#8 : BitVec 8).toNat = 2 ^ 7 - 1 from rfl,
    and_two_pow_sub_one_eq_mod]
  omega

theorem group_more_toNat (value : Int) :
    ((BitVec.ofInt 8 (value % 128 + 128)) &&& 0x7F#8).toNat = (value % 128).toNat := by
  rw [toNat_and, toNat_ofInt, show (0x7F#8 : BitVec 8).toNat = 2 ^ 7 - 1 from rfl,
    and_two_pow_sub_one_eq_mod]
  omega

theorem mask_eq_zero_iff {w : Nat} (word : BitVec w) {bit : Nat} (inside : bit < w) :
    word &&& twoPow w bit = BitVec.ofNat w 0 ↔ word.toNat / 2 ^ bit % 2 = 0 := by
  rw [and_twoPow, getLsbD, testBit_eq_decide_div_mod_eq]
  cases set : decide (word.toNat / 2 ^ bit % 2 = 1) with
  | false =>
    rw [decide_eq_false_iff_not] at set
    refine iff_of_true rfl ?_
    omega
  | true =>
    rw [decide_eq_true_iff] at set
    refine iff_of_false ?_ (by omega)
    intro zero
    have value := congrArg (fun other => other.getLsbD bit) zero
    simp [inside] at value

theorem more_iff (value : Int) : BitVec.ofInt 8 (value % 128) &&& 0x80#8 = 0#8 ∧
      BitVec.ofInt 8 (value % 128 + 128) &&& 0x80#8 ≠ 0#8 := by
  have mask : (0x80#8 : BitVec 8) = twoPow 8 7 := by decide
  rw [mask]
  constructor
  · rw [mask_eq_zero_iff _ (by omega), toNat_ofInt]
    omega
  · rw [Ne, mask_eq_zero_iff _ (by omega), toNat_ofInt]
    omega

theorem sign_iff {value : Int} (fits : Fits value) :
    BitVec.ofInt 8 (value % 128) &&& 0x40#8 ≠ 0#8 ↔ value < 0 := by
  have mask : (0x40#8 : BitVec 8) = twoPow 8 6 := by decide
  obtain ⟨low, high⟩ := fits
  rw [mask, Ne, mask_eq_zero_iff _ (by omega), toNat_ofInt]
  omega

section Words

variable {w : Nat}

theorem ofInt_congr {a b : Int} (same : a % 2 ^ w = b % 2 ^ w) :
    BitVec.ofInt w a = BitVec.ofInt w b := by
  apply eq_of_toNat_eq
  rw [toNat_ofInt, toNat_ofInt]
  push_cast
  rw [same]

theorem or_above {word : BitVec w} {shift : Nat} (less : word.toNat < 2 ^ shift)
    (group : BitVec w) :
    word ||| group <<< shift = BitVec.ofInt w (word.toNat + group.toNat * 2 ^ shift) := by
  apply eq_of_toNat_eq
  have sum : (word.toNat : Int) + group.toNat * 2 ^ shift =
      ((2 ^ shift * group.toNat + word.toNat : Nat) : Int) := by
    push_cast
    ring
  have whole : word.toNat ||| group.toNat <<< shift % 2 ^ w =
      (word.toNat ||| group.toNat <<< shift) % 2 ^ w := by
    rw [or_mod_two_pow, mod_eq_of_lt word.isLt]
  rw [sum, ofInt_natCast, toNat_ofNat, two_pow_add_eq_or_of_lt less,
    toNat_or, toNat_shiftLeft, whole, Nat.shiftLeft_eq, Nat.or_comm,
    Nat.mul_comm]

theorem group_above_lt {low group shift : Nat} (less : low < 2 ^ shift) (seven : group < 2 ^ 7) :
    low + group * 2 ^ shift < 2 ^ (shift + 7) := by
  have groups : (group + 1) * 2 ^ shift ≤ 2 ^ 7 * 2 ^ shift := Nat.mul_le_mul_right _ seven
  rw [Nat.add_mul, Nat.one_mul] at groups
  rw [Nat.pow_add, Nat.mul_comm (2 ^ shift)]
  omega

theorem or_above_toNat {word group : BitVec w} {shift : Nat} (less : word.toNat < 2 ^ shift)
    (seven : group.toNat < 2 ^ 7) (room : shift + 7 ≤ w) :
    (word ||| group <<< shift).toNat = word.toNat + group.toNat * 2 ^ shift := by
  have fits : word.toNat + group.toNat * 2 ^ shift < 2 ^ w :=
    lt_of_lt_of_le (group_above_lt less seven) (Nat.pow_le_pow_right (by omega) room)
  have natural : (word.toNat : Int) + group.toNat * 2 ^ shift =
      ((word.toNat + group.toNat * 2 ^ shift : Nat) : Int) := by
    rfl
  rw [or_above less, natural, ofInt_natCast, toNat_ofNat, mod_eq_of_lt fits]

theorem or_ones_above {word : BitVec w} {shift : Nat} (less : word.toNat < 2 ^ shift) :
    word ||| (-BitVec.ofNat w 1) <<< shift = BitVec.ofInt w (word.toNat - 2 ^ shift) := by
  rw [or_above less, neg_one_eq_allOnes, toNat_allOnes]
  apply ofInt_congr
  have ones : ((2 ^ w - 1 : Nat) : Int) = 2 ^ w - 1 := by
    rw [cast_sub Nat.one_le_two_pow]
    rfl
  have sum : (word.toNat : Int) + (2 ^ w - 1) * 2 ^ shift =
      word.toNat - 2 ^ shift + 2 ^ w * 2 ^ shift := by ring
  rw [ones, sum, Int.add_mul_emod_self_left]

end Words

end Tlib.Library.SignedLeb128
