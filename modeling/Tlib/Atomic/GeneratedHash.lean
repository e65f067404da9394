import Mathlib.Data.Nat.ModEq
import Tlib.Atomic.StoreTableLocks

/-!
Contract: the hash of a guest address as generated code computes it, against the one of the
helpers.

Owns: the constant temps of a guest of 32 bits.
-/

namespace Tlib.Atomic

namespace GuestTemp

/-- The constant of `tcg_gen_movi_i32`, an `int32_t` that is kept with its sign in 64 bits. -/
def movi32Bits (address : Nat) : Nat :=
  if address < 2 ^ 31 then address else 2 ^ 64 - 2 ^ 32 + address

theorem movi32Bits_lt {address : Nat} (less : address < 2 ^ 32) : movi32Bits address < 2 ^ 64 := by
  unfold movi32Bits
  split_ifs <;> omega

theorem movi32Bits_low {address : Nat} (less : address < 2 ^ 32) :
    movi32Bits address % 2 ^ 32 = address := by
  unfold movi32Bits
  split_ifs <;> omega

theorem movi32_longBits : 32 = 32 ∨ 32 = 64 := .inl rfl

/-- A constant address of a guest of 32 bits, with which operations are folded. -/
def movi32 (address : Nat) (less : address < 2 ^ 32) : GuestTemp where
  longBits := 32
  address := address
  bits := movi32Bits address
  longBits_cases := movi32_longBits
  bits_lt := movi32Bits_lt less
  low := movi32Bits_low less

theorem three_le (t : GuestTemp) : 3 ≤ t.longBits := by
  have := t.longBits_cases
  omega

def upper (t : GuestTemp) : Nat := t.bits / 2 ^ t.longBits

theorem bits_eq (t : GuestTemp) : t.bits = t.address + 2 ^ t.longBits * t.upper := by
  have split := Nat.mod_add_div t.bits (2 ^ t.longBits)
  rw [t.low] at split
  exact split.symm

theorem bits_div_eight (t : GuestTemp) :
    t.bits / 8 = t.address / 8 + 2 ^ (t.longBits - 3) * t.upper := by
  have eight : 2 ^ t.longBits = 8 * 2 ^ (t.longBits - 3) := by
    have sum : t.longBits = 3 + (t.longBits - 3) := by
      have := t.three_le
      omega
    nth_rewrite 1 [sum]
    exact Nat.pow_add 2 3 _
  rw [t.bits_eq, eight, Nat.mul_assoc, Nat.add_mul_div_left _ _ (by decide : 0 < 8)]

end GuestTemp

namespace StoreTable

variable (T : StoreTable)

structure IsEntry (entry : Nat) : Prop where
  ge : T.storeTable ≤ entry
  le : entry + 8 ≤ T.storeTable + 2 ^ T.contentBits
  aligned : entry % 8 = 0

structure Finds (t : GuestTemp) : Prop where
  same : T.genHashAddress t = T.addressHash t.address
  entry : T.IsEntry (T.genHashAddress t)
  granule : ∀ other, other / 8 = t.address / 8 → T.addressHash other = T.genHashAddress t

variable {T : StoreTable}

theorem genHashAddress_eq (t : GuestTemp) : T.genHashAddress t = T.addressHash t.bits := rfl

theorem addressHash_isEntry (guestAddress : Nat) : T.IsEntry (T.addressHash guestAddress) := by
  have place := Nat.mod_lt (guestAddress / 8) (entriesCount_pos (T := T))
  have size := eight_mul_entriesCount (T := T)
  have eight : (8 : Nat) ∣ T.storeTable := by
    have whole : (8 : Nat) ∣ 2 ^ T.contentBits := ⟨T.hstTableEntriesCount, size.symm⟩
    exact whole.trans (Nat.dvd_of_mod_eq_zero T.aligned)
  rw [addressHash_eq]
  exact ⟨Nat.le_add_right _ _, by omega, by omega⟩

theorem addressHash_granule {a b : Nat} (granule : a / 8 = b / 8) :
    T.addressHash a = T.addressHash b := by
  rw [addressHash_eq_iff, granule]

theorem entriesCount_eq : T.hstTableEntriesCount = 2 ^ (T.contentBits - 3) := by
  have size := eight_mul_entriesCount (T := T)
  have split : 2 ^ T.contentBits = 8 * 2 ^ (T.contentBits - 3) := by
    have sum : T.contentBits = 3 + (T.contentBits - 3) := by
      have := le_contentBits (T := T)
      omega
    nth_rewrite 1 [sum]
    exact Nat.pow_add 2 3 _
  omega

theorem upper_masked_iff (t : GuestTemp) : T.hstTableEntriesCount ∣ 2 ^ (t.longBits - 3) * t.upper ↔
      t.upper % 2 ^ (T.contentBits - t.longBits) = 0 := by
  have wide := t.three_le
  rw [entriesCount_eq, ← Nat.dvd_iff_mod_eq_zero]
  rcases Nat.le_total T.contentBits t.longBits with small | large
  · refine iff_of_true ?_ ?_
    · exact Dvd.dvd.mul_right (Nat.pow_dvd_pow 2 (by omega)) _
    · rw [Nat.sub_eq_zero_of_le small]
      exact one_dvd _
  · have sum : T.contentBits - 3 = (t.longBits - 3) + (T.contentBits - t.longBits) := by omega
    rw [sum, Nat.pow_add]
    exact Nat.mul_dvd_mul_iff_left (Nat.two_pow_pos _)

theorem genHashAddress_eq_iff (t : GuestTemp) : T.genHashAddress t = T.addressHash t.address ↔
      t.upper % 2 ^ (T.contentBits - t.longBits) = 0 := by
  rw [genHashAddress_eq, addressHash_eq_iff, t.bits_div_eight, ← upper_masked_iff]
  exact Nat.add_modEq_left_iff

theorem finds_iff_same (T : StoreTable) (t : GuestTemp) :
    T.Finds t ↔ T.genHashAddress t = T.addressHash t.address := by
  refine ⟨fun finds => finds.same, fun same => ?_⟩
  exact
    { same := same
      entry := addressHash_isEntry t.bits
      granule := fun other granule => (addressHash_granule granule).trans same.symm }

/-- Generated code finds the entry of a guest address exactly if the temp is zero between the width
of the guest and the size of the table. -/
theorem finds_iff (T : StoreTable) (t : GuestTemp) :
    T.Finds t ↔ t.bits / 2 ^ t.longBits % 2 ^ (T.contentBits - t.longBits) = 0 := by
  rw [finds_iff_same, genHashAddress_eq_iff]
  rfl

end StoreTable

def wideTable : StoreTable where
  storeTableBits := 31
  storeTable := 2 ^ 33
  bits_pos := by decide
  bits_le := by decide
  storeTable_lt := by decide
  aligned := by decide

/-- The constant address is hashed to an entry 4 GiB above the one of the helpers. -/
theorem wideTable_misses : ¬∀ (T : StoreTable) (t : GuestTemp), T.Finds t := by
  intro every
  have finds := (every wideTable (.movi32 (2 ^ 31) (by decide))).same
  exact absurd finds (by decide)

end Tlib.Atomic
