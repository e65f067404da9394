import Mathlib.Tactic.Ring
import Tlib.Library.BitMasks
import Tlib.Library.CyclicIntervals
import Tlib.Riscv.Pmp

/-!
Contract: the regions of PMP entries and their cached bounds.

Owns: the region that an entry's registers describe, by its address mode and the grain of the hart.
-/

namespace Tlib.Riscv

open Tlib.Library.BitMasks Nat
open Tlib.Library.CyclicIntervals (aligned_end)

/-- The addresses from `lo` up to, and without, `hi`. -/
structure Region where
  (lo hi : Nat)
deriving DecidableEq, Repr

def Region.Mem (region : Region) (address : Nat) : Prop := region.lo ≤ address ∧ address < region.hi

namespace PmpHart

variable (H : PmpHart)

/-- The number of addresses that `pmp_addr_mask` leaves. -/
def addressSpace : Nat := 2 ^ H.pmpaddrBits

def regionGrain (thisAddr : Nat) : Nat :=
  let napot := trailingOnes H.longBits thisAddr
  if H.privilege111 then max napot H.pmpNapotGrain.toNat else napot

def napotStart (thisAddr : Nat) : Nat :=
  4 * (thisAddr / 2 ^ (H.regionGrain thisAddr + 1) * 2 ^ (H.regionGrain thisAddr + 1))

def region (aField : PmpAmatch) (prevAddr thisAddr : Nat) : Region :=
  match aField with
  | .off => ⟨0, 0⟩
  | .tor => ⟨4 * prevAddr, 4 * thisAddr⟩
  | .na4 => ⟨4 * thisAddr, 4 * thisAddr + 4⟩
  | .napot =>
    ⟨H.napotStart thisAddr, H.napotStart thisAddr + 2 ^ (H.regionGrain thisAddr + 3)⟩

def Fits (aField : PmpAmatch) (prevAddr thisAddr : Nat) : Prop :=
  match aField with
  | .off => True
  | .tor =>
    4 * prevAddr < H.addressSpace ∧ 0 < thisAddr ∧
      (4 * thisAddr ≤ H.addressSpace ∨ H.addressSpace ∣ 4 * thisAddr)
  | .na4 => 4 * thisAddr < H.addressSpace
  | .napot =>
    (H.privilege111 = true → 0 ≤ H.pmpNapotGrain ∧ H.pmpNapotGrain ≤ H.longBits) ∧
      (H.napotStart thisAddr < H.addressSpace ∨ 2 ^ H.longBits ≤ H.napotStart thisAddr)

variable {H} {prevAddr thisAddr : Nat}

theorem addressSpace_pos : 0 < H.addressSpace := Nat.two_pow_pos _

theorem longBits_ge : 32 ≤ H.longBits := by
  rcases H.longBits_eq with eq | eq <;> omega

theorem addressSpace_dvd : H.addressSpace ∣ 2 ^ H.longBits := Nat.pow_dvd_pow 2 H.pmpaddrBits_le

theorem and_pmpAddrMask (value : Nat) : value &&& H.pmpAddrMask = value % H.addressSpace :=
  and_two_pow_sub_one_eq_mod value H.pmpaddrBits

theorem toUlong_mod (value : Nat) : H.toUlong value % H.addressSpace = value % H.addressSpace :=
  mod_mod_of_dvd value addressSpace_dvd

theorem allOnes_mod : H.allOnes % H.addressSpace = H.addressSpace - 1 := by
  obtain ⟨count, eq⟩ := H.addressSpace_dvd
  have pos := H.addressSpace_pos
  have some : 0 < count := by
    rcases Nat.eq_zero_or_pos count with zero | some
    · rw [zero, Nat.mul_zero] at eq
      exact absurd eq (Nat.two_pow_pos _).ne'
    · exact some
  obtain ⟨less, rfl⟩ := exists_eq_succ_of_ne_zero some.ne'
  have value : H.allOnes = (H.addressSpace - 1) + H.addressSpace * less := by
    unfold allOnes
    rw [eq, mul_succ]
    omega
  rw [value, add_mul_mod_self_left]
  exact mod_eq_of_lt (by omega)

theorem pred_mod (value : Nat) : H.toUlong (value + H.allOnes) % H.addressSpace =
      (value + (H.addressSpace - 1)) % H.addressSpace := by
  rw [toUlong_mod, add_mod, allOnes_mod, mod_add_mod]

theorem shiftLeft_two (value : Nat) : H.shiftLeft value 2 = H.toUlong (4 * value) := by
  have small : 2 % H.longBits = 2 := mod_eq_of_lt (by have := H.longBits_ge; omega)
  unfold shiftLeft
  rw [small, shiftLeft_eq, Nat.mul_comm]

theorem last_mod {value : Nat} (pos : 0 < value)
    (cut : value ≤ H.addressSpace ∨ H.addressSpace ∣ value) :
    H.toUlong (H.toUlong value + H.allOnes) % H.addressSpace = min value H.addressSpace - 1 := by
  have space := H.addressSpace_pos
  rw [pred_mod, add_mod, toUlong_mod, ← add_mod]
  rcases cut with le | ⟨count, rfl⟩
  · rw [Nat.min_eq_left le]
    have split : value + (H.addressSpace - 1) = (value - 1) + H.addressSpace := by omega
    rw [split, add_mod_right]
    exact mod_eq_of_lt (by omega)
  · have le : H.addressSpace ≤ H.addressSpace * count :=
      Nat.le_mul_of_pos_right _ (Nat.pos_of_mul_pos_left pos)
    rw [Nat.min_eq_right le, mul_add_mod]
    exact mod_eq_of_lt (by omega)

theorem bounds_tor (fits : H.Fits .tor prevAddr thisAddr) {address : Nat}
    (below : address < H.addressSpace) :
    ((ruleBounds H .tor prevAddr thisAddr).1 &&& H.pmpAddrMask ≤ address ∧
      address ≤ (ruleBounds H .tor prevAddr thisAddr).2 &&& H.pmpAddrMask) ↔
      (H.region .tor prevAddr thisAddr).Mem address := by
  obtain ⟨prevSmall, pos, cut⟩ := fits
  unfold Region.Mem region ruleBounds
  dsimp only
  rw [and_pmpAddrMask, and_pmpAddrMask, shiftLeft_two, shiftLeft_two, toUlong_mod,
    mod_eq_of_lt prevSmall, last_mod (by omega) cut]
  omega

theorem bounds_na4 (fits : H.Fits .na4 prevAddr thisAddr) {address : Nat}
    (below : address < H.addressSpace) :
    ((ruleBounds H .na4 prevAddr thisAddr).1 &&& H.pmpAddrMask ≤ address ∧
      address ≤ (ruleBounds H .na4 prevAddr thisAddr).2 &&& H.pmpAddrMask) ↔
      (H.region .na4 prevAddr thisAddr).Mem address := by
  have start : 4 * thisAddr < H.addressSpace := fits
  have whole : H.toUlong (4 * thisAddr) = 4 * thisAddr :=
    mod_eq_of_lt (start.trans_le (le_of_dvd (Nat.two_pow_pos _) addressSpace_dvd))
  have cut : 4 * thisAddr + 4 ≤ H.addressSpace ∨ H.addressSpace ∣ 4 * thisAddr + 4 := by
    by_cases one : H.pmpaddrBits = 1
    · refine .inr ?_
      unfold addressSpace
      rw [one]
      omega
    · have four : 4 ∣ H.addressSpace :=
        Nat.pow_dvd_pow 2 (m := 2) (by have := H.pmpaddrBits_pos; omega)
      omega
  unfold Region.Mem region ruleBounds
  dsimp only
  rw [and_pmpAddrMask, and_pmpAddrMask, shiftLeft_two, toUlong_mod, whole,
    mod_eq_of_lt start, last_mod (by omega) cut]
  omega

theorem trailingOnes_le (width value : Nat) : trailingOnes width value ≤ width := by
  induction width generalizing value with
  | zero => exact Nat.le_refl 0
  | succ width ih =>
    unfold trailingOnes
    split
    · exact succ_le_succ (ih _)
    · exact Nat.zero_le _

theorem napotOf_eq
    (set : H.privilege111 = true → 0 ≤ H.pmpNapotGrain ∧ H.pmpNapotGrain ≤ H.longBits) :
    napotOf H thisAddr = H.regionGrain thisAddr ∧ H.regionGrain thisAddr ≤ H.longBits := by
  have natural := trailingOnes_le H.longBits thisAddr
  unfold napotOf regionGrain
  cases new : H.privilege111 with
  | false => exact ⟨by simp, by simpa using natural⟩
  | true =>
    obtain ⟨nonneg, le⟩ := set new
    have small : (H.longBits : Int) < (2 ^ H.longBits : Nat) := by
      exact_mod_cast Nat.lt_two_pow_self
    rw [Int.emod_eq_of_lt nonneg (by omega)]
    simp only [true_and, if_true]
    constructor
    · split <;> omega
    · omega

theorem napotBase_eq {grain : Nat} (less : grain < H.longBits)
    (small : thisAddr < 2 ^ H.longBits) :
    thisAddr &&& H.shiftLeft (2 ^ H.longBits - 2) grain =
      thisAddr / 2 ^ (grain + 1) * 2 ^ (grain + 1) := by
  unfold shiftLeft toUlong
  rw [mod_eq_of_lt less, highMask_shift less]
  exact and_highMask small less

theorem topBits_eq_zero_iff {base : Nat} (small : base < 2 ^ H.longBits) :
    base &&& H.shiftLeft 3 (H.longBits - 2) = 0 ↔ 4 * base < 2 ^ H.longBits := by
  have ge := H.longBits_ge
  have quarter : 2 ^ H.longBits = 4 * 2 ^ (H.longBits - 2) := by
    rw [show 4 = 2 ^ 2 from rfl, ← Nat.pow_add]
    congr 1
    omega
  have mask : H.shiftLeft 3 (H.longBits - 2) = 2 ^ H.longBits - 2 ^ (H.longBits - 2) := by
    have count : (H.longBits - 2) % H.longBits = H.longBits - 2 := mod_eq_of_lt (by omega)
    unfold shiftLeft toUlong
    rw [count, shiftLeft_eq, mod_eq_of_lt (by omega)]
    omega
  have pos := Nat.two_pow_pos (H.longBits - 2)
  rw [mask, and_highMask small (by omega), Nat.mul_eq_zero]
  constructor
  · rintro (below | none)
    · have := (div_eq_zero_iff_lt pos).mp below
      omega
    · omega
  · intro below
    exact .inl ((div_eq_zero_iff_lt pos).mpr (by omega))

theorem napotLast_cyclic {start grain : Nat} (less : grain < H.longBits) :
    H.toUlong (start + H.toUlong (H.shiftLeft 8 grain + H.allOnes)) % H.addressSpace =
      (start + 2 ^ (grain + 3) + (H.addressSpace - 1)) % H.addressSpace := by
  have eight : H.shiftLeft 8 grain = H.toUlong (2 ^ (grain + 3)) := by
    unfold shiftLeft
    rw [mod_eq_of_lt less, shiftLeft_eq, Nat.pow_add, Nat.mul_comm]
  rw [toUlong_mod, ← add_mod_mod, pred_mod, eight, add_mod_mod, ← Nat.add_assoc,
    Nat.add_comm start, Nat.add_assoc, add_mod, toUlong_mod, ← add_mod]
  congr 1
  omega

theorem napotLast_mod {start grain : Nat} (less : grain < H.longBits)
    (aligned : 2 ^ (grain + 3) ∣ start) (inside : start < H.addressSpace) :
    H.toUlong (start + H.toUlong (H.shiftLeft 8 grain + H.allOnes)) % H.addressSpace =
      min (start + 2 ^ (grain + 3)) H.addressSpace - 1 := by
  have pos : 0 < start + 2 ^ (grain + 3) := Nat.add_pos_right _ (Nat.two_pow_pos _)
  calc H.toUlong (start + H.toUlong (H.shiftLeft 8 grain + H.allOnes)) % H.addressSpace
      = (start + 2 ^ (grain + 3) + (H.addressSpace - 1)) % H.addressSpace := napotLast_cyclic less
    _ = H.toUlong (H.toUlong (start + 2 ^ (grain + 3)) + H.allOnes) % H.addressSpace := by
        rw [pred_mod, add_mod (H.toUlong _), toUlong_mod, ← add_mod]
    _ = min (start + 2 ^ (grain + 3)) H.addressSpace - 1 :=
        last_mod pos (aligned_end aligned inside)

theorem bounds_napot (fits : H.Fits .napot prevAddr thisAddr)
    (small : thisAddr < 2 ^ H.longBits) {address : Nat} (below : address < H.addressSpace) :
    ((ruleBounds H .napot prevAddr thisAddr).1 &&& H.pmpAddrMask ≤ address ∧
      address ≤ (ruleBounds H .napot prevAddr thisAddr).2 &&& H.pmpAddrMask) ↔
      (H.region .napot prevAddr thisAddr).Mem address := by
  obtain ⟨set, placed⟩ := fits
  obtain ⟨sameGrain, grainLe⟩ :
      napotOf H thisAddr = H.regionGrain thisAddr ∧ H.regionGrain thisAddr ≤ H.longBits :=
    napotOf_eq set
  have spaceLe : H.addressSpace ≤ 2 ^ H.longBits :=
    le_of_dvd (Nat.two_pow_pos _) addressSpace_dvd
  unfold Region.Mem region ruleBounds
  dsimp only
  rw [sameGrain, and_pmpAddrMask, and_pmpAddrMask]
  unfold napotStart at placed ⊢
  unfold pmpDecodeNapot
  by_cases whole : H.regionGrain thisAddr = H.longBits
  · -- the region covers everything that a target word reaches
    have wide : 2 ^ H.longBits ≤ 2 ^ (H.longBits + 3) :=
      Nat.pow_le_pow_right (by decide) (Nat.le_add_right _ 3)
    have none : thisAddr / 2 ^ (H.longBits + 1) = 0 :=
      div_eq_of_lt (small.trans_le (Nat.pow_le_pow_right (by decide) (le_succ _)))
    rw [if_pos whole, whole, allOnes_mod, zero_mod, none]
    omega
  · have less : H.regionGrain thisAddr < H.longBits := by omega
    rw [if_neg whole, napotBase_eq less small]
    generalize base_eq : thisAddr / 2 ^ (H.regionGrain thisAddr + 1) *
      2 ^ (H.regionGrain thisAddr + 1) = base at placed
    have baseSmall : base < 2 ^ H.longBits :=
      (base_eq ▸ div_mul_le_self _ _ : base ≤ thisAddr).trans_lt small
    by_cases reached : 4 * base < 2 ^ H.longBits
    · have inside : 4 * base < H.addressSpace := by omega
      have aligned : 2 ^ (H.regionGrain thisAddr + 3) ∣ 4 * base := by
        have block : 2 ^ (H.regionGrain thisAddr + 3) =
            4 * 2 ^ (H.regionGrain thisAddr + 1) := by ring
        rw [block]
        exact Nat.mul_dvd_mul_left 4 (base_eq ▸ Nat.dvd_mul_left _ _)
      rw [if_neg (not_not.mpr ((topBits_eq_zero_iff baseSmall).mpr reached)), shiftLeft_two,
        show H.toUlong (4 * base) = 4 * base from mod_eq_of_lt reached]
      rw [napotLast_mod less aligned inside, mod_eq_of_lt inside]
      omega
    · have two : 2 ≤ H.addressSpace := Nat.pow_le_pow_right (n := 2) (by decide) H.pmpaddrBits_pos
      rw [if_pos (fun zero => reached ((topBits_eq_zero_iff baseSmall).mp zero))]
      rw [mod_eq_of_lt two, zero_mod]
      omega

theorem ruleBounds_mem {aField : PmpAmatch} (active : aField ≠ .off)
    (fits : H.Fits aField prevAddr thisAddr) (small : thisAddr < 2 ^ H.longBits)
    {address : Nat} (below : address < H.addressSpace) :
    ((ruleBounds H aField prevAddr thisAddr).1 &&& H.pmpAddrMask ≤ address ∧
      address ≤ (ruleBounds H aField prevAddr thisAddr).2 &&& H.pmpAddrMask) ↔
      (H.region aField prevAddr thisAddr).Mem address := by
  cases aField with
  | off => exact absurd rfl active
  | tor => exact bounds_tor fits below
  | na4 => exact bounds_na4 fits below
  | napot => exact bounds_napot fits small below

end PmpHart

end Tlib.Riscv
