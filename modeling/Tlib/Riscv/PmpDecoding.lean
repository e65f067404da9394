import Mathlib.Tactic.ByContra
import Tlib.Library.CyclicIntervals
import Tlib.Riscv.PmpRegions

/-!
Contract: the decoding of PMP entries into bounds.

Owns: `pmp_update_rule` for the address modes and grains, and the bounds of the addresses that an
entry matches by the privileged specification.
-/

namespace Tlib.Riscv

open Tlib.Library.CyclicIntervals BitVec Nat

/-- `tlib_set_napot_grain`; `none` stands for the abort. -/
def tlibSetNapotGrain (minimalNapotInBytes : BitVec 32) : Option Int :=
  if minimalNapotInBytes &&& (minimalNapotInBytes - 1) ≠ 0 ∧ minimalNapotInBytes ≥ 8 then none
  else
    let grain := (minimalNapotInBytes >>> 4).toInt
    some grain

/-- The grain that `cpu_reset` sets, and those that the platform can. -/
def GrainPossible (grain : Int) : Prop := grain = -1 ∨ ∃ bytes, tlibSetNapotGrain bytes = some grain

namespace PmpHart

variable (H : PmpHart)

def RegularGrain (thisAddr : Nat) : Prop :=
  (H.privilege111 = true → 0 ≤ H.pmpNapotGrain) ∧ H.regionGrain thisAddr ≤ H.longBits

instance (thisAddr : Nat) : Decidable (H.RegularGrain thisAddr) :=
  inferInstanceAs (Decidable (_ ∧ _))

/-- The bounds of an entry hold the addresses of its region that the mask leaves. -/
def Decodes (aField : PmpAmatch) (prevAddr thisAddr : Nat) : Prop :=
  match aField with
  | .off => True
  | .tor =>
    if 4 * prevAddr < 4 * thisAddr ∧ 4 * prevAddr < H.addressSpace then
      4 * thisAddr ≤ H.addressSpace ∨ H.addressSpace ∣ 4 * thisAddr
    else
      0 < 4 * thisAddr % H.addressSpace ∧
        4 * thisAddr % H.addressSpace ≤ 4 * prevAddr % H.addressSpace
  | .na4 => 4 * thisAddr < H.addressSpace
  | .napot =>
    if H.RegularGrain thisAddr then
      H.napotStart thisAddr < H.addressSpace ∨ 2 ^ H.longBits ≤ H.napotStart thisAddr
    else if H.pmpNapotGrain < 0 then
      H.napotStart thisAddr = 0 ∧ H.addressSpace ≤ 2 ^ (H.regionGrain thisAddr + 3)
    else H.addressSpace ≤ 8

def MaskHarmless (region : Region) : Prop :=
  H.pmpaddrBits = H.longBits ∨ (region.hi ≤ region.lo ∨ 2 ^ H.longBits ≤ region.lo) ∨
    region.lo = 0 ∧ 2 ^ H.longBits ≤ region.hi

end PmpHart

theorem tlibSetNapotGrain_some {bytes : BitVec 32} {grain : Int}
    (accepted : tlibSetNapotGrain bytes = some grain) :
    grain = 0 ∨ ∃ k < 28, grain = (2 ^ k : Nat) := by
  unfold tlibSetNapotGrain at accepted
  split at accepted
  next => cases accepted
  next valid =>
    cases accepted
    have value : (bytes >>> 4).toNat = bytes.toNat / 16 := by
      rw [toNat_ushiftRight, shiftRight_eq_div_pow]
    rw [toInt_eq_toNat_of_lt (by omega), value]
    by_cases small : bytes.toNat < 16
    · exact .inl (by omega)
    · have eight : bytes ≥ 8 := le_def.mpr (by
        rw [show (8 : BitVec 32).toNat = 8 from rfl]
        omega)
      have single : bytes &&& (bytes - 1) = 0 := by
        by_contra more
        exact valid ⟨more, eight⟩
      have pred : (bytes - 1).toNat = bytes.toNat - 1 :=
        toNat_sub_of_le (le_def.mpr (by
          rw [show (1 : BitVec 32).toNat = 1 from rfl]
          omega))
      have power : bytes.toNat.isPowerOfTwo := by
        rw [← and_sub_one_eq_zero_iff_isPowerOfTwo (by omega), ← pred, ← toNat_and,
          single]
        rfl
      obtain ⟨k, eq⟩ := power
      have four : 4 ≤ k := by
        by_contra less
        have := Nat.pow_le_pow_right (n := 2) (by decide) (show k ≤ 3 by omega)
        omega
      have top : k < 32 := (Nat.pow_lt_pow_iff_right (a := 2) (by decide)).mp (by omega)
      refine .inr ⟨k - 4, by omega, ?_⟩
      rw [eq, show 16 = 2 ^ 4 from rfl, Nat.pow_div four (by decide)]

theorem GrainPossible.cases {H : PmpHart} (possible : GrainPossible H.pmpNapotGrain) :
    H.pmpNapotGrain = -1 ∨ ∃ grain : Nat, H.pmpNapotGrain = grain ∧ grain < 2 ^ 28 ∧
      (grain ≤ H.longBits ∨ grain % H.longBits = 0) := by
  obtain none_ | ⟨bytes, accepted⟩ := possible
  · exact .inl none_
  · refine .inr ?_
    obtain zero | ⟨k, less, eq⟩ := tlibSetNapotGrain_some accepted
    · exact ⟨0, zero, by decide, .inl (Nat.zero_le _)⟩
    · refine ⟨2 ^ k, eq, Nat.pow_lt_pow_right (by decide) less, ?_⟩
      obtain ⟨w, width⟩ : ∃ w, H.longBits = 2 ^ w := by
        rcases H.longBits_eq with eq | eq
        · exact ⟨5, eq⟩
        · exact ⟨6, eq⟩
      rw [width]
      rcases Nat.le_total k w with le | ge
      · exact .inl (Nat.pow_le_pow_right (by decide) le)
      · exact .inr (mod_eq_zero_of_dvd (Nat.pow_dvd_pow 2 ge))

namespace PmpHart

variable {H : PmpHart} {prevAddr thisAddr grain : Nat}

def blockStart (thisAddr grain : Nat) : Nat := 4 * (thisAddr / 2 ^ (grain + 1) * 2 ^ (grain + 1))

theorem blockStart_aligned : 2 ^ (grain + 3) ∣ blockStart thisAddr grain := by
  have block : 2 ^ (grain + 3) = 4 * 2 ^ (grain + 1) := by ring
  rw [block]
  exact Nat.mul_dvd_mul_left 4 (Nat.dvd_mul_left _ _)

theorem blockStart_eq_zero (small : thisAddr < 2 ^ (grain + 1)) : blockStart thisAddr grain = 0 := by
  unfold blockStart
  rw [div_eq_of_lt small, Nat.zero_mul, Nat.mul_zero]

theorem pmpDecodeNapot_congr {other : Nat} (ne : grain ≠ H.longBits) (ne' : other ≠ H.longBits)
    (same : grain % H.longBits = other % H.longBits) :
    pmpDecodeNapot H thisAddr grain = pmpDecodeNapot H thisAddr other := by
  unfold pmpDecodeNapot shiftLeft
  rw [if_neg ne, if_neg ne', same]

theorem pmpDecodeNapot_beyond (less : grain < H.longBits) (small : thisAddr < 2 ^ H.longBits)
    (beyond : 2 ^ H.longBits ≤ blockStart thisAddr grain) :
    pmpDecodeNapot H thisAddr grain = (1, 0) := by
  unfold pmpDecodeNapot
  rw [if_neg less.ne, napotBase_eq less small]
  have baseSmall := (div_mul_le_self thisAddr (2 ^ (grain + 1))).trans_lt small
  exact if_pos (fun zero =>
    absurd ((topBits_eq_zero_iff baseSmall).mp zero) (Nat.not_lt.mpr beyond))

theorem pmpDecodeNapot_reached (less : grain < H.longBits) (small : thisAddr < 2 ^ H.longBits)
    (reached : blockStart thisAddr grain < 2 ^ H.longBits) :
    (pmpDecodeNapot H thisAddr grain).1 % H.addressSpace =
        blockStart thisAddr grain % H.addressSpace ∧
      (pmpDecodeNapot H thisAddr grain).2 % H.addressSpace =
        (blockStart thisAddr grain + 2 ^ (grain + 3) + (H.addressSpace - 1)) % H.addressSpace := by
  have baseSmall := (div_mul_le_self thisAddr (2 ^ (grain + 1))).trans_lt small
  have start : H.shiftLeft (thisAddr / 2 ^ (grain + 1) * 2 ^ (grain + 1)) 2 =
      blockStart thisAddr grain := (shiftLeft_two _).trans (mod_eq_of_lt reached)
  unfold pmpDecodeNapot
  rw [if_neg less.ne, napotBase_eq less small,
    if_neg (not_not.mpr ((topBits_eq_zero_iff baseSmall).mpr reached)), start]
  exact ⟨rfl, napotLast_cyclic less⟩

def Hold (H : PmpHart) (bounds : Nat × Nat) (lo hi : Nat) : Prop :=
  ∀ y < H.addressSpace,
    bounds.1 % H.addressSpace ≤ y ∧ y ≤ bounds.2 % H.addressSpace ↔ lo ≤ y ∧ y < hi

theorem two_le_addressSpace : 2 ≤ H.addressSpace :=
  Nat.pow_le_pow_right (n := 2) (by decide) H.pmpaddrBits_pos

theorem addressSpace_le : H.addressSpace ≤ 2 ^ H.longBits :=
  le_of_dvd (Nat.two_pow_pos _) addressSpace_dvd

theorem hold_block_iff (less : grain < H.longBits) (small : thisAddr < 2 ^ H.longBits) :
    H.Hold (pmpDecodeNapot H thisAddr grain) (blockStart thisAddr grain)
        (blockStart thisAddr grain + 2 ^ (grain + 3)) ↔
      blockStart thisAddr grain < H.addressSpace ∨ 2 ^ H.longBits ≤ blockStart thisAddr grain := by
  unfold Hold
  by_cases reached : blockStart thisAddr grain < 2 ^ H.longBits
  · obtain ⟨first, last⟩ := pmpDecodeNapot_reached less small reached
    rw [first, last]
    unfold addressSpace
    rw [aligned_agree_iff blockStart_aligned]
    omega
  · have two := H.two_le_addressSpace
    have le := H.addressSpace_le
    rw [pmpDecodeNapot_beyond less small (by omega)]
    rw [mod_eq_of_lt (by omega : 1 < H.addressSpace), zero_mod]
    refine iff_of_true (fun y below => ?_) (.inr (by omega))
    omega

theorem hold_all {bounds : Nat × Nat} {hi : Nat} (first : bounds.1 % H.addressSpace = 0)
    (last : bounds.2 % H.addressSpace = H.addressSpace - 1) (covers : H.addressSpace ≤ hi) :
    H.Hold bounds 0 hi := by
  intro y below
  omega

theorem hold_of_all_iff {bounds : Nat × Nat} {lo hi : Nat}
    (first : bounds.1 % H.addressSpace = 0)
    (last : bounds.2 % H.addressSpace = H.addressSpace - 1) :
    H.Hold bounds lo hi ↔ lo = 0 ∧ H.addressSpace ≤ hi := by
  have pos := H.addressSpace_pos
  constructor
  · intro hold
    have bottom := (hold 0 pos).mp ⟨by omega, by omega⟩
    have top := (hold (H.addressSpace - 1) (by omega)).mp ⟨by omega, by omega⟩
    omega
  · rintro ⟨rfl, covers⟩
    exact hold_all first last covers

theorem napotOf_irregular (possible : GrainPossible H.pmpNapotGrain)
    (irregular : ¬H.RegularGrain thisAddr) :
    (H.pmpNapotGrain = -1 ∧ napotOf H thisAddr = 2 ^ H.longBits - 1) ∨
      (0 ≤ H.pmpNapotGrain ∧ napotOf H thisAddr = H.regionGrain thisAddr ∧
        H.longBits < H.regionGrain thisAddr ∧ H.regionGrain thisAddr % H.longBits = 0) := by
  have natural := trailingOnes_le H.longBits thisAddr
  have wide : H.longBits < 2 ^ H.longBits - 1 := by
    rcases H.longBits_eq with eq | eq <;> rw [eq] <;> decide
  have large : 2 ^ 28 < 2 ^ H.longBits := by
    rcases H.longBits_eq with eq | eq <;> rw [eq] <;> decide
  have since : H.privilege111 = true := by
    by_contra before
    refine irregular ⟨fun new => absurd new before, ?_⟩
    unfold regionGrain
    rw [if_neg before]
    exact natural
  unfold RegularGrain at irregular
  unfold napotOf regionGrain at *
  simp only [since, true_and, if_true, forall_const] at irregular ⊢
  obtain none_ | ⟨grain, eq, less, multiple⟩ := possible.cases
  · refine .inl ⟨none_, ?_⟩
    have value : (H.pmpNapotGrain % (2 ^ H.longBits : Nat)).toNat = 2 ^ H.longBits - 1 := by
      rw [none_, Int.emod_eq_add_self_emod, Int.emod_eq_of_lt (by omega) (by omega)]
      omega
    rw [value, if_pos (by omega)]
  · have value : (H.pmpNapotGrain % (2 ^ H.longBits : Nat)).toNat = grain := by
      rw [eq, Int.emod_eq_of_lt (by omega) (by omega), Int.toNat_natCast]
    have beyond : H.longBits < grain := by
      omega
    rw [value, eq, Int.toNat_natCast, if_pos (by omega), Nat.max_eq_right (by omega)]
    exact .inr ⟨by omega, rfl, beyond, multiple.resolve_left (by omega)⟩

theorem hold_ungrained_iff {lo hi : Nat} (small : thisAddr < 2 ^ H.longBits) :
    H.Hold (pmpDecodeNapot H thisAddr (2 ^ H.longBits - 1)) lo hi ↔
      lo = 0 ∧ H.addressSpace ≤ hi := by
  have pos := H.addressSpace_pos
  have ge := H.longBits_ge
  have same : (2 ^ H.longBits - 1) % H.longBits = (H.longBits - 1) % H.longBits := by
    rcases H.longBits_eq with eq | eq <;> rw [eq] <;> decide
  have ne : 2 ^ H.longBits - 1 ≠ H.longBits := by
    rcases H.longBits_eq with eq | eq <;> rw [eq] <;> decide
  have zero : blockStart thisAddr (H.longBits - 1) = 0 :=
    blockStart_eq_zero (by rwa [Nat.sub_add_cancel (by omega)])
  have whole : H.addressSpace ∣ 0 + 2 ^ (H.longBits - 1 + 3) := by
    rw [Nat.zero_add]
    exact Nat.pow_dvd_pow 2 (H.pmpaddrBits_le.trans (by omega))
  rw [pmpDecodeNapot_congr ne (by omega) same]
  obtain ⟨first, last⟩ := pmpDecodeNapot_reached (show H.longBits - 1 < H.longBits by omega) small
    (by rw [zero]; exact Nat.two_pow_pos _)
  rw [zero] at first last
  rw [pred_mod_eq pos, if_pos (mod_eq_zero_of_dvd whole)] at last
  exact hold_of_all_iff first last

theorem hold_overgrained_iff (small : thisAddr < H.addressSpace) (beyond : H.longBits < grain)
    (multiple : grain % H.longBits = 0) :
    H.Hold (pmpDecodeNapot H thisAddr grain) 0 (2 ^ (grain + 3)) ↔ H.addressSpace ≤ 8 := by
  have pos := H.addressSpace_pos
  have ge := H.longBits_ge
  have wide := small.trans_le H.addressSpace_le
  have covers : H.addressSpace ≤ 2 ^ (grain + 3) :=
    H.addressSpace_le.trans (Nat.pow_le_pow_right (by decide) (by omega))
  have word : 32 < 2 ^ H.longBits :=
    (show 32 < 2 ^ 32 by decide).trans_le (Nat.pow_le_pow_right (by decide) ge)
  rw [pmpDecodeNapot_congr beyond.ne' (by omega : 0 ≠ H.longBits)
    (multiple.trans (zero_mod _).symm)]
  have aligned : 8 ∣ blockStart thisAddr 0 := @blockStart_aligned thisAddr 0
  constructor
  · intro hold
    by_contra more
    have bottom := ((hold 0 pos).mpr ⟨Nat.le_refl 0, by omega⟩).1
    have top := ((hold (H.addressSpace - 1) (by omega)).mpr ⟨Nat.zero_le _, by omega⟩).2
    by_cases reached : blockStart thisAddr 0 < 2 ^ H.longBits
    · obtain ⟨first, last⟩ := pmpDecodeNapot_reached (by omega : 0 < H.longBits) wide reached
      have zero : blockStart thisAddr 0 % H.addressSpace = 0 := by omega
      rw [last, ← mod_add_mod, ← mod_add_mod (blockStart _ _), zero, mod_add_mod,
        pred_mod_eq pos, show 0 + 2 ^ (0 + 3) = 8 from rfl, mod_eq_of_lt (by omega)] at top
      rw [if_neg (by decide)] at top
      omega
    · rw [pmpDecodeNapot_beyond (by omega) wide (by omega)] at bottom
      rw [mod_eq_of_lt (by omega)] at bottom
      omega
  · intro le
    have dvd : H.addressSpace ∣ 8 := by
      refine Nat.pow_dvd_pow 2 (n := 3) ?_
      exact (Nat.pow_le_pow_iff_right (a := 2) (by decide)).mp le
    have start : blockStart thisAddr 0 ≤ 4 * thisAddr :=
      Nat.mul_le_mul_left 4 (div_mul_le_self _ _)
    obtain ⟨first, last⟩ := pmpDecodeNapot_reached (by omega : 0 < H.longBits) wide (by omega)
    rw [mod_eq_zero_of_dvd (dvd.trans aligned)] at first
    have block : (blockStart thisAddr 0 + 2 ^ (0 + 3)) % H.addressSpace = 0 :=
      mod_eq_zero_of_dvd (Nat.dvd_add (dvd.trans aligned) dvd)
    rw [pred_mod_eq pos, if_pos block] at last
    exact hold_all first last covers

theorem hold_napot_iff (possible : GrainPossible H.pmpNapotGrain)
    (small : thisAddr < H.addressSpace) :
    H.Hold (pmpDecodeNapot H thisAddr (napotOf H thisAddr)) (H.napotStart thisAddr)
        (H.napotStart thisAddr + 2 ^ (H.regionGrain thisAddr + 3)) ↔
      H.Decodes .napot prevAddr thisAddr := by
  have wide := small.trans_le H.addressSpace_le
  have start : H.napotStart thisAddr = blockStart thisAddr (H.regionGrain thisAddr) := rfl
  unfold Decodes
  dsimp only
  by_cases regular : H.RegularGrain thisAddr
  · have set : H.privilege111 = true → 0 ≤ H.pmpNapotGrain ∧ H.pmpNapotGrain ≤ H.longBits := by
      intro since
      have le := regular.2
      unfold regionGrain at le
      rw [if_pos since] at le
      have := regular.1 since
      omega
    rw [if_pos regular, (napotOf_eq set).1, start]
    rcases Nat.lt_or_eq_of_le regular.2 with less | width
    · exact hold_block_iff less wide
    · -- the region covers everything that a target word reaches
      have zero : blockStart thisAddr (H.regionGrain thisAddr) = 0 :=
        blockStart_eq_zero (wide.trans_le (Nat.pow_le_pow_right (by decide) (by omega)))
      have covers : H.addressSpace ≤ 2 ^ (H.regionGrain thisAddr + 3) :=
        H.addressSpace_le.trans (Nat.pow_le_pow_right (by decide) (by omega))
      unfold pmpDecodeNapot
      rw [if_pos width, hold_of_all_iff (zero_mod _) allOnes_mod]
      omega
  · rw [if_neg regular]
    obtain ⟨none_, napot⟩ | ⟨nonneg, napot, beyond, multiple⟩ := napotOf_irregular possible regular
    · rw [if_pos (by omega), napot, hold_ungrained_iff wide]
      omega
    · have zero : blockStart thisAddr (H.regionGrain thisAddr) = 0 :=
        blockStart_eq_zero (wide.trans_le (Nat.pow_le_pow_right (by decide) (by omega)))
      rw [if_neg (by omega), napot, start, zero, Nat.zero_add]
      exact hold_overgrained_iff small beyond multiple

theorem hold_tor_iff : H.Hold (ruleBounds H .tor prevAddr thisAddr) (4 * prevAddr) (4 * thisAddr) ↔
      H.Decodes .tor prevAddr thisAddr := by
  unfold Hold Decodes ruleBounds
  rw [shiftLeft_two, shiftLeft_two, toUlong_mod, pred_mod, add_mod, toUlong_mod, ← add_mod]
  exact cyclic_agree_iff addressSpace_pos

theorem hold_na4_iff :
    H.Hold (ruleBounds H .na4 prevAddr thisAddr) (4 * thisAddr) (4 * thisAddr + 4) ↔
      H.Decodes .na4 prevAddr thisAddr := by
  have last : H.toUlong (H.toUlong (H.toUlong (4 * thisAddr) + 4) + H.allOnes) % H.addressSpace =
      (4 * thisAddr + 4 + (H.addressSpace - 1)) % H.addressSpace := by
    rw [pred_mod, ← mod_add_mod, toUlong_mod, mod_add_mod,
      ← mod_add_mod (H.toUlong _ + 4), ← mod_add_mod (H.toUlong _), toUlong_mod,
      mod_add_mod, Nat.add_assoc, mod_add_mod, ← Nat.add_assoc]
  unfold Hold Decodes ruleBounds
  dsimp only
  rw [shiftLeft_two, toUlong_mod, last]
  have aligned : 2 ^ 2 ∣ 4 * thisAddr := Nat.dvd_mul_right 4 thisAddr
  exact aligned_agree_iff aligned

theorem hold_ruleBounds_iff {aField : PmpAmatch} (possible : GrainPossible H.pmpNapotGrain)
    (active : aField ≠ .off) (small : thisAddr < H.addressSpace) :
    H.Hold (ruleBounds H aField prevAddr thisAddr) (H.region aField prevAddr thisAddr).lo
        (H.region aField prevAddr thisAddr).hi ↔ H.Decodes aField prevAddr thisAddr := by
  cases aField with
  | off => exact absurd rfl active
  | tor => exact hold_tor_iff
  | na4 => exact hold_na4_iff
  | napot => exact hold_napot_iff possible small

theorem pmpIsInRange_eq_one_iff (s : PmpState) (index y : Nat) : pmpIsInRange H s index y = 1 ↔
      (s.addr index).sa ≤ y % H.addressSpace ∧ y % H.addressSpace ≤ (s.addr index).ea := by
  unfold pmpIsInRange
  dsimp only
  rw [and_pmpAddrMask]
  split
  next inside => exact iff_of_true rfl inside
  next outside => exact iff_of_false (by decide) outside

theorem pmpIsInRange_pmpUpdateRule (s : PmpState) (index y : Nat) :
    pmpIsInRange H (pmpUpdateRule H s index) index y = 1 ↔
      (ruleBounds H (s.pmp index).aField (s.prevAddr index) (s.pmp index).addrReg).1 %
          H.addressSpace ≤ y % H.addressSpace ∧
        y % H.addressSpace ≤
          (ruleBounds H (s.pmp index).aField (s.prevAddr index) (s.pmp index).addrReg).2 %
            H.addressSpace := by
  rw [pmpIsInRange_eq_one_iff]
  unfold pmpUpdateRule
  dsimp only
  rw [Function.update_self, and_pmpAddrMask, and_pmpAddrMask]

def InRangeBelow (H : PmpHart) (s : PmpState) (index bound : Nat) : Prop :=
  ∀ y < bound, pmpIsInRange H (pmpUpdateRule H s index) index y = 1 ↔
    (H.region (s.pmp index).aField (s.prevAddr index) (s.pmp index).addrReg).Mem y

/-- After `pmp_update_rule`, exactly the addresses of the region are in range: among those
that the mask leaves, and among all that a target word holds. -/
theorem inRange_iff_decodes (s : PmpState) (index : Nat)
    (possible : GrainPossible H.pmpNapotGrain) (active : (s.pmp index).aField ≠ .off)
    (thisSmall : (s.pmp index).addrReg < H.addressSpace) :
    (InRangeBelow H s index H.addressSpace ↔
      H.Decodes (s.pmp index).aField (s.prevAddr index) (s.pmp index).addrReg) ∧
    (InRangeBelow H s index (2 ^ H.longBits) ↔
      H.Decodes (s.pmp index).aField (s.prevAddr index) (s.pmp index).addrReg ∧ H.MaskHarmless
          (H.region (s.pmp index).aField (s.prevAddr index) (s.pmp index).addrReg)) := by
  have decodes := @hold_ruleBounds_iff H (s.prevAddr index) _ _ possible active thisSmall
  have masked : InRangeBelow H s index H.addressSpace ↔
      H.Decodes (s.pmp index).aField (s.prevAddr index) (s.pmp index).addrReg := by
    rw [← decodes]
    refine forall₂_congr fun y below => ?_
    rw [pmpIsInRange_pmpUpdateRule, mod_eq_of_lt below]
    exact Iff.rfl
  refine ⟨masked, ?_⟩
  rw [← masked]
  generalize region_eq :
    H.region (s.pmp index).aField (s.prevAddr index) (s.pmp index).addrReg = region
  have pos := H.addressSpace_pos
  have le := H.addressSpace_le
  have wraps (y : Nat) : pmpIsInRange H (pmpUpdateRule H s index) index (y % H.addressSpace) = 1 ↔
      pmpIsInRange H (pmpUpdateRule H s index) index y = 1 := by
    rw [pmpIsInRange_pmpUpdateRule, pmpIsInRange_pmpUpdateRule, mod_mod]
  have split : InRangeBelow H s index (2 ^ H.longBits) ↔ InRangeBelow H s index H.addressSpace ∧
        ∀ y < 2 ^ H.longBits, region.lo ≤ y % H.addressSpace ∧ y % H.addressSpace < region.hi ↔
          region.lo ≤ y ∧ y < region.hi := by
    unfold InRangeBelow
    rw [region_eq]
    constructor
    · intro exact_
      refine ⟨fun y below => exact_ y (below.trans_le le), fun y below => ?_⟩
      exact ((exact_ _ ((mod_lt y pos).trans_le le)).symm.trans (wraps y)).trans
        (exact_ y below)
    · rintro ⟨exact_, periodic⟩ y below
      exact ((wraps y).symm.trans (exact_ _ (mod_lt y pos))).trans (periodic y below)
  rw [split]
  refine and_congr_right fun _ => ?_
  by_cases full : H.pmpaddrBits = H.longBits
  · refine iff_of_true (fun y below => ?_) (.inl full)
    have same : H.addressSpace = 2 ^ H.longBits := congrArg (2 ^ ·) full
    rw [mod_eq_of_lt (same ▸ below)]
  · have cut : H.addressSpace < 2 ^ H.longBits :=
      Nat.pow_lt_pow_right (by decide) (by have := H.pmpaddrBits_le; omega)
    rw [periodic_iff pos cut addressSpace_dvd]
    exact (or_iff_right full).symm

end PmpHart

def ungrainedHart : PmpHart where
  longBits := 32
  pmpaddrBits := 32
  pmpEntryCount := 16
  pmpNapotGrain := -1
  privilege111 := true
  smepmp := false
  longBits_eq := PmpHart.longBits_32
  pmpaddrBits_pos := by decide
  pmpaddrBits_le := by decide

def firstEntry (cfg addr : Nat) : PmpState where
  pmp := fun _ => ⟨addr, cfg⟩
  addr := fun _ => ⟨0, 0⟩
  numRules := 0
  mseccfg := ⟨false, false, false⟩

/-- Four bytes at `0x1000`. -/
theorem inRange_firstWord :
    (ungrainedHart.InRangeBelow (firstEntry 0x17 0x400) 0 ungrainedHart.addressSpace ↔
      ungrainedHart.Decodes .na4 0 0x400) ∧
    (ungrainedHart.InRangeBelow (firstEntry 0x17 0x400) 0 (2 ^ 32) ↔
      ungrainedHart.Decodes .na4 0 0x400 ∧
        ungrainedHart.MaskHarmless (ungrainedHart.region .na4 0 0x400)) :=
  PmpHart.inRange_iff_decodes (firstEntry 0x17 0x400) 0 (.inl rfl) (by decide) (by decide)

/-- Without a grain, a NAPOT entry of eight bytes covers all addresses. -/
theorem napot_covers_all :
    ¬∀ (H : PmpHart) (s : PmpState) (index : Nat), GrainPossible H.pmpNapotGrain →
      (s.pmp index).aField ≠ .off → (s.pmp index).addrReg < H.addressSpace →
      H.InRangeBelow s index (2 ^ H.longBits) := by
  intro always
  have inRange := always ungrainedHart (firstEntry 0x1F 0x400) 0 (.inl rfl) (by decide) (by decide)
    0 (by decide)
  exact absurd (inRange.mp (by decide)).1 (by decide)

end Tlib.Riscv
