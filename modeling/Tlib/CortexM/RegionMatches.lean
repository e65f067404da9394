import Tlib.CortexM.PageCaching

/-!
Contract: the regions that match an address.

Owns: what a scan of regions comes to when no region matches. Does not own: the permissions and
the attributions that follow from the region that is found.
-/

namespace Tlib.CortexM

open BitVec Bool List

variable {Found : Type} {regions : Regions} {address : Word}

theorem getRegionBase_toNat (address : Word) :
    (getRegionBase address).toNat = address.toNat / 32 * 32 := by
  exact @Library.BitMasks.and_highMask 32 5 address.toNat address.isLt (by decide)

theorem getRegionLimit_eq (address : Word) :
    getRegionLimit address = getRegionBase address + 0x1f#32 := by
  unfold getRegionLimit getRegionBase
  have apart : (address &&& ~~~0x1f#32) &&& 0x1f#32 = 0#32 := by
    rw [BitVec.and_assoc]
    exact and_zero
  rw [add_eq_or_of_and_eq_zero _ _ apart]
  ext i inside
  simp only [getElem_or, getElem_and, getElem_not]
  cases address[i] <;> cases (0x1f#32)[i] <;> rfl

theorem getRegionLimit_toNat (address : Word) :
    (getRegionLimit address).toNat = address.toNat / 32 * 32 + 31 := by
  rw [getRegionLimit_eq, toNat_add, getRegionBase_toNat]
  simp only [toNat_ofNat]
  omega

theorem Regions.outside_base (regions : Regions) (n : Nat) (address : Word) :
    regions.outside n (getRegionBase address) = regions.outside n address := by
  unfold Regions.outside Regions.base Regions.limit
  rw [Bool.eq_iff_iff, or_eq_true, or_eq_true, decide_eq_true_iff, decide_eq_true_iff,
    decide_eq_true_iff, decide_eq_true_iff, lt_def, lt_def, lt_def,
    lt_def, getRegionBase_toNat, getRegionBase_toNat, getRegionLimit_toNat]
  omega

def Regions.matches (regions : Regions) (address : Word) (n : Nat) : Bool :=
  regions.enabled n && !regions.outside n address

def Regions.matching (regions : Regions) (count : Nat) (address : Word) : List Nat :=
  (range count).filter (regions.matches address)

theorem Regions.matches_iff {n : Nat} : regions.matches address n = true ↔
    regions.enabled n = true ∧ regions.base n ≤ address ∧ address ≤ regions.limit n := by
  unfold Regions.matches Regions.outside
  rw [and_eq_true, not_eq_true', or_eq_false_iff, decide_eq_false_iff_not,
    decide_eq_false_iff_not, BitVec.not_lt, BitVec.not_lt]

theorem Regions.mem_matching {count n : Nat} : n ∈ regions.matching count address ↔
    n < count ∧ regions.matches address n = true := by
  unfold Regions.matching
  rw [mem_filter, mem_range]

theorem Regions.matching_base (count : Nat) (address : Word) :
    regions.matching count (getRegionBase address) = regions.matching count address := by
  unfold Regions.matching Regions.matches
  simp [Regions.outside_base]

def foundBy (atFirst : Nat → Found) (atSecond : Found → Found) (start : Found) :
    List Nat → Bool × Found
  | [] => (false, start)
  | [n] => (true, atFirst n)
  | n :: _ :: _ => (false, atSecond (atFirst n))

theorem scanRegions_afterHit {atFirst : Nat → Found} {atSecond : Found → Found} (ns : List Nat)
    {lookup : Lookup Found} (hit : lookup.hit = true) :
    ((scanRegions regions address atFirst atSecond ns lookup).hit,
      (scanRegions regions address atFirst atSecond ns lookup).found) =
      match ns.filter (regions.matches address) with
      | [] => (true, lookup.found)
      | _ :: _ => (false, atSecond lookup.found) := by
  induction ns generalizing lookup with
  | nil => exact Prod.ext hit rfl
  | cons n rest ih =>
    unfold scanRegions
    rw [filter_cons, Regions.matches]
    cases enabled : regions.enabled n with
    | false => exact ih hit
    | true =>
      cases outside : regions.outside n address with
      | true => exact ih hit
      | false => simp [hit]

theorem scanRegions_foundBy {atFirst : Nat → Found} {atSecond : Found → Found} (ns : List Nat)
    {lookup : Lookup Found} (fresh : lookup.hit = false) :
    ((scanRegions regions address atFirst atSecond ns lookup).hit,
      (scanRegions regions address atFirst atSecond ns lookup).found) =
      foundBy atFirst atSecond lookup.found (ns.filter (regions.matches address)) := by
  induction ns generalizing lookup with
  | nil => exact Prod.ext fresh rfl
  | cons n rest ih =>
    unfold scanRegions
    rw [filter_cons, Regions.matches]
    cases enabled : regions.enabled n with
    | false => exact ih fresh
    | true =>
      cases outside : regions.outside n address with
      | true => exact ih fresh
      | false =>
        simp only [fresh, Bool.not_true, false_eq_true, if_false, Bool.not_false,
          Bool.and_self, if_true]
        rw [scanRegions_afterHit rest rfl]
        cases rest.filter (regions.matches address) with
        | nil => rfl
        | cons _ _ => rfl

theorem tryGetRegion_foundBy (count : Nat) (applies : Bool) :
    ((pmsav8IdauSauTryGetRegion regions count address applies).hit,
      (pmsav8IdauSauTryGetRegion regions count address applies).found) =
      foundBy regions.attributed Attributed.overlapping ⟨none, .secure⟩
        (regions.matching count address) :=
  scanRegions_foundBy (range count) rfl

theorem getRegion_foundBy (mpu : Pmsav8) (count : Nat) (address : Word) :
    ((pmsav8GetRegion mpu count address).hit, (pmsav8GetRegion mpu count address).found) =
      foundBy (fun n => ⟨some n, false⟩) (fun _ => ⟨none, true⟩) ⟨none, false⟩
        (mpu.regions.matching count address) := by
  have scan := @scanRegions_foundBy RegionFound mpu.regions address (fun n => ⟨some n, false⟩)
    (fun _ => ⟨none, true⟩) (range count).reverse ⟨false, ⟨none, false⟩, true⟩ rfl
  rw [filter_reverse] at scan
  refine Eq.trans scan ?_
  unfold Regions.matching
  generalize (range count).filter (mpu.regions.matches address) = matched
  match matched with
  | [] => rfl
  | [n] => rfl
  | first :: second :: others =>
    obtain ⟨last, before, rest, reversed⟩ :
        ∃ last before rest, (first :: second :: others).reverse = last :: before :: rest := by
      match equation : (first :: second :: others).reverse with
      | [] => simp at equation
      | [_] => simpa using congrArg length equation
      | last :: before :: rest => exact ⟨last, before, rest, rfl⟩
    rw [reversed]
    rfl

end Tlib.CortexM
