import Mathlib.Data.List.Range
import Mathlib.Logic.Function.Basic

/-!
Contract: the overlap masks of the MPU regions of the Cortex-R52.

Owns: the writes of the region registers with their unmark and mark loops, the lookup that relies on
the masks, and the writes that keep the masks exact.
-/

namespace Tlib.Arm.MpuOverlap

open Function List
open BitVec hiding or_assoc

def maxMpuRegions : Nat := 24

structure Region where
  (addressStart addressLimit : BitVec 32)
  (accessPermissionBits shareabilityAttribute : BitVec 2)
  mairAttribute : BitVec 3
  (enabled executeNever : Bool)
  overlappingRegionsMask : BitVec 64

/-- One array of regions, and how many of them are implemented. -/
structure Bank where
  regions : Nat → Region
  count : Nat
  count_le : count ≤ maxMpuRegions

inductive RegisterType where
  | baseAddress
  | limitAddress

def Region.write (region : Region) (value : BitVec 32) : RegisterType → Region
  | .baseAddress =>
    { region with
      addressStart := value &&& ~~~0x3f
      executeNever := value.getLsbD 0
      accessPermissionBits := value.extractLsb' 1 2
      shareabilityAttribute := value.extractLsb' 3 2 }
  | .limitAddress =>
    { region with
      enabled := value.getLsbD 0
      mairAttribute := value.extractLsb' 1 3
      addressLimit := value ||| 0x3f }

/-- The three comparisons of the mark loop. -/
def Region.hits (i base : Region) : Bool :=
  (decide (base.addressStart ≤ i.addressStart) && decide (i.addressStart ≤ base.addressLimit)) ||
    (decide (base.addressStart ≤ i.addressLimit) && decide (i.addressLimit ≤ base.addressLimit)) ||
    (decide (i.addressStart < base.addressStart) && decide (base.addressStart < i.addressLimit))

def bit (index : Nat) : BitVec 64 := 1#64 <<< index

/-- The indices that the unmark loop uses; no mask outlasts 64 turns. -/
def unmarkedIndices : Nat → BitVec 64 → Nat → List Nat
  | 0, _, _ => []
  | turns + 1, mask, index =>
    if mask = 0 then []
    else if mask.getLsbD 0 then index :: unmarkedIndices turns (mask <<< 1) (index + 1)
    else unmarkedIndices turns (mask <<< 1) (index + 1)

def unmark (regions : Nat → Region) (base mask : BitVec 64) : Nat → Region :=
  (unmarkedIndices 64 mask 0).foldl (fun regions index =>
    update regions index { regions index with
      overlappingRegionsMask := (regions index).overlappingRegionsMask ^^^ base }) regions

/-- The mark loop reaches the region and marks it. -/
def marks (regions : Nat → Region) (count base index : Nat) : Bool :=
  decide (index < count) && (regions index).enabled && decide (index ≠ base) &&
    (regions index).hits (regions base)

def overlappingMask (regions : Nat → Region) (count base : Nat) : BitVec 64 :=
  (range count).foldl
    (fun mask index => if marks regions count base index then mask ||| bit index else mask) 0

def mark (regions : Nat → Region) (count base : Nat) : Nat → Region := fun index =>
  if index = base then
    { regions base with overlappingRegionsMask := overlappingMask regions count base }
  else if marks regions count base index then
    { regions index with
      overlappingRegionsMask := (regions index).overlappingRegionsMask ||| bit base }
  else regions index

namespace Bank

variable (bank : Bank)

def mask (index : Nat) : BitVec 64 := (bank.regions index).overlappingRegionsMask

/-- `set_pmsav8_region` -/
def setRegion (type : RegisterType) (index : Nat) (value : BitVec 32) : Bank :=
  if maxMpuRegions ≤ index then bank
  else
    let written := update bank.regions index ((bank.regions index).write value type)
    { bank with regions := mark (unmark written (bit index) (bank.mask index)) bank.count index }

/-- `hyp_pmsav8_regions_bitmask_enable` -/
def bitmaskEnable (bitmask : BitVec 32) : Bank :=
  { bank with
    regions := fun index =>
      if index < maxMpuRegions then
        { bank.regions index with enabled := bitmask.getLsbD index }
      else bank.regions index }

end Bank

/-! ### The lookup -/

def Region.Contains (region : Region) (address : Nat) : Prop :=
  region.addressStart.toNat ≤ address ∧ address ≤ region.addressLimit.toNat

instance (region : Region) (address : Nat) : Decidable (region.Contains address) :=
  inferInstanceAs (Decidable (_ ∧ _))

namespace Bank

variable (bank : Bank)

/-- The region takes part at the address. -/
def In (address index : Nat) : Prop :=
  (bank.regions index).enabled = true ∧ (bank.regions index).Contains address

instance (address index : Nat) : Decidable (bank.In address index) :=
  inferInstanceAs (Decidable (_ ∧ _))

/-- The loop of `find_first_matching_region_for_addr_masked`, with the number of turns left. -/
def findLoop (address : Nat) : Nat → BitVec 64 → Nat → Option Nat
  | 0, _, _ => none
  | left + 1, mask, index =>
    if mask = 0 then none
    else if mask.getLsbD 0 ∧ bank.In address index then some index
    else findLoop address left (mask >>> 1) (index + 1)

def findFirstMasked (address startIndex : Nat) (mask : BitVec 64) : Option Nat :=
  bank.findLoop address (bank.count - startIndex) (mask >>> startIndex) startIndex

end Bank

inductive MpuResult where
  | found (index : Nat)
  | notFound
  | overlap

/-- `pmsav8_mpu_find_matching_region` -/
def Bank.findMatchingRegion (bank : Bank) (address : Nat) : MpuResult :=
  match bank.findFirstMasked address 0 (allOnes 64) with
  | none => .notFound
  | some index =>
    if bank.mask index ≠ 0 ∧ (bank.findFirstMasked address (index + 1) (bank.mask index)).isSome then
      .overlap
    else .found index

/-! ### What is demanded -/

def Overlap (i j : Region) : Prop := ∃ address, i.Contains address ∧ j.Contains address

namespace Bank

variable (bank : Bank)

def Exact : Prop :=
  ∀ i j, i ≠ j → (bank.regions i).enabled = true → (bank.regions j).enabled = true →
    ((bank.mask i).getLsbD j = true ↔ Overlap (bank.regions i) (bank.regions j))

/-- The result says how many enabled regions there are at the address. -/
def LookupRight (address : Nat) : MpuResult → Prop
  | .found index => ∀ i, bank.In address i ↔ i = index
  | .notFound => ∀ i, ¬bank.In address i
  | .overlap => ∃ i j, i ≠ j ∧ bank.In address i ∧ bank.In address j

structure Sound : Prop where
  exact : bank.Exact
  lookup : ∀ address, bank.LookupRight address (bank.findMatchingRegion address)

end Bank

/-! ### Masks after a write -/

theorem getLsbD_bit {index : Nat} (less : index < 64) (i : Nat) :
    (bit index).getLsbD i = decide (i = index) := by
  rw [bit, getLsbD_shiftLeft, getLsbD_one, Bool.eq_iff_iff]
  simp
  omega

theorem unmarkedIndices_shifted (turns index : Nat) (mask : BitVec 64) :
    unmarkedIndices turns (mask <<< 1) index = [] := by
  induction turns generalizing index mask with
  | zero => rfl
  | succ turns ih =>
    rw [unmarkedIndices, getLsbD_shiftLeft, ih]
    simp

theorem unmarkedIndices_eq (mask : BitVec 64) :
    unmarkedIndices 64 mask 0 = if mask.getLsbD 0 then [0] else [] := by
  rw [unmarkedIndices, unmarkedIndices_shifted]
  by_cases empty : mask = 0
  · simp [empty]
  · rw [if_neg empty]

theorem getLsbD_overlappingMask {regions : Nat → Region} {count base : Nat} (fits : count ≤ 64)
    (j : Nat) : (overlappingMask regions count base).getLsbD j = marks regions count base j := by
  have part : ∀ n ≤ 64, ((range n).foldl (fun mask index =>
      if marks regions count base index then mask ||| bit index else mask) 0).getLsbD j =
      (decide (j < n) && marks regions count base j) := by
    intro n le
    induction n with
    | zero => simp
    | succ n ih =>
      rw [range_succ, foldl_append, foldl_cons, foldl_nil]
      split
      · next marked =>
        rw [getLsbD_or, ih (by omega), getLsbD_bit (by omega)]
        by_cases same : j = n
        · simp [same, marked]
        · simp [same, show j < n + 1 ↔ j < n by omega]
      · next unmarked =>
        rw [ih (by omega)]
        by_cases same : j = n
        · simp [same, unmarked]
        · simp [show j < n + 1 ↔ j < n by omega]
  rw [overlappingMask, part count fits, marks]
  cases decide (j < count) <;> simp

namespace Bank

variable {bank : Bank} {type : RegisterType} {k : Nat} {value : BitVec 32}

/-- The region that is written, with its new fields. -/
def written (bank : Bank) (type : RegisterType) (k : Nat) (value : BitVec 32) : Nat → Region :=
  update bank.regions k ((bank.regions k).write value type)

/-- The mask that the unmark loop leaves. -/
def leftMask (bank : Bank) (k i : Nat) : BitVec 64 :=
  if i = 0 ∧ (bank.mask k).getLsbD 0 = true then bank.mask i ^^^ bit k else bank.mask i

theorem unmark_at (i : Nat) : unmark (bank.written type k value) (bit k) (bank.mask k) i =
      { bank.written type k value i with overlappingRegionsMask := bank.leftMask k i } := by
  have kept : (bank.written type k value i).overlappingRegionsMask = bank.mask i := by
    unfold written
    by_cases same : i = k
    · rw [same, update_self]
      cases type <;> rfl
    · rw [update_of_ne same]
      rfl
  unfold unmark leftMask
  rw [unmarkedIndices_eq]
  by_cases named : (bank.mask k).getLsbD 0 = true
  · rw [if_pos named]
    by_cases first : i = 0
    · subst first
      rw [if_pos ⟨rfl, named⟩, foldl_cons, foldl_nil, update_self, kept]
    · rw [if_neg fun both => first both.1, foldl_cons, foldl_nil, update_of_ne first,
        ← kept]
  · rw [if_neg named, if_neg fun both => named both.2, ← kept]
    rfl

theorem marks_unmark : marks (unmark (bank.written type k value) (bit k) (bank.mask k)) =
      marks (bank.written type k value) := by
  funext count base index
  simp only [marks, Region.hits, unmark_at]

theorem setRegion_at (less : k < maxMpuRegions) (i : Nat) :
    (bank.setRegion type k value).regions i = { bank.written type k value i with
        overlappingRegionsMask :=
          if i = k then
            overlappingMask (unmark (bank.written type k value) (bit k) (bank.mask k)) bank.count k
          else if marks (bank.written type k value) bank.count k i then bank.leftMask k i ||| bit k
          else bank.leftMask k i } := by
  rw [setRegion, if_neg (Nat.not_le.mpr less)]
  show mark (unmark (bank.written type k value) _ _) _ _ _ = _
  unfold mark
  rw [marks_unmark]
  by_cases same : i = k
  · rw [if_pos same, if_pos same, same, unmark_at]
  · rw [if_neg same, if_neg same, unmark_at]
    split <;> rfl

/-- The masks name each other. -/
def Symmetric (bank : Bank) : Prop :=
  ∀ i j, (bank.mask i).getLsbD j = (bank.mask j).getLsbD i

theorem setRegion_mask (less : k < maxMpuRegions) (symmetric : bank.Symmetric)
    (named : ∀ i, i ≠ 0 → (bank.mask k).getLsbD i = false) (i j : Nat) :
    ((bank.setRegion type k value).mask i).getLsbD j =
      if i = k then marks (bank.written type k value) bank.count k j
      else if j = k then marks (bank.written type k value) bank.count k i
      else (bank.mask i).getLsbD j := by
  have small : k < 64 := less.trans (by decide)
  have count : bank.count ≤ 64 := bank.count_le.trans (by decide)
  have left : (bank.leftMask k i).getLsbD j = if j = k then false else (bank.mask i).getLsbD j := by
    have first := symmetric 0 k
    have other := named i
    rw [symmetric k i] at other
    unfold leftMask
    by_cases here : j = k
    · subst here
      split <;> simp_all [getLsbD_bit small]
      by_cases zero : i = 0 <;> simp_all
    · split <;> simp [getLsbD_bit small, here]
  rw [mask, setRegion_at less]
  dsimp only
  by_cases same : i = k
  · rw [if_pos same, if_pos same, getLsbD_overlappingMask count, marks_unmark]
  · rw [if_neg same, if_neg same]
    by_cases marked : marks (bank.written type k value) bank.count k i = true
    · rw [if_pos marked, getLsbD_or, left, getLsbD_bit small]
      by_cases here : j = k
      · simp [here, marked]
      · simp [here]
    · rw [if_neg marked, left, Bool.not_eq_true _ |>.mp marked]

/-! ### What a write keeps -/

/-- The comparisons are not misled by a region of which the limit is below the start. -/
def ComparesRight (i base : Region) : Prop :=
  (base.addressLimit < base.addressStart →
    ¬(i.addressStart < base.addressStart ∧ base.addressStart < i.addressLimit)) ∧
  (i.addressLimit < i.addressStart →
    ¬(base.addressStart ≤ i.addressStart ∧ i.addressStart ≤ base.addressLimit) ∧
    ¬(base.addressStart ≤ i.addressLimit ∧ i.addressLimit ≤ base.addressLimit))

theorem hits_iff {i base : Region} (right : ComparesRight i base) :
    i.hits base = true ↔ Overlap base i := by
  have split : i.hits base = true ↔
      (base.addressStart ≤ i.addressStart ∧ i.addressStart ≤ base.addressLimit) ∨
      (base.addressStart ≤ i.addressLimit ∧ i.addressLimit ≤ base.addressLimit) ∨
      (i.addressStart < base.addressStart ∧ base.addressStart < i.addressLimit) := by
    simp [Region.hits, or_assoc]
  rw [split]
  simp only [ComparesRight, Overlap, Region.Contains, le_def, lt_def] at right ⊢
  constructor
  · rintro (⟨low, high⟩ | ⟨low, high⟩ | ⟨low, high⟩)
    · exact ⟨i.addressStart.toNat, ⟨low, high⟩, le_rfl, by omega⟩
    · exact ⟨i.addressLimit.toNat, ⟨low, high⟩, by omega, le_rfl⟩
    · exact ⟨base.addressStart.toNat, ⟨le_rfl, by omega⟩, by omega, by omega⟩
  · rintro ⟨address, ⟨_, _⟩, _, _⟩
    omega

/-- What a run keeps. -/
structure Kept (bank : Bank) : Prop where
  inside : ∀ i, (bank.regions i).enabled = true → i < bank.count
  symmetric : bank.Symmetric
  exact : bank.Exact

/-- A write that marks and unmarks what it should. -/
structure WriteFits (bank : Bank) (type : RegisterType) (k : Nat) (value : BitVec 32) : Prop where
  implemented : k < bank.count
  named : ∀ i, i ≠ 0 → (bank.mask k).getLsbD i = false
  compares : ((bank.regions k).write value type).enabled = true →
    ∀ i, i ≠ k → (bank.regions i).enabled = true →
      ComparesRight (bank.regions i) ((bank.regions k).write value type)

theorem overlap_symm {i j : Region} : Overlap i j ↔ Overlap j i :=
  exists_congr fun _ => and_comm

theorem WriteFits.kept (fits : WriteFits bank type k value) (kept : bank.Kept) :
    (bank.setRegion type k value).Kept := by
  have less : k < maxMpuRegions := fits.implemented.trans_le bank.count_le
  have mask_eq := @setRegion_mask bank type k value less kept.symmetric fits.named
  have enabled_eq (i : Nat) : ((bank.setRegion type k value).regions i).enabled =
      (bank.written type k value i).enabled := by rw [setRegion_at less]
  have overlap_eq (i j : Nat) : Overlap ((bank.setRegion type k value).regions i)
      ((bank.setRegion type k value).regions j) =
      Overlap (bank.written type k value i) (bank.written type k value j) := by
    rw [setRegion_at less, setRegion_at less]
    rfl
  have self : bank.written type k value k = (bank.regions k).write value type := update_self ..
  have other {i : Nat} (ne : i ≠ k) : bank.written type k value i = bank.regions i :=
    update_of_ne ne ..
  have marked {i : Nat} (ne : i ≠ k) (enabled : (bank.written type k value k).enabled = true)
      (enabled' : (bank.written type k value i).enabled = true) :
      marks (bank.written type k value) bank.count k i = true ↔
        Overlap (bank.written type k value k) (bank.written type k value i) := by
    rw [other ne] at enabled'
    rw [self] at enabled
    rw [← hits_iff (self ▸ other ne ▸ fits.compares enabled i ne enabled'), marks, other ne,
      enabled']
    simp [kept.inside i enabled', ne]
  refine ⟨fun i enabled => ?_, fun i j => ?_, fun i j apart enabled enabled' => ?_⟩
  · rw [enabled_eq] at enabled
    rw [setRegion, if_neg (Nat.not_le.mpr less)]
    by_cases same : i = k
    · exact same ▸ fits.implemented
    · exact kept.inside i (other same ▸ enabled)
  · rw [mask_eq, mask_eq]
    by_cases iSame : i = k
    · by_cases jSame : j = k
      · rw [iSame, jSame]
      · simp [iSame, jSame]
    · by_cases jSame : j = k
      · simp [iSame, jSame]
      · simpa [iSame, jSame] using kept.symmetric i j
  · rw [enabled_eq] at enabled enabled'
    rw [mask_eq, overlap_eq]
    by_cases iSame : i = k
    · rw [if_pos iSame]
      subst iSame
      exact marked apart.symm enabled enabled'
    · rw [if_neg iSame]
      by_cases jSame : j = k
      · rw [if_pos jSame, overlap_symm]
        subst jSame
        exact marked iSame enabled' enabled
      · rw [if_neg jSame, other iSame, other jSame]
        exact kept.exact i j apart (other iSame ▸ enabled) (other jSame ▸ enabled')

/-- The bitmap enables implemented regions only, and pairs of regions only as they are marked. -/
structure EnableFits (bank : Bank) (bitmask : BitVec 32) : Prop where
  implemented : ∀ i < maxMpuRegions, bitmask.getLsbD i = true → i < bank.count
  marked : ∀ i < maxMpuRegions, ∀ j < maxMpuRegions, i ≠ j →
    bitmask.getLsbD i = true → bitmask.getLsbD j = true →
    ((bank.mask i).getLsbD j = true ↔ Overlap (bank.regions i) (bank.regions j))

theorem EnableFits.kept {bitmask : BitVec 32} (fits : EnableFits bank bitmask) (kept : bank.Kept) :
    (bank.bitmaskEnable bitmask).Kept := by
  have mask_eq (i : Nat) : (bank.bitmaskEnable bitmask).mask i = bank.mask i := by
    unfold mask bitmaskEnable
    dsimp only
    split <;> rfl
  have overlap_eq (i j : Nat) : Overlap ((bank.bitmaskEnable bitmask).regions i)
      ((bank.bitmaskEnable bitmask).regions j) = Overlap (bank.regions i) (bank.regions j) := by
    unfold bitmaskEnable
    dsimp only
    split <;> split <;> rfl
  have small {i : Nat} (enabled : ((bank.bitmaskEnable bitmask).regions i).enabled = true) :
      i < maxMpuRegions ∧ bitmask.getLsbD i = true := by
    unfold bitmaskEnable at enabled
    dsimp only at enabled
    by_cases less : i < maxMpuRegions
    · rw [if_pos less] at enabled
      exact ⟨less, enabled⟩
    · rw [if_neg less] at enabled
      exact absurd ((kept.inside i enabled).trans_le bank.count_le) less
  refine ⟨fun i enabled => ?_, fun i j => ?_, fun i j apart enabled enabled' => ?_⟩
  · exact fits.implemented i (small enabled).1 (small enabled).2
  · rw [mask_eq, mask_eq]
    exact kept.symmetric i j
  · rw [mask_eq, overlap_eq]
    exact fits.marked i (small enabled).1 j (small enabled').1 apart (small enabled).2
      (small enabled').2

/-! ### The lookup in such states -/

theorem findLoop_eq (address left index : Nat) (mask : BitVec 64) :
    bank.findLoop address left (mask >>> index) index =
      (range' index left).find? fun i => mask.getLsbD i && decide (bank.In address i) := by
  induction left generalizing index with
  | zero => rfl
  | succ left ih =>
    rw [findLoop, ← shiftRight_add, ih, range'_succ, List.find?_cons]
    by_cases empty : mask >>> index = 0
    · have clear (i : Nat) (le : index ≤ i) : mask.getLsbD i = false := by
        have bit := congrArg (getLsbD · (i - index)) empty
        simpa [Nat.add_sub_cancel' le] using bit
      rw [if_pos empty, clear index le_rfl]
      refine (List.find?_eq_none.mpr fun i member => ?_).symm
      rw [clear i (by simp at member; omega)]
      simp
    · rw [if_neg empty, getLsbD_ushiftRight, Nat.add_zero]
      by_cases found : mask.getLsbD index = true ∧ bank.In address index
      · rw [if_pos found, found.1, decide_eq_true found.2]
        rfl
      · rw [if_neg found]
        have skipped : (mask.getLsbD index && decide (bank.In address index)) = false := by
          simpa using found
        rw [skipped]

theorem Kept.lookup (kept : bank.Kept) (address : Nat) :
    bank.LookupRight address (bank.findMatchingRegion address) := by
  have all (i : Nat) (is : bank.In address i) : i < bank.count ∧ i < 64 :=
    ⟨kept.inside i is.1, (kept.inside i is.1).trans_le (bank.count_le.trans (by decide))⟩
  unfold findMatchingRegion findFirstMasked
  rw [findLoop_eq, Nat.sub_zero]
  cases first : (range' 0 bank.count).find? fun i =>
      (allOnes 64).getLsbD i && decide (bank.In address i) with
  | none =>
    intro i is
    have not := List.find?_range'_eq_none.mp first i (Nat.zero_le i) (by have := (all i is).1; omega)
    rw [getLsbD_allOnes] at not
    simp [is, (all i is).2] at not
  | some f =>
    obtain ⟨here, -, below⟩ := List.find?_range'_eq_some.mp first
    rw [Bool.and_eq_true, decide_eq_true_iff] at here
    dsimp only
    rw [findLoop_eq]
    have others (i : Nat) (ne : i ≠ f) (is : bank.In address i) :
        f < i ∧ (bank.mask f).getLsbD i = true := by
      refine ⟨?_, (kept.exact f i ne.symm here.2.1 is.1).mpr ⟨address, here.2.2, is.2⟩⟩
      by_contra le
      have not := below i (Nat.zero_le i) (by omega)
      rw [getLsbD_allOnes] at not
      simp [is, (all i is).2] at not
    split_ifs with second
    · obtain ⟨i, found⟩ := Option.isSome_iff_exists.mp second.2
      obtain ⟨is, member, -⟩ := List.find?_range'_eq_some.mp found
      rw [Bool.and_eq_true, decide_eq_true_iff] at is
      exact ⟨f, i, by simp at member; omega, here.2, is.2⟩
    · refine fun i => ⟨fun is => ?_, fun same => same ▸ here.2⟩
      by_contra ne
      obtain ⟨above, named⟩ := others i ne is
      refine second ⟨fun empty => by simp [empty] at named, ?_⟩
      rw [List.find?_isSome]
      refine ⟨i, ?_, by simp [named, is]⟩
      have inside := (all i is).1
      simp
      omega

theorem Kept.sound (kept : bank.Kept) : bank.Sound := ⟨kept.exact, kept.lookup⟩

end Bank

/-! ### Runs -/

inductive Write where
  | region (isHyper : Bool) (type : RegisterType) (index : Nat) (value : BitVec 32)
  | hprenr (bitmask : BitVec 32)

/-- Both arrays; the second one is that of EL2. -/
abbrev Mpu := Bool → Bank

def Write.next (mpu : Mpu) : Write → Mpu
  | region isHyper type index value =>
    update mpu isHyper ((mpu isHyper).setRegion type index value)
  | hprenr bitmask => update mpu true ((mpu true).bitmaskEnable bitmask)

def Write.Fits (mpu : Mpu) : Write → Prop
  | region isHyper type index value => (mpu isHyper).WriteFits type index value
  | hprenr bitmask => (mpu true).EnableFits bitmask

def run : Mpu → List Write → Mpu
  | mpu, [] => mpu
  | mpu, write :: rest => run (write.next mpu) rest

/-- All writes of the run fit. -/
def FitRun : Mpu → List Write → Prop
  | _, [] => True
  | mpu, write :: rest => write.Fits mpu ∧ FitRun (write.next mpu) rest

/-- After a reset. -/
def Mpu.Initial (mpu : Mpu) : Prop :=
  ∀ isHyper i, ((mpu isHyper).regions i).enabled = false ∧ (mpu isHyper).mask i = 0

theorem Mpu.Initial.kept {mpu : Mpu} (initial : mpu.Initial) (isHyper : Bool) :
    (mpu isHyper).Kept := by
  refine ⟨fun i enabled => ?_, fun i j => ?_, fun i j _ enabled => ?_⟩
  · exact absurd (enabled.symm.trans (initial isHyper i).1) (by decide)
  · simp [(initial isHyper i).2, (initial isHyper j).2]
  · exact absurd (enabled.symm.trans (initial isHyper i).1) (by decide)

theorem Write.Fits.kept {mpu : Mpu} {write : Write} (fits : write.Fits mpu)
    (kept : ∀ isHyper, (mpu isHyper).Kept) (isHyper : Bool) : (write.next mpu isHyper).Kept := by
  cases write with
  | region array type index value =>
    by_cases same : isHyper = array
    · rw [same, Write.next, update_self]
      exact Bank.WriteFits.kept fits (kept array)
    · rw [Write.next, update_of_ne same]
      exact kept isHyper
  | hprenr bitmask =>
    by_cases same : isHyper = true
    · rw [same, Write.next, update_self]
      exact Bank.EnableFits.kept fits (kept true)
    · rw [Write.next, update_of_ne same]
      exact kept isHyper

theorem run_kept {mpu : Mpu} {writes : List Write} (fits : FitRun mpu writes)
    (kept : ∀ isHyper, (mpu isHyper).Kept) (isHyper : Bool) : (run mpu writes isHyper).Kept := by
  induction writes generalizing mpu with
  | nil => exact kept isHyper
  | cons write rest ih => exact ih fits.2 (fits.1.kept kept)

/-- In every run of writes that fit the masks are exact and the lookups are right. -/
theorem overlaps_exact {mpu : Mpu} (initial : mpu.Initial) {writes : List Write}
    (fits : FitRun mpu writes) (isHyper : Bool) :
    (run mpu writes isHyper).Sound ∧
    ∀ type index value, (run mpu writes isHyper).WriteFits type index value → ∀ i,
      (i ∈ unmarkedIndices 64 ((run mpu writes isHyper).mask index) 0 ↔
        ((run mpu writes isHyper).mask index).getLsbD i = true) ∧
      (i ∈ unmarkedIndices 64 ((run mpu writes isHyper).mask index) 0 →
        i < (run mpu writes isHyper).count) := by
  refine ⟨(run_kept fits initial.kept isHyper).sound, fun type index value write i => ?_⟩
  rw [unmarkedIndices_eq]
  have first : i ≠ 0 → ((run mpu writes isHyper).mask index).getLsbD i = false := write.named i
  have inside := Nat.zero_lt_of_lt write.implemented
  by_cases zero : i = 0
  · subst zero
    split <;> simp_all
  · split <;> simp_all

def resetRegion : Region := ⟨0, 0, 0, 0, 0, false, false, 0⟩

def resetMpu : Mpu := fun _ => ⟨fun _ => resetRegion, 16, by decide⟩

/-- Two regions at the same addresses, the second of which is moved away. -/
def moved : List Write :=
  [.region false .limitAddress 1 0x101, .region false .limitAddress 2 0x101,
    .region false .baseAddress 2 0x200, .region false .limitAddress 2 0x301]

/-- Two regions at the same addresses. -/
def twoRegions : List Write := moved.take 2

theorem twoRegions_fit : FitRun resetMpu twoRegions := by
  refine ⟨⟨by decide, fun i _ => getLsbD_zero, fun _ i _ enabled => by cases enabled⟩,
    ⟨by decide +kernel, fun i _ => ?_, fun _ i _ _ => ?_⟩, trivial⟩
  · have clear : (run resetMpu (moved.take 1) false).mask 2 = 0 := by decide +kernel
    exact (congrArg (getLsbD · i) clear).trans getLsbD_zero
  · -- every region starts at 0, so no limit is below a start
    have start : ((run resetMpu (moved.take 1) false).regions i).addressStart = 0 := by
      show (((resetMpu false).setRegion .limitAddress 1 0x101).regions i).addressStart = 0
      rw [Bank.setRegion_at (by decide)]
      unfold Bank.written
      by_cases first : i = 1
      · rw [first, update_self]
        rfl
      · rw [update_of_ne first]
        rfl
    have other : ((run resetMpu (moved.take 1) false).regions 2).addressStart = 0 := by
      decide +kernel
    refine ⟨fun below => absurd below ?_, fun below => absurd below ?_⟩
    · show ¬ _ < ((run resetMpu (moved.take 1) false).regions 2).addressStart
      rw [other]
      exact BitVec.not_lt_zero
    · show ¬ _ < ((run resetMpu (moved.take 1) false).regions i).addressStart
      rw [start]
      exact BitVec.not_lt_zero

/-- Two regions that share addresses. -/
theorem overlaps_exact_sample : (run resetMpu twoRegions false).Sound ∧
    ((run resetMpu twoRegions false).mask 1).getLsbD 2 = true :=
  ⟨(overlaps_exact (fun _ _ => ⟨rfl, rfl⟩) twoRegions_fit false).1, by decide +kernel⟩

/-- The first region still names the second one, although their ranges are apart. -/
theorem moved_stale :
    ((run resetMpu moved false).mask 1).getLsbD 2 = true ∧ ¬(run resetMpu moved false).Sound := by
  have stale : ((run resetMpu moved false).mask 1).getLsbD 2 = true := by decide +kernel
  have limit : ((run resetMpu moved false).regions 1).addressLimit.toNat = 0x13f := by
    decide +kernel
  have start : ((run resetMpu moved false).regions 2).addressStart.toNat = 0x200 := by
    decide +kernel
  refine ⟨stale, fun sound => ?_⟩
  obtain ⟨address, ⟨-, le⟩, ge, -⟩ :=
    (sound.exact 1 2 (by decide) (by decide +kernel) (by decide +kernel)).mp stale
  omega

end Tlib.Arm.MpuOverlap
