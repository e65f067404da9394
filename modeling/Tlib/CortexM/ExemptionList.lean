import Mathlib.Data.List.Perm.Basic
import Mathlib.Data.Multiset.AddSub
import Tlib.CortexM.AttributionRules

/-!
Contract: the list of implementation-defined exemptions as a multiset of regions.

Owns: the calls that add and remove a region, and what runs of them leave in the array.
-/

namespace Tlib.CortexM

open List

/-- `start` and `end`; the last address belongs to the region. -/
abbrev ExemptionRegion := Word × Word

/-- `MAX_IMPL_DEF_ATTRIBUTION_EXEMPTIONS` -/
def maxExemptions : Nat := 256

instance (exemption : ExemptionRegion) : Decidable (alignedBounds exemption) :=
  inferInstanceAs (Decidable (_ ∧ _))

/-- `tlib_try_add_implementation_defined_exemption_region` -/
def tryAddExemption (regions : List ExemptionRegion) (start last : Word) :
    Bool × List ExemptionRegion :=
  if maxExemptions ≤ regions.length + 1 then (false, regions)
  else if ¬alignedBounds (start, last) then (false, regions)
  else (true, regions ++ [(start, last)])

/-- The index that is found on the regions from `index` on. -/
def tryGetIndex (address : Word) : List ExemptionRegion → Nat → Option Nat
  | [], _ => none
  | region :: rest, index =>
    if region.1 ≤ address ∧ address ≤ region.2 then some index
    else tryGetIndex address rest (index + 1)

theorem tryGetIndex_le {address : Word} {regions : List ExemptionRegion} {startAt index : Nat}
    (found : tryGetIndex address regions startAt = some index) :
    startAt ≤ index ∧ index < startAt + regions.length := by
  induction regions generalizing startAt with
  | nil => cases found
  | cons region rest ih =>
    rw [tryGetIndex] at found
    rw [length_cons]
    split at found
    · cases found
      omega
    · have := ih found
      omega

def searchRemoved (regions : List ExemptionRegion) (start last : Word) (startAt : Nat) :
    Option Nat :=
  if startAt < regions.length then
    match _found : tryGetIndex start (regions.drop startAt) startAt with
    | none => none
    | some index =>
      if regions[index]? = some (start, last) then some index
      else searchRemoved regions start last (index + 1)
  else none
termination_by regions.length - startAt
decreasing_by
  have := tryGetIndex_le _found
  omega

def moveLast (regions : List ExemptionRegion) (index : Nat) : List ExemptionRegion :=
  let lastIndex := regions.length - 1
  (if index ≠ lastIndex then regions.set index (regions.getD lastIndex (0, 0))
    else regions).take lastIndex

/-- `tlib_try_remove_implementation_defined_exemption_region` -/
def tryRemoveExemption (regions : List ExemptionRegion) (start last : Word) :
    Bool × List ExemptionRegion :=
  match searchRemoved regions start last 0 with
  | none => (false, regions)
  | some index => (true, moveLast regions index)

inductive ExemptionCall where
  | add (start last : Word)
  | remove (start last : Word)

def ExemptionCall.run : ExemptionCall → List ExemptionRegion → Bool × List ExemptionRegion
  | .add start last, regions => tryAddExemption regions start last
  | .remove start last, regions => tryRemoveExemption regions start last

def ExemptionCall.specified : ExemptionCall → Multiset ExemptionRegion →
    Bool × Multiset ExemptionRegion
  | .add start last, regions =>
    if alignedBounds (start, last) ∧ regions.card < maxExemptions then
      (true, (start, last) ::ₘ regions)
    else (false, regions)
  | .remove start last, regions =>
    if (start, last) ∈ regions then (true, regions.erase (start, last)) else (false, regions)

def ExemptionCall.Meets : ExemptionCall → List ExemptionRegion → Prop
  | .add start last, regions => alignedBounds (start, last) → regions.length ≠ 255
  | .remove start last, regions => (start, last) ∈ regions → start ≤ last

def runCalls : List ExemptionCall → List ExemptionRegion → List Bool × List ExemptionRegion
  | [], regions => ([], regions)
  | call :: calls, regions =>
    let rest := runCalls calls (call.run regions).2
    ((call.run regions).1 :: rest.1, rest.2)

def specifiedRun : List ExemptionCall → Multiset ExemptionRegion →
    List Bool × Multiset ExemptionRegion
  | [], regions => ([], regions)
  | call :: calls, regions =>
    let rest := specifiedRun calls (call.specified regions).2
    ((call.specified regions).1 :: rest.1, rest.2)

def MeetAll : List ExemptionCall → List ExemptionRegion → Prop
  | [], _ => True
  | call :: calls, regions => call.Meets regions ∧ MeetAll calls (call.run regions).2

section Removals

variable {regions : List ExemptionRegion} {start last : Word}

theorem tryGetIndex_first {address : Word} {startAt j : Nat} {region : ExemptionRegion}
    (before : ∀ index, tryGetIndex address regions startAt = some index → startAt + j < index)
    (here : regions[j]? = some region) : ¬(region.1 ≤ address ∧ address ≤ region.2) := by
  induction regions generalizing startAt j with
  | nil => cases here
  | cons first rest ih =>
    unfold tryGetIndex at before
    split at before
    · have := before startAt rfl
      omega
    · rename_i apart
      cases j with
      | zero =>
        cases here
        exact apart
      | succ j =>
        have later index (found : tryGetIndex address rest (startAt + 1) = some index) :
            startAt + 1 + j < index := by
          have := before index found
          omega
        exact ih later here

theorem searchRemoved_some {startAt index : Nat}
    (found : searchRemoved regions start last startAt = some index) :
    regions[index]? = some (start, last) := by
  fun_induction searchRemoved regions start last startAt with
  | case1 => cases found
  | case2 startAt inside next searched same =>
    cases found
    exact same
  | case3 startAt inside next searched other ih =>
    exact ih found
  | case4 => cases found

theorem searchRemoved_none {startAt : Nat} (ordered : start ≤ last)
    (missed : searchRemoved regions start last startAt = none) {j : Nat} (behind : startAt ≤ j) :
    regions[j]? ≠ some (start, last) := by
  have contains : start ≤ start ∧ start ≤ last := ⟨BitVec.le_refl start, ordered⟩
  have dropped {startAt : Nat} (behind : startAt ≤ j) :
      (regions.drop startAt)[j - startAt]? = regions[j]? := by
    rw [List.getElem?_drop, Nat.add_sub_cancel' behind]
  fun_induction searchRemoved regions start last startAt with
  | case1 startAt inside searched =>
    intro here
    rw [← dropped behind] at here
    exact tryGetIndex_first (fun _ found => nomatch searched.symm.trans found) here contains
  | case2 => cases missed
  | case3 startAt inside next searched other ih =>
    intro here
    by_cases later : next + 1 ≤ j
    · exact ih missed later here
    · have apart : j ≠ next := fun same => other (same ▸ here)
      rw [← dropped behind] at here
      have before index (found : tryGetIndex start (regions.drop startAt) startAt = some index) :
          startAt + (j - startAt) < index := by
        cases searched.symm.trans found
        omega
      exact tryGetIndex_first before here contains
  | case4 startAt outside =>
    rw [List.getElem?_eq_none (by omega)]
    exact nofun

theorem moveLast_perm {index : Nat} (inside : index < regions.length) :
    (moveLast regions index).Perm (regions.eraseIdx index) := by
  obtain rfl | ⟨front, final, rfl⟩ := regions.eq_nil_or_concat
  · cases inside
  · rw [concat_eq_append, length_append, length_singleton] at inside
    unfold moveLast
    rw [concat_eq_append, length_append, length_singleton, Nat.add_sub_cancel]
    dsimp only
    by_cases atEnd : index = front.length
    · simp [atEnd, eraseIdx_append_of_length_le]
    · have less : index < front.length := by omega
      rw [if_pos atEnd, getD_append_right _ _ _ _ (Nat.le_refl _), Nat.sub_self,
        set_append_left _ _ less, take_left' (length_set),
        eraseIdx_append_of_lt_length less]
      exact (set_perm_cons_eraseIdx less final).trans (perm_append_singleton final _).symm

end Removals

theorem call_specified {call : ExemptionCall} {regions : List ExemptionRegion}
    (bounded : regions.length < maxExemptions) (meets : call.Meets regions) :
    ((call.run regions).1, ((call.run regions).2 : Multiset ExemptionRegion)) =
        call.specified regions ∧ (call.run regions).2.length < maxExemptions := by
  cases call with
  | add start last =>
    simp only [ExemptionCall.run, ExemptionCall.specified, tryAddExemption]
    have card : (regions : Multiset ExemptionRegion).card < maxExemptions := bounded
    by_cases aligned : alignedBounds (start, last)
    · have room : ¬maxExemptions ≤ regions.length + 1 := by
        have := meets aligned
        unfold maxExemptions at bounded ⊢
        omega
      rw [if_neg room, if_neg (not_not.mpr aligned), if_pos ⟨aligned, card⟩]
      refine ⟨Prod.ext rfl (Multiset.coe_eq_coe.mpr (perm_append_singleton _ _)), ?_⟩
      rw [length_append]
      exact Nat.not_le.mp room
    · have refused : ¬(alignedBounds (start, last) ∧
          (regions : Multiset ExemptionRegion).card < maxExemptions) := fun both => aligned both.1
      rw [if_neg refused, if_pos aligned, ite_self]
      exact ⟨rfl, bounded⟩
  | remove start last =>
    simp only [ExemptionCall.run, ExemptionCall.specified, tryRemoveExemption]
    cases searched : searchRemoved regions start last 0 with
    | none =>
      have absent : (start, last) ∉ (regions : Multiset ExemptionRegion) := by
        intro present
        obtain ⟨j, here⟩ := mem_iff_getElem?.mp (Multiset.mem_coe.mp present)
        exact searchRemoved_none (meets (Multiset.mem_coe.mp present)) searched j.zero_le here
      rw [if_neg absent]
      exact ⟨rfl, bounded⟩
    | some index =>
      obtain ⟨inside, here⟩ := List.getElem?_eq_some_iff.mp (searchRemoved_some searched)
      have taken := moveLast_perm inside
      have perm := getElem_cons_eraseIdx_perm inside
      rw [here] at perm
      rw [if_pos (Multiset.mem_coe.mpr (mem_of_getElem here))]
      refine ⟨Prod.ext rfl ?_, ?_⟩
      · rw [← Multiset.coe_eq_coe.mpr perm, ← Multiset.cons_coe, Multiset.erase_cons_head]
        exact Multiset.coe_eq_coe.mpr taken
      · rw [taken.length_eq, length_eraseIdx_of_lt inside]
        omega

theorem runCalls_specified {calls : List ExemptionCall} {regions : List ExemptionRegion}
    (bounded : regions.length < maxExemptions) (meets : MeetAll calls regions) :
    ((runCalls calls regions).1, ((runCalls calls regions).2 : Multiset ExemptionRegion)) =
        specifiedRun calls regions ∧ (runCalls calls regions).2.length < maxExemptions := by
  induction calls generalizing regions with
  | nil => exact ⟨rfl, bounded⟩
  | cons call calls ih =>
    obtain ⟨here, kept⟩ := call_specified bounded meets.1
    obtain ⟨rest, less⟩ := ih kept meets.2
    refine ⟨?_, less⟩
    unfold runCalls specifiedRun
    rw [← here, ← rest]

theorem call_failed {call : ExemptionCall} {regions : List ExemptionRegion}
    (failed : (call.run regions).1 = false) : (call.run regions).2 = regions := by
  cases call with
  | add start last =>
    simp only [ExemptionCall.run, tryAddExemption] at failed ⊢
    split at failed
    · rename_i full
      rw [if_pos full]
    · rename_i room
      split at failed
      · rename_i unaligned
        rw [if_neg room, if_pos unaligned]
      · cases failed
  | remove start last =>
    simp only [ExemptionCall.run, tryRemoveExemption] at failed ⊢
    split at failed
    · rfl
    · cases failed

/-- In a run whose calls all meet the condition, the list is the multiset. -/
theorem exemptions_multiset (calls : List ExemptionCall) (meets : MeetAll calls []) :
    ((runCalls calls []).1, ((runCalls calls []).2 : Multiset ExemptionRegion)) =
        specifiedRun calls 0 ∧
      (runCalls calls []).2.length < maxExemptions ∧
      (∀ address startAt index, tryGetIndex address ((runCalls calls []).2.drop startAt) startAt =
        some index → startAt < (runCalls calls []).2.length →
        index < (runCalls calls []).2.length) ∧
      (∀ call : ExemptionCall, (call.run (runCalls calls []).2).1 = false →
        (call.run (runCalls calls []).2).2 = (runCalls calls []).2) ∧
      ∀ address flag, (tryGetExemptionRegion address flag (runCalls calls []).2 flag).1 = true ↔
        ∃ region ∈ (specifiedRun calls 0).2, region.1 ≤ address ∧ address ≤ region.2 := by
  have room : ([] : List ExemptionRegion).length < maxExemptions := by decide
  obtain ⟨same, less⟩ := runCalls_specified room meets
  refine ⟨same, less, fun address startAt index found inside => ?_, fun call => call_failed,
    fun address flag => ?_⟩
  · have := (tryGetIndex_le found).2
    rw [length_drop] at this
    omega
  · rw [tryGetExemptionRegion_iff, ← Multiset.coe_nil, ← same]
    rfl

def overlappingCalls : List ExemptionCall :=
  [.add 0x20#32 0x5F#32, .add 0x40#32 0x5F#32, .remove 0x20#32 0x5F#32]

/-- Of two overlapping regions the first is removed again. -/
theorem exemptions_multiset_sample : ((runCalls overlappingCalls []).1,
      ((runCalls overlappingCalls []).2 : Multiset ExemptionRegion)) =
      specifiedRun overlappingCalls 0 :=
  (exemptions_multiset overlappingCalls
    ⟨fun _ => by decide, fun _ => by decide, fun _ => by decide, trivial⟩).1

/-- A region that ends before it starts is added, and cannot be removed. -/
theorem inverted_stays : ¬∀ calls : List ExemptionCall,
    (runCalls calls []).1 = (specifiedRun calls 0).1 := by
  intro claimed
  have removed := claimed [.add 0x40#32 0x1F#32, .remove 0x40#32 0x1F#32]
  have searched : searchRemoved [(0x40#32, 0x1F#32)] 0x40#32 0x1F#32 0 = none := by
    rw [searchRemoved]
    decide
  have here : (runCalls [.add 0x40#32 0x1F#32, .remove 0x40#32 0x1F#32] []).1 =
      [true, (tryRemoveExemption [(0x40#32, 0x1F#32)] 0x40#32 0x1F#32).1] := rfl
  rw [here, tryRemoveExemption, searched] at removed
  revert removed
  decide

end Tlib.CortexM
