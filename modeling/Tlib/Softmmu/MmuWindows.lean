import Mathlib.Data.List.Find
import Mathlib.Data.List.Sort
import Tlib.Library.SortedArray
import Tlib.TranslationCache.State

/-!
Contract: the windows of the external MMU.

Owns: the window array with its lazily restored order, the binary search for a window, and the
address that a window answers with.
-/

namespace Tlib.Softmmu

open Tlib.TranslationCache List
open Tlib.Library.SortedArray

inductive AccessType where
  | dataLoad
  | dataStore
  | instFetch
deriving DecidableEq, Repr

/-- `PAGE_READ`, `PAGE_WRITE` and `PAGE_EXEC` -/
def AccessType.mask : AccessType → Nat
  | .dataLoad => 1
  | .dataStore => 2
  | .instFetch => 4

structure ExtMmuRange where
  (id rangeStart rangeEnd addend type priv : Nat)
  rangeEndInclusive : Bool
deriving DecidableEq, Repr

inductive ExtMmuPosition where
  | none
  | replace
  | before
  | after
deriving DecidableEq, Repr

/-- The `external_mmu_*` fields of the CPU. -/
structure ExternalMmu where
  position : ExtMmuPosition
  windows : List ExtMmuRange
  nextId : Nat
  unsorted : Bool
deriving DecidableEq, Repr

def compareMmuWindows (wa wb : ExtMmuRange) : Int :=
  if wa.rangeStart < wb.rangeStart then -1
  else if wa.rangeStart > wb.rangeStart then 1
  else if wa.rangeEnd < wb.rangeEnd then -1
  else if wa.rangeEnd > wb.rangeEnd then 1
  else 0

def windowLe (wa wb : ExtMmuRange) : Prop := compareMmuWindows wa wb ≤ 0

instance (wa wb : ExtMmuRange) : Decidable (windowLe wa wb) := by
  unfold windowLe
  infer_instance

abbrev Qsort := Sorter windowLe

def ensureMmuWindowsSorted (Q : Qsort) (mmu : ExternalMmu) : ExternalMmu :=
  if mmu.unsorted then { mmu with windows := Q.sort mmu.windows, unsorted := false } else mmu

/-- `address` is in front of the end of the window. -/
def ExtMmuRange.endsBehind (window : ExtMmuRange) (address : Nat) : Bool :=
  if window.rangeEndInclusive then address ≤ window.rangeEnd else address < window.rangeEnd

def ExtMmuRange.serves (window : ExtMmuRange) (access : AccessType) : Bool :=
  window.type &&& access.mask ≠ 0

def findLastMmuWindowPossiblyCovering (windows : List ExtMmuRange) (address : Nat) : Int :=
  lastIndex (fun testIndex => windows[testIndex]?.any (·.rangeStart ≤ address)) windows.length

/-- The windows from `window_index` down to the first. -/
def downFrom (windows : List ExtMmuRange) (windowIndex : Int) : List ExtMmuRange :=
  (windows.take (windowIndex + 1).toNat).reverse

def selectWindow (windows : List ExtMmuRange) (address : Nat) (access : AccessType) :
    Option ExtMmuRange :=
  scanWhile (·.endsBehind address) (·.serves access)
    (downFrom windows (findLastMmuWindowPossiblyCovering windows address))

/-- The outcome of one pass over the windows. -/
inductive Lookup where
  | granted (physPtr prot windowId : Nat)
  | denied (windowId : Nat)
  | unmapped
deriving DecidableEq, Repr

section Answers

variable (T : Target)

/-- `*phys_ptr += window->addend`, in the type of physical addresses. -/
def ExtMmuRange.answer (window : ExtMmuRange) (address : Nat) (access : AccessType) : Lookup :=
  if window.priv &&& access.mask ≠ 0 then
    .granted (T.toPhysAddr (address + window.addend)) window.priv window.id
  else .denied window.id

def answerOf (selected : Option ExtMmuRange) (address : Nat) (access : AccessType) : Lookup :=
  match selected with
  | some window => window.answer T address access
  | none => .unmapped

def lookupWindow (windows : List ExtMmuRange) (address : Nat) (access : AccessType) : Lookup :=
  answerOf T (selectWindow windows address access) address access

end Answers

inductive ExternalMmuResult where
  | noFault
  | fault
  | faultExternalAbort
deriving DecidableEq, Repr

/-- `tlib_mmu_fault_external_handler`, which may change the windows; `none` stands for `-1`. -/
abbrev FaultHandler :=
  ExternalMmu → Nat → AccessType → Option Nat → Bool → ExternalMmuResult × ExternalMmu

inductive ExternalTranslation where
  | success (physPtr prot : Nat)
  /-- With the result of the second call of the handler, if it was made. -/
  | fail (result : Option ExternalMmuResult)
deriving DecidableEq, Repr

/-- The end of `get_external_mmu_phys_addr` when no window grants the access. -/
def failExternal (handler : FaultHandler) (mmu : ExternalMmu) (address : Nat)
    (access : AccessType) (windowId : Option Nat) (noPageFault : Bool) :
    ExternalMmu × ExternalTranslation :=
  if noPageFault then (mmu, .fail none)
  else
    let (result, mmu) := handler mmu address access windowId false
    (mmu, .fail (some result))

def Lookup.windowId : Lookup → Option Nat
  | .granted _ _ id => some id
  | .denied id => some id
  | .unmapped => none

/-- `get_external_mmu_phys_addr`, up to the effects of a fault on the CPU. -/
def getExternalMmuPhysAddr (T : Target) (Q : Qsort) (handler : FaultHandler) (mmu : ExternalMmu)
    (address : Nat) (access : AccessType) (noPageFault : Bool) :
    ExternalMmu × ExternalTranslation :=
  let mmu := ensureMmuWindowsSorted Q mmu
  match lookupWindow T mmu.windows address access with
  | .granted physPtr prot _ => (mmu, .success physPtr prot)
  | denial =>
    match handler mmu address access denial.windowId true with
    | (.noFault, mmu) =>
      -- the second try
      let mmu := ensureMmuWindowsSorted Q mmu
      match lookupWindow T mmu.windows address access with
      | .granted physPtr prot _ => (mmu, .success physPtr prot)
      | denial => failExternal handler mmu address access denial.windowId noPageFault
    | (_, mmu) => failExternal handler mmu address access denial.windowId noPageFault

theorem windowLe_iff (wa wb : ExtMmuRange) : windowLe wa wb ↔ wa.rangeStart < wb.rangeStart ∨
      (wa.rangeStart = wb.rangeStart ∧ wa.rangeEnd ≤ wb.rangeEnd) := by
  unfold windowLe compareMmuWindows
  split_ifs <;> omega

theorem windowLe_refl (window : ExtMmuRange) : windowLe window window := by
  rw [windowLe_iff]
  omega

theorem windowLe_trans {wa wb wc : ExtMmuRange} (first : windowLe wa wb)
    (second : windowLe wb wc) : windowLe wa wc := by
  rw [windowLe_iff] at *
  omega

theorem windowLe_total (wa wb : ExtMmuRange) : windowLe wa wb ∨ windowLe wb wa := by
  rw [windowLe_iff, windowLe_iff]
  omega

/-- Insertion sort is a possible `qsort`. -/
def insertionQsort : Qsort where
  sort := insertionSort windowLe
  perm := perm_insertionSort windowLe
  sorted l := by
    have total : Std.Total windowLe := ⟨windowLe_total⟩
    have trans : IsTrans ExtMmuRange windowLe := ⟨fun _ _ _ => windowLe_trans⟩
    exact pairwise_insertionSort windowLe l

def ExtMmuRange.endExclusive (window : ExtMmuRange) : Nat :=
  if window.rangeEndInclusive then window.rangeEnd + 1 else window.rangeEnd

def ExtMmuRange.covers (window : ExtMmuRange) (address : Nat) : Bool :=
  window.rangeStart ≤ address && window.endsBehind address

theorem ExtMmuRange.endsBehind_iff (window : ExtMmuRange) (address : Nat) :
    window.endsBehind address = true ↔ address < window.endExclusive := by
  unfold endsBehind endExclusive
  cases window.rangeEndInclusive
  · exact decide_eq_true_iff
  · exact decide_eq_true_iff.trans Nat.lt_succ_iff.symm

def EndsInOrder (windows : List ExtMmuRange) : Prop :=
  ∀ v ∈ windows, ∀ w ∈ windows, v.rangeStart < w.rangeStart → v.endExclusive ≤ w.endExclusive

def EndsAgree (windows : List ExtMmuRange) : Prop :=
  ∀ v ∈ windows, ∀ w ∈ windows, v.rangeEnd = w.rangeEnd → v.rangeEndInclusive = w.rangeEndInclusive

/-- The scan in descending order for the first window that answers the access. -/
def plainScan (windows : List ExtMmuRange) (address : Nat) (access : AccessType) :
    Option ExtMmuRange :=
  windows.reverse.find? fun window => window.covers address && window.serves access

section Scan

variable {windows : List ExtMmuRange} {address : Nat} {access : AccessType}

theorem exists_cut (sorted : windows.Pairwise windowLe) (inOrder : EndsInOrder windows)
    (agree : EndsAgree windows) (address : Nat) :
    ∃ low high, windows = low ++ high ∧
      findLastMmuWindowPossiblyCovering windows address = low.length - 1 ∧
      (∀ w ∈ low, w.rangeStart ≤ address) ∧ (∀ w ∈ high, address < w.rangeStart) ∧
      low.Pairwise fun v w => v.endsBehind address = true → w.endsBehind address = true := by
  have starts : windows.Pairwise fun v w =>
      decide (w.rangeStart ≤ address) = true → decide (v.rangeStart ≤ address) = true := by
    refine sorted.imp fun {v w} le => ?_
    rw [windowLe_iff] at le
    simp only [decide_eq_true_eq]
    omega
  have split := takeWhile_append_dropWhile
    (p := fun window : ExtMmuRange => decide (window.rangeStart ≤ address)) (l := windows)
  refine ⟨_, _, split.symm, lastIndex_takeWhile starts, ?_, ?_, ?_⟩
  · intro w member
    simpa using mem_takeWhile_imp member
  · intro w member
    simpa using dropWhile_fails starts w member
  · have sublist := takeWhile_sublist (l := windows)
      fun window => decide (window.rangeStart ≤ address)
    refine (sorted.sublist sublist).imp_of_mem fun {v w} inLow inLow' le behind => ?_
    rw [ExtMmuRange.endsBehind_iff] at behind ⊢
    have ends : v.endExclusive ≤ w.endExclusive := by
      rw [windowLe_iff] at le
      rcases le with earlier | ⟨-, notLater⟩
      · exact inOrder v (sublist.subset inLow) w (sublist.subset inLow') earlier
      · have same := agree v (sublist.subset inLow) w (sublist.subset inLow')
        unfold ExtMmuRange.endExclusive
        by_cases equal : v.rangeEnd = w.rangeEnd
        · rw [same equal, equal]
        · split_ifs <;> omega
    omega

theorem selectWindow_eq_plainScan (sorted : windows.Pairwise windowLe)
    (inOrder : EndsInOrder windows) (agree : EndsAgree windows) :
    selectWindow windows address access = plainScan windows address access := by
  obtain ⟨low, high, split, found, lowStarts, highStarts, behind⟩ :=
    exists_cut sorted inOrder agree address
  have scanned : downFrom windows (findLastMmuWindowPossiblyCovering windows address) =
      low.reverse := by
    rw [found, downFrom, Int.sub_add_cancel, Int.toNat_natCast, split, take_left' rfl]
  have closed : low.reverse.Pairwise fun v w =>
      v.endsBehind address = false → w.endsBehind address = false := by
    rw [pairwise_reverse]
    refine behind.imp fun {w v} step ended => ?_
    rw [← Bool.not_eq_true] at ended ⊢
    exact fun still => ended (step still)
  have noneAbove : high.reverse.find? (fun window =>
      window.covers address && window.serves access) = none := by
    rw [List.find?_eq_none]
    intro w member
    have above := highStarts w (mem_reverse.mp member)
    simp [ExtMmuRange.covers, Nat.not_le.mpr above]
  rw [selectWindow, scanned, scanWhile_eq_find? closed, plainScan, split, reverse_append,
    List.find?_append, noneAbove, Option.none_or]
  apply List.find?_congr
  intro w member
  have starts : decide (w.rangeStart ≤ address) = true :=
    decide_eq_true (lowStarts w (mem_reverse.mp member))
  rw [ExtMmuRange.covers, starts, Bool.true_and]

end Scan

end Tlib.Softmmu
