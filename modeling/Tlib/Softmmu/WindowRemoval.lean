import Tlib.Softmmu.MmuWindowRuns

/-!
Contract: the removal of the windows of the external MMU that cover an address.

Owns: the arrays that calls in any order build, and which of their windows a removal takes.
-/

namespace Tlib.Softmmu

open Tlib.TranslationCache List Option
open Tlib.Library.SortedArray

/-- The arrays that any sequence of calls builds, with or without lookups in between. -/
inductive Built (Q : Qsort) (T : Target) : ExternalMmu → Prop
  | start (position : ExtMmuPosition) : Built Q T ⟨position, [], 0, false⟩
  | step {mmu mmu' : ExternalMmu} {call : MmuCall} (before : Built Q T mmu)
      (done : applyCall Q T mmu call = some mmu') : Built Q T mmu'

/-- The windows that contain the address go, the others stay as they are. -/
structure RemovesExactly (mmu : ExternalMmu) (address : Nat) : Prop where
  windows : (tlibResetMmuWindowsCoveringAddress mmu address).windows =
    mmu.windows.filter fun window => !window.covers address
  count : (tlibResetMmuWindowsCoveringAddress mmu address).windows.length +
    mmu.windows.countP (·.covers address) = mmu.windows.length
  order : mmu.windows.Pairwise windowLe →
    (tlibResetMmuWindowsCoveringAddress mmu address).windows.Pairwise windowLe
  flag : (tlibResetMmuWindowsCoveringAddress mmu address).unsorted = mmu.unsorted
  nextId : (tlibResetMmuWindowsCoveringAddress mmu address).nextId = mmu.nextId

/-- The windows that contain the address are neighbours, and the search goes their way. -/
structure CutsOut (windows : List ExtMmuRange) (address : Nat)
    (front covering back : List ExtMmuRange) : Prop where
  split : windows = front ++ covering ++ back
  nonempty : covering ≠ []
  inside : ∀ window ∈ covering, window.covers address = true
  outside : ∀ window ∈ front ++ back, window.covers address = false
  fence : ∀ window, front.getLast? = some window → window.endsBehind address = false
  path : ∀ i ∈ searchPath windows.length ((front ++ covering).length - 1),
    windows[i]?.any (·.rangeStart ≤ address) = true ↔ i < (front ++ covering).length

def SearchMeets (windows : List ExtMmuRange) (address : Nat) : Prop :=
  (∀ window ∈ windows, window.covers address = false) ∨
    ∃ front covering back, CutsOut windows address front covering back

section Removal

variable {windows front covering back : List ExtMmuRange} {address : Nat}

theorem ExtMmuRange.covers_iff (window : ExtMmuRange) (address : Nat) :
    window.covers address = true ↔
      window.rangeStart ≤ address ∧ window.endsBehind address = true := by
  unfold ExtMmuRange.covers
  rw [Bool.and_eq_true, decide_eq_true_eq]

theorem filter_uncovered (none : ∀ window ∈ windows, window.covers address = false) :
    windows.filter (fun window => !window.covers address) = windows := by
  rw [filter_eq_self]
  intro window member
  rw [none window member]
  rfl

theorem removeCovering_eq_cut (windows : List ExtMmuRange) (address : Nat) {cut : Nat}
    (found : findLastMmuWindowPossiblyCovering windows address = cut - 1) :
    removeCovering windows address =
      (windows.take cut).rdropWhile (fun window => window.endsBehind address) ++
        windows.drop cut := by
  have bounds := lastIndex_bounds
    (fun testIndex => windows[testIndex]?.any (·.rangeStart ≤ address)) windows.length
  change -1 ≤ findLastMmuWindowPossiblyCovering windows address ∧
    findLastMmuWindowPossiblyCovering windows address < windows.length ∧ _ at bounds
  rw [removeCovering, found] at *
  cases cut with
  | zero => simp
  | succ last =>
    have below : last < windows.length := by omega
    have inside : last ≤ windows.length := by omega
    rw [show ((last + 1 : Nat) : Int) - 1 = last by omega, if_neg (by omega),
      Int.toNat_natCast, List.getElem?_eq_getElem below, any_some,
      take_succ_eq_append_getElem below, rdropWhile_concat]
    cases behind : windows[last].endsBehind address with
    | true =>
      have kept := take_firstToRemove windows address last inside
      exact congrArg (· ++ windows.drop (last + 1)) kept
    | false =>
      rw [if_neg (by decide), if_neg (by decide),
        ← take_succ_eq_append_getElem below, take_append_drop]

theorem exists_cut_of_search (windows : List ExtMmuRange) (address : Nat) :
    ∃ cut : Nat, cut ≤ windows.length ∧
      findLastMmuWindowPossiblyCovering windows address = cut - 1 ∧
      ∀ window, (windows.take cut).getLast? = some window → window.rangeStart ≤ address := by
  have bounds := lastIndex_bounds
    (fun testIndex => windows[testIndex]?.any (·.rangeStart ≤ address)) windows.length
  change -1 ≤ findLastMmuWindowPossiblyCovering windows address ∧
    findLastMmuWindowPossiblyCovering windows address < windows.length ∧
    (0 ≤ findLastMmuWindowPossiblyCovering windows address →
      windows[(findLastMmuWindowPossiblyCovering windows address).toNat]?.any
        (·.rangeStart ≤ address) = true) at bounds
  generalize findLastMmuWindowPossiblyCovering windows address = last at bounds
  refine ⟨(last + 1).toNat, by omega, by omega, ?_⟩
  intro window isLast
  by_cases nonneg : 0 ≤ last
  · have below : last.toNat < windows.length := by omega
    have holds := bounds.2.2 nonneg
    rw [List.getElem?_eq_getElem below, any_some, decide_eq_true_eq] at holds
    rw [show (last + 1).toNat = last.toNat + 1 by omega,
      take_succ_eq_append_getElem below, getLast?_concat, some.injEq] at isLast
    rw [← isLast]
    exact holds
  · rw [show (last + 1).toNat = 0 by omega] at isLast
    exact absurd isLast (by simp)

theorem findLast_eq_iff {cut : Nat} (inside : cut ≤ windows.length) :
    findLastMmuWindowPossiblyCovering windows address = cut - 1 ↔
      ∀ i ∈ searchPath windows.length ((cut : Int) - 1),
        windows[i]?.any (·.rangeStart ≤ address) = true ↔ i < cut := by
  have path := lastIndex_eq_iff
    (fun testIndex => windows[testIndex]?.any (·.rangeStart ≤ address))
    (show -1 ≤ (cut : Int) - 1 by omega) (show (cut : Int) - 1 < windows.length by omega)
  have shift : ∀ i : Nat, (i : Int) ≤ cut - 1 ↔ i < cut := by omega
  simp only [shift] at path
  exact path

theorem searchMeets_of_removes (removes : removeCovering windows address =
    windows.filter fun window => !window.covers address) :
    SearchMeets windows address := by
  obtain ⟨cut, inside, found, -⟩ := exists_cut_of_search windows address
  rw [removeCovering_eq_cut windows address found] at removes
  have joined := @rdropWhile_append_rtakeWhile _ (·.endsBehind address) (windows.take cut)
  have fence : ∀ window, ((windows.take cut).rdropWhile (·.endsBehind address)).getLast? =
      some window → window.endsBehind address = false := fun _ => rdropWhile_last_fails
  have split := take_append_drop cut windows
  have path := (findLast_eq_iff inside).mp found
  have length : (windows.take cut).length = cut := length_take_of_le inside
  generalize (windows.take cut).rdropWhile (·.endsBehind address) = front at *
  generalize (windows.take cut).rtakeWhile (·.endsBehind address) = covering at *
  generalize windows.drop cut = back at *
  rw [← joined] at split length
  have outside : ∀ window ∈ front ++ back, window.covers address = false := by
    intro window member
    rw [removes, mem_filter, Bool.not_eq_true'] at member
    exact member.2
  have noneLeft : covering.filter (fun window => !window.covers address) = [] := by
    rw [← split, filter_append, filter_append,
      filter_uncovered fun window member => outside window (mem_append_left _ member),
      filter_uncovered fun window member => outside window (mem_append_right _ member),
      append_assoc, append_cancel_left_eq] at removes
    exact self_eq_append_left.mp removes
  have allCover : ∀ window ∈ covering, window.covers address = true := by
    intro window member
    have refused := filter_eq_nil_iff.mp noneLeft window member
    rwa [Bool.not_eq_true', Bool.not_eq_false] at refused
  by_cases isEmpty : covering = []
  · left
    rw [← split, isEmpty, append_nil]
    exact outside
  · right
    refine ⟨front, covering, back, split.symm, isEmpty, allCover, outside, fence, ?_⟩
    rw [length]
    exact path

theorem removes_of_searchMeets (meets : SearchMeets windows address) :
    removeCovering windows address = windows.filter fun window => !window.covers address := by
  rcases meets with noneCovers | ⟨front, covering, back, cuts⟩
  · obtain ⟨cut, inside, found, starts⟩ := exists_cut_of_search windows address
    have kept : (windows.take cut).rdropWhile (·.endsBehind address) = windows.take cut := by
      rw [rdropWhile_eq_self_iff]
      intro nonempty behind
      have starts := starts _ (getLast?_eq_some_getLast nonempty)
      have uncovered := noneCovers _ (mem_of_mem_take (getLast_mem nonempty))
      rw [← Bool.not_eq_true, ExtMmuRange.covers_iff] at uncovered
      exact uncovered ⟨starts, behind⟩
    rw [removeCovering_eq_cut windows address found, kept, take_append_drop,
      filter_uncovered noneCovers]
  · have inside : (front ++ covering).length ≤ windows.length := by
      rw [cuts.split, @length_append _ _ back]
      exact Nat.le_add_right _ _
    have found := (findLast_eq_iff inside).mpr cuts.path
    have run : ∀ window ∈ covering, window.endsBehind address = true :=
      fun window member => ((window.covers_iff address).mp (cuts.inside window member)).2
    have allGo : covering.filter (fun window => !window.covers address) = [] := by
      rw [filter_eq_nil_iff]
      intro window member
      simp [cuts.inside window member]
    rw [removeCovering_eq_cut windows address found, cuts.split, take_left' rfl,
      drop_left' rfl, rdropWhile_append run cuts.fence, filter_append,
      filter_append, allGo, append_nil,
      filter_uncovered fun window member => cuts.outside window (mem_append_left _ member),
      filter_uncovered fun window member => cuts.outside window (mem_append_right _ member)]

theorem removeCovering_eq_filter_iff : (removeCovering windows address =
    windows.filter fun window => !window.covers address) ↔ SearchMeets windows address :=
  ⟨searchMeets_of_removes, removes_of_searchMeets⟩

theorem removeCovering_sublist (windows : List ExtMmuRange) (address : Nat) :
    (removeCovering windows address).Sublist windows := by
  obtain ⟨cut, -, found, -⟩ := exists_cut_of_search windows address
  rw [removeCovering_eq_cut windows address found]
  conv => rhs; rw [← take_append_drop cut windows]
  exact List.Sublist.append ( rdropWhile_prefix _ _).sublist (List.Sublist.refl _)

end Removal

def EndsConventional (T : Target) (windows : List ExtMmuRange) : Prop :=
  ∀ window ∈ windows, window.rangeEndInclusive = true ↔ window.rangeEnd = 2 ^ T.longBits - 1

section Arrays

variable {Q : Qsort} {T : Target} {mmu mmu' : ExternalMmu} {windows : List ExtMmuRange}

section

variable (conventional : EndsConventional T windows)

include conventional

theorem EndsConventional.endsAgree : EndsAgree windows := by
  intro v inArray w inArray' equal
  have left := conventional v inArray
  rw [equal, ← conventional w inArray'] at left
  exact Bool.eq_iff_iff.mpr left

theorem EndsConventional.subset
    {rest : List ExtMmuRange} (among : rest ⊆ windows) : EndsConventional T rest :=
  fun window member => conventional window (among member)

theorem EndsConventional.change {id : Nat}
    {f : ExtMmuRange → ExtMmuRange} {changed : List ExtMmuRange}
    (updated : updateById id f windows = some changed)
    (keepsEnd : ∀ window, (window.rangeEndInclusive = true ↔ window.rangeEnd = 2 ^ T.longBits - 1) →
      ((f window).rangeEndInclusive = true ↔ (f window).rangeEnd = 2 ^ T.longBits - 1)) :
    EndsConventional T changed := by
  obtain ⟨front, window, back, split, -, result⟩ := updateById_split updated
  rw [split] at conventional
  intro v member
  rw [result, mem_append, mem_cons] at member
  rcases member with inFront | same | inBack
  · exact conventional v (by simp [inFront])
  · rw [same]
    exact keepsEnd window (conventional window (by simp))
  · exact conventional v (by simp [inBack])

end

theorem EndsConventional.apply (conventional : EndsConventional T mmu.windows) {call : MmuCall}
    (done : applyCall Q T mmu call = some mmu') : EndsConventional T mmu'.windows := by
  cases call with
  | acquire type =>
    simp only [applyCall, tlibAcquireMmuWindow, ite_none_left_eq_some,
      some.injEq] at done
    rw [← done.2]
    intro window member
    rcases mem_append.mp member with old | isNew
    · exact conventional window old
    · rw [mem_singleton.mp isNew]
      exact acquiredWindow_ended T mmu.nextId type
  | setStart id addrStart =>
    simp only [applyCall, tlibSetMmuWindowStart, ite_none_left_eq_some,
      map_eq_some_iff] at done
    obtain ⟨-, windows, updated, rfl⟩ := done
    exact conventional.change updated fun _ ended => ended
  | setEnd id addrEnd inclusive =>
    simp only [applyCall, tlibSetMmuWindowEnd, ite_none_left_eq_some, not_or,
      not_not, map_eq_some_iff] at done
    obtain ⟨⟨-, aligned⟩, windows, updated, rfl⟩ := done
    exact conventional.change updated fun window _ => withEnd_ended aligned window
  | setAddend id addend =>
    simp only [applyCall, tlibSetMmuWindowAddend, ite_none_left_eq_some,
      map_eq_some_iff] at done
    obtain ⟨-, windows, updated, rfl⟩ := done
    exact conventional.change updated fun _ ended => ended
  | setPrivileges id privileges =>
    simp only [applyCall, tlibSetWindowPrivileges, ite_none_left_eq_some,
      map_eq_some_iff] at done
    obtain ⟨-, windows, updated, rfl⟩ := done
    exact conventional.change updated fun _ ended => ended
  | reset id =>
    simp only [applyCall, tlibResetMmuWindow, ite_none_right_eq_some,
      some.injEq] at done
    rw [← done.2]
    exact conventional.subset eraseP_subset
  | resetCovering address =>
    simp only [applyCall, tlibResetMmuWindowsCoveringAddress, some.injEq] at done
    rw [← done]
    exact conventional.subset (removeCovering_sublist mmu.windows address).subset
  | resetAll =>
    simp only [applyCall, tlibResetAllMmuWindows, some.injEq] at done
    rw [← done]
    exact conventional.subset (nil_subset _)
  | lookup =>
    simp only [applyCall, some.injEq] at done
    rw [← done]
    unfold ensureMmuWindowsSorted
    split_ifs
    · exact conventional.subset (Q.perm mmu.windows).subset
    · exact conventional

theorem Built.conventional (built : Built Q T mmu) : EndsConventional T mmu.windows := by
  induction built with
  | start position => exact fun window member => absurd member not_mem_nil
  | step _ done ih => exact ih.apply done

/-- The removal does what it should exactly when the search for the last window that
contains the address follows its path, and the windows it then walks over are the ones
that contain it. -/
theorem removesExactly_iff (mmu : ExternalMmu) (address : Nat) :
    RemovesExactly mmu address ↔ SearchMeets mmu.windows address := by
  constructor
  · exact fun exactly => searchMeets_of_removes exactly.windows
  · intro meets
    have removes := removes_of_searchMeets meets
    refine ⟨removes, ?_, fun sorted => sorted.sublist (removeCovering_sublist _ _), rfl, rfl⟩
    change (removeCovering mmu.windows address).length + _ = _
    rw [removes, ← countP_eq_length_filter, length_eq_countP_add_countP
      (fun window : ExtMmuRange => window.covers address), Nat.add_comm]
    simp

/-- Of an array in order the removal takes exactly the windows that contain the address,
and of any other array exactly under the condition above. -/
theorem tlibResetMmuWindowsCoveringAddress_exact (built : Built Q T mmu)
    (inOrder : EndsInOrder mmu.windows) (address : Nat) :
    (RemovesExactly mmu address ↔ SearchMeets mmu.windows address) ∧
      (mmu.windows.Pairwise windowLe → RemovesExactly mmu address) := by
  refine ⟨removesExactly_iff mmu address, fun sorted => ?_⟩
  rw [removesExactly_iff, ← removeCovering_eq_filter_iff]
  exact removeCovering_eq_filter sorted inOrder built.conventional.endsAgree address

theorem Built.calls (built : Built Q T mmu) {calls : List MmuCall}
    (done : calls.foldlM (applyCall Q T) mmu = some mmu') : Built Q T mmu' := by
  induction calls generalizing mmu with
  | nil =>
    cases done
    exact built
  | cons call rest ih =>
    rw [foldlM_cons, bind_eq_bind, bind_eq_some_iff] at done
    obtain ⟨next, applied, remaining⟩ := done
    exact ih (built.step applied) remaining

end Arrays

/-- A window from `0x3000` to `0x4000`, and then one from `0x1000` to `0x2000`. -/
def descendingWindows : List MmuCall :=
  [.acquire 1, .setStart 0 0x3000, .setEnd 0 0x4000 false,
    .acquire 1, .setStart 1 0x1000, .setEnd 1 0x2000 false]

/-- What is left after the calls and the removal of the windows that contain `0x3800`. -/
theorem tlibResetMmuWindowsCoveringAddress_exact_sample : ∃ mmu,
    Built insertionQsort windowTarget mmu ∧ RemovesExactly mmu 0x3800 ∧
      (tlibResetMmuWindowsCoveringAddress mmu 0x3800).windows.map (·.id) = [1] := by
  obtain ⟨mmu, done, sorted, inOrder, left⟩ : ∃ mmu,
      (descendingWindows ++ [MmuCall.lookup]).foldlM (applyCall insertionQsort windowTarget)
        ⟨.replace, [], 0, false⟩ = some mmu ∧ mmu.windows.Pairwise windowLe ∧
        EndsInOrder mmu.windows ∧
        (tlibResetMmuWindowsCoveringAddress mmu 0x3800).windows.map (·.id) = [1] := by
    refine ⟨_, rfl, ?_, ?_, ?_⟩
    · decide
    · unfold EndsInOrder
      decide
    · decide
  have built := (Built.start .replace).calls done
  exact ⟨mmu, built, (tlibResetMmuWindowsCoveringAddress_exact built inOrder 0x3800).2 sorted, left⟩

/-- Without a lookup before it, the removal leaves the window that contains `0x3800`. -/
theorem tlibResetMmuWindowsCoveringAddress_leaves : ∃ mmu,
    Built insertionQsort windowTarget mmu ∧ EndsInOrder mmu.windows ∧
      ¬ RemovesExactly mmu 0x3800 := by
  obtain ⟨mmu, window, done, inOrder, covers, stays⟩ : ∃ mmu window,
      descendingWindows.foldlM (applyCall insertionQsort windowTarget)
        ⟨.replace, [], 0, false⟩ = some mmu ∧ EndsInOrder mmu.windows ∧
        window.covers 0x3800 = true ∧
        window ∈ (tlibResetMmuWindowsCoveringAddress mmu 0x3800).windows := by
    refine ⟨_, ⟨0, 0x3000, 0x4000, 0, 1, 0, false⟩, rfl, ?_, ?_, ?_⟩
    · unfold EndsInOrder
      decide
    · decide
    · decide
  refine ⟨mmu, (Built.start .replace).calls done, inOrder, fun exactly => ?_⟩
  rw [exactly.windows, mem_filter, covers] at stays
  exact absurd stays.2 (by decide)

end Tlib.Softmmu
