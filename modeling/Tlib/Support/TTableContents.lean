import Tlib.Support.TTable

/-!
Contract: a translation table against what has been put into it.

Owns: what each call should do and that it does so, in every table that calls lead to.
-/

namespace Tlib.Support

open Tlib.Library.ExchangeSort List

variable {κ ν : Type} {keyCompare : κ → κ → Int} {entries contents : List (TTableEntry κ ν)}
  {t : TTable κ ν}

/-! ### What a call should do -/

structure TotalOrder (compare : κ → κ → Int) : Prop where
  swap : ∀ a b, 0 < compare a b ↔ compare b a < 0
  trans : ∀ a b c, compare a b ≤ 0 → compare b c ≤ 0 → compare a c ≤ 0

def keyLe (keyCompare : κ → κ → Int) (a b : TTableEntry κ ν) : Prop := keyCompare a.key b.key ≤ 0

/-- The table fits into its memory, and is in order if it says so. -/
structure Honest (keyCompare : κ → κ → Int) (t : TTable κ ν) : Prop where
  count_le : t.count ≤ t.size
  size_lt : t.size < 2 ^ 32
  inOrder : t.sorted = true → t.entries.Pairwise (keyLe keyCompare)

def Searched (compare : TTableEntry κ ν → Int) (entries : List (TTableEntry κ ν)) :
    Option Nat → Prop
  | some k => ∃ entry, entries[k]? = some entry ∧ compare entry = 0
  | none => ∀ entry ∈ entries, compare entry ≠ 0

def Absent (keyCompare : κ → κ → Int) (entries : List (TTableEntry κ ν)) (key : κ) : Prop :=
  ∀ entry ∈ entries, keyCompare entry.key key ≠ 0

def Answered (keyCompare : κ → κ → Int) (contents : List (TTableEntry κ ν)) (t t' : TTable κ ν) :
    TTableCall κ ν → TTableAnswer → Prop
  | .insert key value, .done =>
    t'.entries.Perm (⟨key, value⟩ :: contents) ∧ t'.sorted = t.sorted
  | .insertCheck key value, .inserted true =>
    Absent keyCompare contents key ∧ t'.entries.Perm (⟨key, value⟩ :: contents) ∧
      t'.sorted = t.sorted
  | .insertCheck key _, .inserted false => ¬Absent keyCompare contents key ∧ t' = t
  | .sortByKeys, .done => t'.entries.Perm contents ∧ t'.sorted = true
  | .lookupCustom entryCompare value, .entry found =>
    t' = t ∧ Searched (entryCompare.compare keyCompare · value) t.entries found ∧
      (found = none ↔ ∀ entry ∈ contents, entryCompare.compare keyCompare entry value ≠ 0) ∧
      (found = none ↔ linearSearch (entryCompare.compare keyCompare · value) t.entries 0 = .ok none)
  | _, _ => False

def Adds (keyCompare : κ → κ → Int) (contents : List (TTableEntry κ ν)) : TTableCall κ ν → Prop
  | .insert _ _ => True
  | .insertCheck key _ => Absent keyCompare contents key
  | _ => False

/-- A call returns as it should, or stops because the table is full. -/
def Follows (keyCompare : κ → κ → Int) (contents : List (TTableEntry κ ν)) (t : TTable κ ν)
    (call : TTableCall κ ν) : Except Fault (TTableAnswer × TTable κ ν) → Prop
  | .ok (answer, t') => t'.size = t.size ∧ Honest keyCompare t' ∧
      Answered keyCompare contents t t' call answer
  | .error .assertion => t.count = t.size ∧ Adds keyCompare contents call
  | .error (.outOfBounds _) => False

/-- No empty sorted table is searched, and no table that is too long for an `int` is sorted. -/
def Meets (keyCompare : κ → κ → Int) (t : TTable κ ν) : TTableCall κ ν → Prop
  | .insert _ _ => t.sorted = true → t.count < t.size → t.count < 2 ^ 31
  | .insertCheck key _ => t.sorted = true → 0 < t.count ∧
      (Absent keyCompare t.entries key → t.count < t.size → t.count < 2 ^ 31)
  | .sortByKeys => t.count ≤ 2 ^ 31
  | .lookupCustom entryCompare _ => t.sorted = true → entryCompare.isKey = true → 0 < t.count

/-! ### Indices -/

theorem entryAt_inside {k : Nat} {entry : TTableEntry κ ν} (inside : entries[k]? = some entry) :
    entryAt entries k = .ok entry := by
  unfold entryAt
  rw [if_pos (Int.natCast_nonneg k), Int.toNat_natCast, inside]

theorem entryAt_outside {index : Int} (outside : index < 0 ∨ entries.length ≤ index.toNat) :
    entryAt entries index = .error (.outOfBounds index) := by
  unfold entryAt
  split_ifs with nonneg
  · rw [List.getElem?_eq_none (by omega)]
  · rfl

theorem ok_bind {α β : Type} (a : α) (f : α → Except Fault β) :
    ((.ok a : Except Fault α) >>= f) = f a := rfl

theorem error_bind {α β : Type} (fault : Fault) (f : α → Except Fault β) :
    ((.error fault : Except Fault α) >>= f) = .error fault := rfl

theorem intIndex_small {i : Nat} (less : i < 2 ^ 31) : intIndex i = i := if_pos less

theorem intIndex_neg {i : Nat} (le : 2 ^ 31 ≤ i) (less : i < 2 ^ 32) : intIndex i < 0 := by
  unfold intIndex
  split_ifs <;> omega

theorem getElem?_of_lt {k : Nat} (less : k < entries.length) : ∃ entry, entries[k]? = some entry :=
  ⟨_, List.getElem?_eq_getElem less⟩

/-! ### Searching -/

def Monotone (compare : TTableEntry κ ν → Int) (entries : List (TTableEntry κ ν)) : Prop :=
  entries.Pairwise fun a b => (0 < compare a → 0 < compare b) ∧ (compare b < 0 → compare a < 0)

theorem TotalOrder.monotone (order : TotalOrder keyCompare)
    (inOrder : entries.Pairwise (keyLe keyCompare)) (value : κ) :
    Monotone (fun entry => keyCompare entry.key value) entries := by
  refine inOrder.imp fun {a b} le => ⟨fun greater => ?_, fun less => ?_⟩
  · show 0 < keyCompare b.key value
    by_contra notGreater
    have below := order.trans a.key b.key value le (Int.not_lt.mp notGreater)
    exact absurd greater (Int.not_lt.mpr below)
  · show keyCompare a.key value < 0
    by_contra notLess
    rw [← order.swap value a.key, Int.not_lt] at notLess
    have below := order.trans value a.key b.key notLess le
    exact absurd ((order.swap value b.key).mpr less) (Int.not_lt.mpr below)

variable {compare : TTableEntry κ ν → Int}

theorem Monotone.get (monotone : Monotone compare entries)
    {k l : Nat} {a b : TTableEntry κ ν} (less : k < l) (atK : entries[k]? = some a)
    (atL : entries[l]? = some b) :
    (0 < compare a → 0 < compare b) ∧ (compare b < 0 → compare a < 0) := by
  obtain ⟨insideK, sameA⟩ := List.getElem?_eq_some_iff.mp atK
  obtain ⟨insideL, sameB⟩ := List.getElem?_eq_some_iff.mp atL
  rw [← sameA, ← sameB]
  exact pairwise_iff_getElem.mp monotone k l insideK insideL less

theorem binarySearch_searched
    (monotone : Monotone compare entries) (left right : Int) (nonneg : 0 ≤ left)
    (inside : right < entries.length)
    (front : ∀ (k : Nat) entry, (k : Int) < left → entries[k]? = some entry → compare entry < 0)
    (back : ∀ (k : Nat) entry, right < (k : Int) → entries[k]? = some entry → 0 < compare entry) :
    ∃ found, binarySearch compare entries left right = .ok found ∧
      Searched compare entries found := by
  unfold binarySearch
  split_ifs with le
  · have low : left ≤ (left + right) / 2 := by omega
    have high : (left + right) / 2 ≤ right := by omega
    dsimp only
    generalize (left + right) / 2 = pivot at low high
    obtain ⟨k, rfl⟩ := Int.eq_ofNat_of_zero_le (by omega : 0 ≤ pivot)
    obtain ⟨entry, here⟩ := @getElem?_of_lt κ ν entries k (by omega)
    rw [entryAt_inside here, ok_bind]
    split_ifs with less greater
    · refine binarySearch_searched monotone (k + 1) right (by omega) inside ?_ back
      intro l other before atL
      rcases Nat.lt_or_ge l k with earlier | later
      · exact (monotone.get earlier atL here).2 less
      · have same : l = k := by omega
        rw [same, here, Option.some.injEq] at atL
        rwa [← atL]
    · refine binarySearch_searched monotone left (k - 1) nonneg (by omega) front ?_
      intro l other behind atL
      rcases Nat.lt_or_ge k l with later | earlier
      · exact (monotone.get later here atL).1 greater
      · have same : l = k := by omega
        rw [same, here, Option.some.injEq] at atL
        rwa [← atL]
    · exact ⟨some k, rfl, entry, here, by omega⟩
  · refine ⟨none, rfl, fun entry member => ?_⟩
    obtain ⟨k, here⟩ := mem_iff_getElem?.mp member
    by_cases before : (k : Int) < left
    · exact Int.ne_of_lt (front k entry before here)
    · exact Int.ne_of_gt (back k entry (by omega) here)
termination_by (right + 1 - left).toNat

theorem linearSearch_searched (compare : TTableEntry κ ν → Int) (i : Nat)
    (front : ∀ k entry, k < i → entries[k]? = some entry → compare entry ≠ 0) :
    ∃ found, linearSearch compare entries i = .ok found ∧ Searched compare entries found := by
  unfold linearSearch
  split_ifs with inside
  · obtain ⟨entry, here⟩ := getElem?_of_lt inside
    rw [entryAt_inside here, ok_bind]
    split_ifs with equal
    · exact ⟨some i, rfl, entry, here, equal⟩
    · refine linearSearch_searched compare (i + 1) fun k other before atK => ?_
      rcases Nat.lt_or_ge k i with earlier | later
      · exact front k other earlier atK
      · have same : k = i := by omega
        rw [same, here, Option.some.injEq] at atK
        rwa [← atK]
  · refine ⟨none, rfl, fun entry member => ?_⟩
    obtain ⟨k, here⟩ := mem_iff_getElem?.mp member
    obtain ⟨less, -⟩ := List.getElem?_eq_some_iff.mp here
    exact front k entry (by omega) here
termination_by entries.length - i

/-! ### Sorting -/

theorem TotalOrder.decides (order : TotalOrder keyCompare) :
    Decides (keyLe (ν := ν) keyCompare) (greaterKey keyCompare) where
  refl a := by
    show keyCompare a.key a.key ≤ 0
    by_contra greater
    have less := (order.swap a.key a.key).mp (by omega)
    omega
  trans a b c := order.trans a.key b.key c.key
  wrong a b greater := by
    have less := (order.swap a.key b.key).mp (of_decide_eq_true greater)
    show keyCompare b.key a.key ≤ 0
    omega
  right a b notGreater := by
    have le := of_decide_eq_false notGreater
    show keyCompare a.key b.key ≤ 0
    omega

theorem sortInner_sorts (order : TotalOrder keyCompare) {count i : Nat} (small : count ≤ 2 ^ 31)
    (inside : i < count) (j : Nat) (xs : List (TTableEntry κ ν)) (length : xs.length = count)
    (less : i < j) (j_le : j ≤ count) (sorted : SortedBelow (keyLe keyCompare) i xs)
    (least : LeastUpTo (keyLe keyCompare) i j xs) :
    ∃ xs', sortInner keyCompare count i j xs = .ok xs' ∧ xs'.Perm xs ∧
      SortedBelow (keyLe keyCompare) (i + 1) xs' := by
  unfold sortInner
  split_ifs with more
  · obtain ⟨a, first⟩ := @getElem?_of_lt κ ν xs i (by omega)
    obtain ⟨b, second⟩ := @getElem?_of_lt κ ν xs j (by omega)
    have readI : entryAt xs (intIndex i) = .ok a := by
      rw [intIndex_small (by omega)]
      exact entryAt_inside first
    have readJ : entryAt xs (intIndex j) = .ok b := by
      rw [intIndex_small (by omega)]
      exact entryAt_inside second
    rw [readI, ok_bind, readJ, ok_bind]
    obtain ⟨xs', run, perm, next⟩ := sortInner_sorts order small inside (j + 1)
      (compareExchange (greaterKey keyCompare) xs i j a b) (compareExchange_length.trans length)
      (by omega) (by omega) (sorted.exchange less first second)
      (least.exchange order.decides less first second)
    exact ⟨xs', run, perm.trans (compareExchange_perm first second), next⟩
  · rw [show j = xs.length by omega] at least
    exact ⟨xs, rfl, List.Perm.refl xs, sorted.next least⟩
termination_by count - j

theorem sortOuter_sorts (order : TotalOrder keyCompare) {count : Nat} (small : count ≤ 2 ^ 31)
    (i : Nat) (xs : List (TTableEntry κ ν)) (length : xs.length = count)
    (sorted : SortedBelow (keyLe keyCompare) i xs) :
    ∃ xs', sortOuter keyCompare count (predUint32 count) i xs = .ok xs' ∧ xs'.Perm xs ∧
      xs'.Pairwise (keyLe keyCompare) := by
  have bound : count ≠ 0 → predUint32 count = count - 1 := by
    unfold predUint32
    omega
  unfold sortOuter
  split_ifs with more
  · by_cases empty : count = 0
    · have noEntries : xs = [] := eq_nil_of_length_eq_zero (length.trans empty)
      have nothing : sortInner keyCompare count i (i + 1) xs = .ok xs := by
        unfold sortInner
        rw [if_neg (by omega)]
        rfl
      rw [nothing, ok_bind]
      exact sortOuter_sorts order small (i + 1) xs length (by
        rw [noEntries]
        intro k l a b _ _ atK _
        cases atK)
    · have inside := bound empty
      obtain ⟨xs', run, perm, next⟩ := sortInner_sorts order small (by omega : i < count) (i + 1) xs
        length (by omega) (by omega) sorted leastUpTo_next
      rw [run, ok_bind]
      obtain ⟨ys, runs, perms, inOrder⟩ := sortOuter_sorts order small (i + 1) xs'
        (perm.length_eq.trans length) next
      exact ⟨ys, runs, perms.trans perm, inOrder⟩
  · refine ⟨xs, rfl, List.Perm.refl xs, sorted.pairwise ?_⟩
    by_cases empty : count = 0
    · omega
    · have all := bound empty
      omega
termination_by predUint32 count - i

theorem sortInner_negative {count : Nat} (long : 2 ^ 31 < count) (fits : count < 2 ^ 32) (j : Nat)
    (xs : List (TTableEntry κ ν)) (length : xs.length = count) (j_le : j ≤ 2 ^ 31) :
    ∃ index, sortInner keyCompare count 0 j xs = .error (.outOfBounds index) := by
  obtain ⟨a, first⟩ := @getElem?_of_lt κ ν xs 0 (by omega)
  have readFirst : entryAt xs (intIndex 0) = .ok a := by
    rw [intIndex_small (by decide)]
    exact entryAt_inside first
  unfold sortInner
  rw [if_pos (by omega), readFirst, ok_bind]
  rcases Nat.eq_or_lt_of_le j_le with here | before
  · have negative := intIndex_neg (Nat.le_of_eq here.symm) (by omega)
    rw [entryAt_outside (.inl negative), error_bind]
    exact ⟨_, rfl⟩
  · obtain ⟨b, second⟩ := @getElem?_of_lt κ ν xs j (by omega)
    have read : entryAt xs (intIndex j) = .ok b := by
      rw [intIndex_small before]
      exact entryAt_inside second
    rw [read, ok_bind]
    exact sortInner_negative long fits (j + 1) _ (compareExchange_length.trans length) before
termination_by count - j

/-! ### The calls -/

theorem ttableSortByKeys_sorts (order : TotalOrder keyCompare) (small : t.count ≤ 2 ^ 31) :
    ∃ entries', ttableSortByKeys keyCompare t = .ok { t with entries := entries', sorted := true } ∧
      entries'.Perm t.entries ∧ entries'.Pairwise (keyLe keyCompare) := by
  obtain ⟨entries', run, perm, inOrder⟩ :=
    sortOuter_sorts order small 0 t.entries rfl sortedBelow_zero
  refine ⟨entries', ?_, perm, inOrder⟩
  unfold ttableSortByKeys
  rw [run, ok_bind]
  rfl

theorem ttableSortByKeys_negative (long : 2 ^ 31 < t.count) (fits : t.count < 2 ^ 32) :
    ∃ index, ttableSortByKeys keyCompare t = .error (.outOfBounds index) := by
  obtain ⟨index, run⟩ :=
    @sortInner_negative κ ν keyCompare t.count long fits 1 t.entries rfl (by decide)
  have more : 0 < predUint32 t.count := by
    unfold predUint32
    omega
  refine ⟨index, ?_⟩
  unfold ttableSortByKeys sortOuter
  rw [if_pos more, run, error_bind, error_bind]

theorem ttableInsert_full (full : t.count = t.size) (key : κ) (value : ν) :
    ttableInsert keyCompare t key value = .error .assertion := if_neg (by omega)

theorem ttableInsert_adds (order : TotalOrder keyCompare) (honest : Honest keyCompare t)
    (room : t.count < t.size) (small : t.sorted = true → t.count < 2 ^ 31) (key : κ) (value : ν) :
    ∃ t', ttableInsert keyCompare t key value = .ok t' ∧ t'.size = t.size ∧ Honest keyCompare t' ∧
      t'.entries.Perm (⟨key, value⟩ :: t.entries) ∧ t'.sorted = t.sorted := by
  have size := honest.size_lt
  have behind : (t.entries ++ [(⟨key, value⟩ : TTableEntry κ ν)]).Perm (⟨key, value⟩ :: t.entries) :=
    perm_append_singleton _ _
  have length : (t.entries ++ [(⟨key, value⟩ : TTableEntry κ ν)]).length = t.count + 1 :=
    length_append
  unfold ttableInsert
  rw [if_pos room]
  dsimp only
  split_ifs with sorted
  · obtain ⟨entries', run, perm, inOrder⟩ := @ttableSortByKeys_sorts κ ν keyCompare
      { t with entries := t.entries ++ [⟨key, value⟩] } order (by
        have less := small sorted
        show (t.entries ++ [_]).length ≤ 2 ^ 31
        omega)
    refine ⟨_, run, rfl, ⟨?_, size, fun _ => inOrder⟩, perm.trans behind, sorted.symm⟩
    have same : entries'.length = (t.entries ++ [_]).length := perm.length_eq
    show entries'.length ≤ t.size
    omega
  · refine ⟨_, rfl, rfl, ⟨?_, size, fun isSorted => absurd isSorted sorted⟩, behind, rfl⟩
    show (t.entries ++ [_]).length ≤ t.size
    omega

theorem ttableInsert_negative (honest : Honest keyCompare t) (room : t.count < t.size)
    (sorted : t.sorted = true) (long : 2 ^ 31 ≤ t.count) (key : κ) (value : ν) :
    ∃ index, ttableInsert keyCompare t key value = .error (.outOfBounds index) := by
  have size := honest.size_lt
  have length : (t.entries ++ [(⟨key, value⟩ : TTableEntry κ ν)]).length = t.count + 1 :=
    length_append
  obtain ⟨index, run⟩ := @ttableSortByKeys_negative κ ν keyCompare
    { t with entries := t.entries ++ [⟨key, value⟩] }
    (by
      show 2 ^ 31 < (t.entries ++ [_]).length
      omega)
    (by
      show (t.entries ++ [_]).length < 2 ^ 32
      omega)
  refine ⟨index, ?_⟩
  unfold ttableInsert
  rw [if_pos room]
  rw [if_pos sorted, run]

theorem ttableLookupCustom_searched (order : TotalOrder keyCompare) (honest : Honest keyCompare t)
    {entryCompare : EntryCompare κ ν}
    (nonempty : t.sorted = true → entryCompare.isKey = true → 0 < t.count) (value : κ) :
    ∃ found, ttableLookupCustom keyCompare t entryCompare value = .ok found ∧
      Searched (entryCompare.compare keyCompare · value) t.entries found := by
  unfold ttableLookupCustom
  split_ifs with binary
  · rw [Bool.and_eq_true] at binary
    have some' := nonempty binary.1 binary.2
    have count_le := honest.count_le
    have size_lt := honest.size_lt
    have last : (predUint32 t.count : Int) = t.count - 1 := by
      unfold predUint32
      omega
    have monotone : Monotone (entryCompare.compare keyCompare · value) t.entries := by
      cases entryCompare with
      | key => exact order.monotone (honest.inOrder binary.1) value
      | custom compare => cases binary.2
    rw [last]
    refine binarySearch_searched monotone 0 (t.count - 1) (by omega) ?_ ?_ ?_
    · show (t.count : Int) - 1 < t.count
      omega
    · intro k entry before
      omega
    · intro k entry behind atK
      obtain ⟨inside, -⟩ := List.getElem?_eq_some_iff.mp atK
      have less : k < t.count := inside
      omega
  · exact linearSearch_searched _ 0 fun k entry before => absurd before (Nat.not_lt_zero k)

theorem binarySearch_fault {left right : Int} {fault : Fault}
    (le : left ≤ right) (read : entryAt entries ((left + right) / 2) = .error fault) :
    binarySearch compare entries left right = .error fault := by
  unfold binarySearch
  rw [if_pos le]
  dsimp only
  rw [read, error_bind]

theorem ttableLookupCustom_empty {entryCompare : EntryCompare κ ν} (sorted : t.sorted = true)
    (isKey : entryCompare.isKey = true) (empty : t.count = 0) (value : κ) :
    ttableLookupCustom keyCompare t entryCompare value = .error (.outOfBounds (2 ^ 31 - 1)) := by
  have noEntries : t.entries = [] := eq_nil_of_length_eq_zero empty
  have last : (predUint32 t.count : Int) = 2 ^ 32 - 1 := by
    unfold predUint32
    omega
  have pivot : (0 + (2 ^ 32 - 1) : Int) / 2 = 2 ^ 31 - 1 := by decide
  unfold ttableLookupCustom
  rw [sorted, isKey, Bool.and_self, if_pos rfl, last]
  refine binarySearch_fault (by decide) ?_
  rw [pivot, noEntries]
  exact entryAt_outside (.inr (Nat.zero_le _))

theorem searched_none_iff {found : Option Nat}
    (searched : Searched compare entries found) :
    found = none ↔ ∀ entry ∈ entries, compare entry ≠ 0 := by
  cases found with
  | none => exact iff_of_true rfl searched
  | some k =>
    obtain ⟨entry, here, equal⟩ := searched
    exact iff_of_false (fun same => by cases same)
      fun different => different entry (mem_of_getElem? here) equal

theorem searched_linear {found : Option Nat}
    (searched : Searched compare entries found) :
    found = none ↔ linearSearch compare entries 0 = .ok none := by
  obtain ⟨other, run, searchedOther⟩ := @linearSearch_searched κ ν entries compare 0
    fun k entry before => absurd before (Nat.not_lt_zero k)
  rw [searched_none_iff searched, ← searched_none_iff searchedOther, run, Except.ok.injEq]

theorem absent_perm (perm : entries.Perm contents) (key : κ) :
    Absent keyCompare entries key ↔ Absent keyCompare contents key := by
  unfold Absent
  simp [perm.mem_iff]

variable {call : TTableCall κ ν}

theorem Answered.perm {t' : TTable κ ν} {answer : TTableAnswer}
    (perm : entries.Perm contents) (answered : Answered keyCompare entries t t' call answer) :
    Answered keyCompare contents t t' call answer := by
  unfold Answered at answered ⊢
  split at answered
  · exact ⟨answered.1.trans (perm.cons _), answered.2⟩
  · exact ⟨(absent_perm perm _).mp answered.1, answered.2.1.trans (perm.cons _), answered.2.2⟩
  · exact ⟨fun absent => answered.1 ((absent_perm perm _).mpr absent), answered.2⟩
  · exact ⟨answered.1.trans perm, answered.2⟩
  · simp only [perm.mem_iff] at answered
    exact answered
  · exact answered

section

variable (order : TotalOrder keyCompare) (honest : Honest keyCompare t)

include order honest

theorem insert_follows (key : κ)
    (value : ν) (met : Meets keyCompare t (.insert key value)) :
    Follows keyCompare t.entries t (.insert key value) (t.call keyCompare (.insert key value)) := by
  have count_le := honest.count_le
  unfold TTable.call
  rcases Nat.lt_or_ge t.count t.size with room | full
  · obtain ⟨t', run, size, honest', perm, sorted⟩ :=
      ttableInsert_adds order honest room (fun isSorted => met isSorted room) key value
    dsimp only
    rw [run, ok_bind]
    exact ⟨size, honest', perm, sorted⟩
  · dsimp only
    rw [ttableInsert_full (by omega), error_bind]
    exact ⟨by omega, trivial⟩

theorem insertCheck_follows (key : κ)
    (value : ν) (met : Meets keyCompare t (.insertCheck key value)) :
    Follows keyCompare t.entries t (.insertCheck key value)
      (t.call keyCompare (.insertCheck key value)) := by
  have count_le := honest.count_le
  obtain ⟨found, lookup, searched⟩ := @ttableLookupCustom_searched κ ν keyCompare t order honest
    .key (fun sorted _ => (met sorted).1) key
  have absentIff : found = none ↔ Absent keyCompare t.entries key := searched_none_iff searched
  unfold TTable.call ttableInsertCheck ttableLookup
  dsimp only
  rw [lookup, ok_bind]
  cases found with
  | some k =>
    have present : ¬Absent keyCompare t.entries key := fun absent => by
      cases absentIff.mpr absent
    exact ⟨rfl, honest, present, rfl⟩
  | none =>
    have absent := absentIff.mp rfl
    rcases Nat.lt_or_ge t.count t.size with room | full
    · obtain ⟨t', run, size, honest', perm, sorted⟩ := ttableInsert_adds order honest room
        (fun isSorted => (met isSorted).2 absent room) key value
      rw [if_neg (by decide), run]
      exact ⟨size, honest', absent, perm, sorted⟩
    · rw [if_neg (by decide), ttableInsert_full (by omega)]
      exact ⟨by omega, absent⟩

theorem sortByKeys_follows
    (met : Meets keyCompare t .sortByKeys) :
    Follows keyCompare t.entries t .sortByKeys (t.call keyCompare .sortByKeys) := by
  obtain ⟨entries', run, perm, inOrder⟩ := ttableSortByKeys_sorts order met
  unfold TTable.call
  rw [run, ok_bind]
  refine ⟨rfl, ⟨?_, honest.size_lt, fun _ => inOrder⟩, perm, rfl⟩
  exact Nat.le_trans (Nat.le_of_eq perm.length_eq) honest.count_le

theorem lookupCustom_follows
    (entryCompare : EntryCompare κ ν) (value : κ)
    (met : Meets keyCompare t (.lookupCustom entryCompare value)) :
    Follows keyCompare t.entries t (.lookupCustom entryCompare value)
      (t.call keyCompare (.lookupCustom entryCompare value)) := by
  obtain ⟨found, run, searched⟩ := ttableLookupCustom_searched order honest met value
  unfold TTable.call
  dsimp only
  rw [run, ok_bind]
  exact ⟨rfl, honest, rfl, searched, searched_none_iff searched, searched_linear searched⟩

theorem call_outOfBounds
    (unmet : ¬Meets keyCompare t call) :
    ∃ index, t.call keyCompare call = .error (.outOfBounds index) := by
  have size_lt := honest.size_lt
  have count_le := honest.count_le
  unfold TTable.call
  cases call with
  | insert key value =>
    simp only [Meets, Classical.not_imp, Nat.not_lt] at unmet
    obtain ⟨sorted, room, long⟩ := unmet
    obtain ⟨index, run⟩ := ttableInsert_negative honest room sorted long key value
    dsimp only
    rw [run, error_bind]
    exact ⟨index, rfl⟩
  | insertCheck key value =>
    simp only [Meets, Classical.not_imp] at unmet
    obtain ⟨sorted, unmet⟩ := unmet
    unfold ttableInsertCheck ttableLookup
    dsimp only
    by_cases empty : t.count = 0
    · rw [ttableLookupCustom_empty sorted rfl empty, error_bind, error_bind]
      exact ⟨_, rfl⟩
    · simp only [Nat.pos_of_ne_zero empty, true_and, Classical.not_imp, Nat.not_lt] at unmet
      obtain ⟨absent, room, long⟩ := unmet
      obtain ⟨found, lookup, searched⟩ := @ttableLookupCustom_searched κ ν keyCompare t order
        honest .key (fun _ _ => Nat.pos_of_ne_zero empty) key
      obtain ⟨index, run⟩ := ttableInsert_negative honest room sorted long key value
      rw [lookup, ok_bind, (searched_none_iff searched).mpr absent, if_neg (by decide), run]
      exact ⟨index, rfl⟩
  | sortByKeys =>
    obtain ⟨index, run⟩ := ttableSortByKeys_negative (Nat.not_le.mp unmet)
      (Nat.lt_of_le_of_lt count_le size_lt)
    rw [run, error_bind]
    exact ⟨index, rfl⟩
  | lookupCustom entryCompare value =>
    simp only [Meets, Classical.not_imp, Nat.not_lt] at unmet
    obtain ⟨sorted, isKey, empty⟩ := unmet
    dsimp only
    rw [ttableLookupCustom_empty sorted isKey (Nat.le_zero.mp empty), error_bind]
    exact ⟨_, rfl⟩

end

/-! ### Runs -/

def contentsAfter (contents : List (TTableEntry κ ν)) :
    TTableCall κ ν → TTableAnswer → List (TTableEntry κ ν)
  | .insert key value, .done | .insertCheck key value, .inserted true => ⟨key, value⟩ :: contents
  | _, _ => contents

/-- The tables that calls lead to, with what has been put into them. -/
inductive Reaches (keyCompare : κ → κ → Int) : TTable κ ν → List (TTableEntry κ ν) → Prop where
  | start {t : TTable κ ν} (honest : Honest keyCompare t) : Reaches keyCompare t t.entries
  | call {t t' : TTable κ ν} {contents : List (TTableEntry κ ν)} {call : TTableCall κ ν}
      {answer : TTableAnswer} (before : Reaches keyCompare t contents)
      (returns : t.call keyCompare call = .ok (answer, t')) :
      Reaches keyCompare t' (contentsAfter contents call answer)

theorem ttableCreate_honest {entriesMax : Nat} (less : entriesMax < 2 ^ 32) :
    Honest keyCompare (ttableCreate entriesMax : TTable κ ν) where
  count_le := Nat.zero_le _
  size_lt := less
  inOrder sorted := by cases sorted

theorem call_follows (order : TotalOrder keyCompare) (honest : Honest keyCompare t)
    (met : Meets keyCompare t call) :
    Follows keyCompare t.entries t call (t.call keyCompare call) := by
  cases call with
  | insert key value => exact insert_follows order honest key value met
  | insertCheck key value => exact insertCheck_follows order honest key value met
  | sortByKeys => exact sortByKeys_follows order honest met
  | lookupCustom entryCompare value => exact lookupCustom_follows order honest entryCompare value met

theorem call_follows_iff (order : TotalOrder keyCompare) (honest : Honest keyCompare t)
    (call : TTableCall κ ν) :
    Follows keyCompare t.entries t call (t.call keyCompare call) ↔ Meets keyCompare t call := by
  refine ⟨fun follows => ?_, call_follows order honest⟩
  by_contra unmet
  obtain ⟨index, run⟩ := call_outOfBounds order honest unmet
  rw [run] at follows
  exact follows

theorem follows_perm (perm : entries.Perm contents) (call : TTableCall κ ν)
    (outcome : Except Fault (TTableAnswer × TTable κ ν)) :
    Follows keyCompare entries t call outcome ↔ Follows keyCompare contents t call outcome := by
  have adds : Adds keyCompare entries call ↔ Adds keyCompare contents call := by
    cases call with
    | insertCheck key value => exact absent_perm perm key
    | _ => exact Iff.rfl
  cases outcome with
  | error fault =>
    cases fault with
    | assertion => exact and_congr_right fun _ => adds
    | outOfBounds index => exact Iff.rfl
  | ok result =>
    exact and_congr_right fun _ => and_congr_right fun _ =>
      ⟨fun answered => answered.perm perm, fun answered => answered.perm perm.symm⟩

theorem Answered.entriesAfter {t' : TTable κ ν} {answer : TTableAnswer}
    (perm : t.entries.Perm contents) (answered : Answered keyCompare contents t t' call answer) :
    t'.entries.Perm (contentsAfter contents call answer) := by
  unfold Answered at answered
  split at answered
  · exact answered.1
  · exact answered.2.1
  · rw [answered.2]
    exact perm
  · exact answered.1
  · rw [answered.1]
    exact perm
  · exact answered.elim

theorem reaches_honest (order : TotalOrder keyCompare) (reaches : Reaches keyCompare t contents) :
    Honest keyCompare t ∧ t.entries.Perm contents := by
  induction reaches with
  | start honest => exact ⟨honest, List.Perm.refl _⟩
  | @call t t' contents call answer before returns ih =>
    obtain ⟨honest, perm⟩ := ih
    have met : Meets keyCompare t call := by
      by_contra unmet
      obtain ⟨index, run⟩ := call_outOfBounds order honest unmet
      rw [run] at returns
      cases returns
    have follows := call_follows order honest met
    rw [follows_perm perm, returns] at follows
    exact ⟨follows.2.1, Answered.entriesAfter perm follows.2.2⟩

/-- In every table that calls lead to, a call does what the contents say, with all indices in
bounds, exactly if no key is looked up in an empty table that has been sorted, and no table is
sorted that is too long for an `int`. -/
theorem ttable_follows_iff (order : TotalOrder keyCompare)
    (reaches : Reaches keyCompare t contents) :
    t.entries.Perm contents ∧ Honest keyCompare t ∧
      ∀ call, Follows keyCompare contents t call (t.call keyCompare call) ↔
        Meets keyCompare t call := by
  obtain ⟨honest, perm⟩ := reaches_honest order reaches
  refine ⟨perm, honest, fun call => ?_⟩
  rw [← follows_perm perm]
  exact call_follows_iff order honest call

def compareUint32 (a b : Nat) : Int := if b < a then 1 else if a < b then -1 else 0

theorem compareUint32_order : TotalOrder compareUint32 where
  swap a b := by
    unfold compareUint32
    split_ifs <;> omega
  trans a b c := by
    unfold compareUint32
    split_ifs <;> omega

/-- Two entries are put into a table, the larger key first, and it is sorted. -/
theorem ttable_follows_iff_created :
    ∃ t : TTable Nat Nat, t.sorted = true ∧ t.entries.Perm [⟨3, 1⟩, ⟨7, 0⟩] ∧
      Honest compareUint32 t ∧ ∀ call,
        Follows compareUint32 [⟨3, 1⟩, ⟨7, 0⟩] t call (t.call compareUint32 call) ↔
          Meets compareUint32 t call := by
  let filled : TTable Nat Nat := ⟨[⟨7, 0⟩, ⟨3, 1⟩], 4, false⟩
  obtain ⟨entries', run, -, -⟩ := @ttableSortByKeys_sorts Nat Nat compareUint32 filled
    compareUint32_order (by decide)
  have created : Reaches compareUint32 (ttableCreate 4 : TTable Nat Nat) [] :=
    .start (ttableCreate_honest (by decide))
  have first := created.call (show (ttableCreate 4).call compareUint32 (.insert 7 0) =
    .ok (.done, (⟨[⟨7, 0⟩], 4, false⟩ : TTable Nat Nat)) from rfl)
  have second := first.call (show TTable.call compareUint32 _ (.insert 3 1) =
    .ok (.done, filled) from rfl)
  have sorts : filled.call compareUint32 .sortByKeys =
      .ok (.done, { filled with entries := entries', sorted := true }) := by
    unfold TTable.call
    dsimp only
    rw [run, ok_bind]
    rfl
  exact ⟨_, rfl, ttable_follows_iff compareUint32_order (second.call sorts)⟩

/-- An empty table is sorted, and a key is looked up in it. -/
theorem emptyTable_faults :
    ∃ t : TTable Nat Nat, (ttableCreate 4).call compareUint32 .sortByKeys = .ok (.done, t) ∧
      t.call compareUint32 (.lookupCustom .key 7) = .error (.outOfBounds (2 ^ 31 - 1)) := by
  obtain ⟨entries', run, perm, -⟩ := @ttableSortByKeys_sorts Nat Nat compareUint32 (ttableCreate 4)
    compareUint32_order (by decide)
  have noEntries : entries' = [] := List.Perm.eq_nil perm
  rw [noEntries] at run
  refine ⟨⟨[], 4, true⟩, ?_, ?_⟩
  · unfold TTable.call
    dsimp only
    rw [run, ok_bind]
    rfl
  · unfold TTable.call
    dsimp only
    rw [ttableLookupCustom_empty rfl rfl rfl, error_bind]

end Tlib.Support
