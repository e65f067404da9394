import Mathlib.Data.List.DropRight
import Mathlib.Data.List.Perm.Basic

/-!
Contract: searching an array that is kept sorted.

Owns: sorting as a parameter, the binary search for the last index with a property, and its result
and its bounds also where the array is not sorted.
-/

namespace Tlib.Library.SortedArray

open Bool List Option

variable {α : Type*}

/-- A sorting function; elements that compare equal come in any order. -/
structure Sorter (le : α → α → Prop) where
  sort : List α → List α
  perm : ∀ l, (sort l).Perm l
  sorted : ∀ l, (sort l).Pairwise le

/-- `res` is the last index found so far, `-1` at first. -/
def lastIndexLoop (p : Nat → Bool) : Nat → Int → Int → Int → Int
  | 0, _, _, res => res
  | fuel + 1, lo, hi, res =>
    if lo ≤ hi then
      let testIndex := lo + (hi - lo) / 2
      if p testIndex.toNat then lastIndexLoop p fuel (testIndex + 1) hi testIndex
      else lastIndexLoop p fuel lo (testIndex - 1) res
    else res

def lastIndex (p : Nat → Bool) (length : Nat) : Int :=
  lastIndexLoop p (length + 1) 0 (length - 1) (-1)

theorem lastIndexLoop_eq {p : Nat → Bool} {n k : Nat} (holds : ∀ i, i < k → p i = true)
    (fails : ∀ i, k ≤ i → i < n → p i = false) (fuel : Nat) (lo hi : Int) (loNonneg : 0 ≤ lo)
    (lo_le : lo ≤ k) (le_hi : k ≤ hi + 1) (hi_lt : hi < n) (enough : hi - lo + 1 < fuel) :
    lastIndexLoop p fuel lo hi (lo - 1) = k - 1 := by
  induction fuel generalizing lo hi with
  | zero => omega
  | succ fuel ih =>
    unfold lastIndexLoop
    by_cases inside : lo ≤ hi
    · rw [if_pos inside]
      have low : lo ≤ lo + (hi - lo) / 2 := by omega
      have high : lo + (hi - lo) / 2 ≤ hi := by omega
      generalize lo + (hi - lo) / 2 = testIndex at low high
      by_cases below : testIndex < k
      · have taken : p testIndex.toNat = true := holds _ (by omega)
        have next := ih (testIndex + 1) hi (by omega) (by omega) le_hi hi_lt
          (by omega)
        rw [show testIndex + 1 - 1 = testIndex by omega] at next
        simp only [taken, if_true]
        exact next
      · have refused : p testIndex.toNat = false := fails _ (by omega) (by omega)
        simp only [refused, false_eq_true, if_false]
        exact ih lo (testIndex - 1) loNonneg lo_le (by omega) (by omega)
          (by omega)
    · rw [if_neg inside]
      omega

theorem lastIndex_eq {p : Nat → Bool} {n k : Nat} (k_le : k ≤ n)
    (holds : ∀ i, i < k → p i = true) (fails : ∀ i, k ≤ i → i < n → p i = false) :
    lastIndex p n = k - 1 :=
  lastIndexLoop_eq holds fails (n + 1) 0 (n - 1) (by omega) (by omega) (by omega) (by omega)
    (by omega)

/-- The indices at which a halving search looks whose answer is `last`. -/
def halvingPath (last : Int) : Nat → Int → Int → List Nat
  | 0, _, _ => []
  | fuel + 1, lo, hi =>
    if lo ≤ hi then
      let testIndex := lo + (hi - lo) / 2
      testIndex.toNat ::
        if testIndex ≤ last then halvingPath last fuel (testIndex + 1) hi
        else halvingPath last fuel lo (testIndex - 1)
    else []

def searchPath (length : Nat) (last : Int) : List Nat :=
  halvingPath last (length + 1) 0 (length - 1)

theorem lastIndexLoop_bounds (p : Nat → Bool) (fuel : Nat) (lo hi : Int) (loNonneg : 0 ≤ lo)
    (meet : lo ≤ hi + 1) :
    lo - 1 ≤ lastIndexLoop p fuel lo hi (lo - 1) ∧ lastIndexLoop p fuel lo hi (lo - 1) ≤ hi ∧
      (lastIndexLoop p fuel lo hi (lo - 1) = lo - 1 ∨
        p (lastIndexLoop p fuel lo hi (lo - 1)).toNat = true) := by
  induction fuel generalizing lo hi with
  | zero =>
    unfold lastIndexLoop
    exact ⟨Int.le_refl _, by omega, Or.inl rfl⟩
  | succ fuel ih =>
    unfold lastIndexLoop
    by_cases inside : lo ≤ hi
    · rw [if_pos inside]
      have low : lo ≤ lo + (hi - lo) / 2 := by omega
      have high : lo + (hi - lo) / 2 ≤ hi := by omega
      generalize lo + (hi - lo) / 2 = testIndex at low high
      cases taken : p testIndex.toNat with
      | true =>
        have next := ih (testIndex + 1) hi (by omega) (by omega)
        rw [show testIndex + 1 - 1 = testIndex by omega] at next
        simp only [taken, if_true]
        refine ⟨by omega, next.2.1, Or.inr ?_⟩
        rcases next.2.2 with same | holds
        · rw [same, taken]
        · exact holds
      | false =>
        have next := ih lo (testIndex - 1) loNonneg (by omega)
        simp only [taken, false_eq_true, if_false]
        exact ⟨next.1, by omega, next.2.2⟩
    · rw [if_neg inside]
      exact ⟨Int.le_refl _, by omega, Or.inl rfl⟩

theorem lastIndexLoop_eq_iff (p : Nat → Bool) {last : Int} (fuel : Nat) (lo hi : Int)
    (loNonneg : 0 ≤ lo) (lo_le : lo - 1 ≤ last) (le_hi : last ≤ hi)
    (enough : hi - lo + 1 < fuel) :
    lastIndexLoop p fuel lo hi (lo - 1) = last ↔
      ∀ i ∈ halvingPath last fuel lo hi, p i = true ↔ (i : Int) ≤ last := by
  induction fuel generalizing lo hi with
  | zero => omega
  | succ fuel ih =>
    unfold lastIndexLoop halvingPath
    by_cases inside : lo ≤ hi
    · rw [if_pos inside, if_pos inside]
      have low : lo ≤ lo + (hi - lo) / 2 := by omega
      have high : lo + (hi - lo) / 2 ≤ hi := by omega
      generalize lo + (hi - lo) / 2 = testIndex at low high
      have back : (testIndex.toNat : Int) = testIndex := by omega
      dsimp only
      rw [forall_mem_cons, back]
      by_cases notBehind : testIndex ≤ last
      · rw [if_pos notBehind]
        cases taken : p testIndex.toNat with
        | true =>
          have next := ih (testIndex + 1) hi (by omega) (by omega) le_hi
            (by omega)
          simpa [notBehind] using next
        | false =>
          -- the search turns left and stays in front of the test index
          have bounds := lastIndexLoop_bounds p fuel lo (testIndex - 1) loNonneg (by omega)
          simp only [false_eq_true, if_false]
          constructor
          · omega
          · exact fun path => absurd (path.1.mpr notBehind) (by decide)
      · rw [if_neg notBehind]
        cases taken : p testIndex.toNat with
        | true =>
          have bounds := lastIndexLoop_bounds p fuel (testIndex + 1) hi (by omega) (by omega)
          rw [show testIndex + 1 - 1 = testIndex by omega] at bounds
          simp only [if_true]
          constructor
          · omega
          · exact fun path => absurd (path.1.mp trivial) notBehind
        | false =>
          have next := ih lo (testIndex - 1) loNonneg lo_le (by omega)
            (by omega)
          simpa [notBehind] using next
    · rw [if_neg inside, if_neg inside]
      simp only [not_mem_nil, false_implies, implies_true, iff_true]
      omega

theorem lastIndex_bounds (p : Nat → Bool) (length : Nat) :
    -1 ≤ lastIndex p length ∧ lastIndex p length < length ∧
      (0 ≤ lastIndex p length → p (lastIndex p length).toNat = true) := by
  have bounds := lastIndexLoop_bounds p (length + 1) 0 (length - 1) (Int.le_refl _) (by omega)
  change -1 ≤ lastIndex p length ∧ lastIndex p length ≤ length - 1 ∧
    (lastIndex p length = -1 ∨ p (lastIndex p length).toNat = true) at bounds
  refine ⟨bounds.1, by omega, fun nonneg => ?_⟩
  rcases bounds.2.2 with nothing | holds
  · omega
  · exact holds

theorem lastIndex_eq_iff (p : Nat → Bool) {length : Nat} {last : Int} (ge : -1 ≤ last)
    (lt : last < length) :
    lastIndex p length = last ↔ ∀ i ∈ searchPath length last, p i = true ↔ (i : Int) ≤ last :=
  lastIndexLoop_eq_iff p (length + 1) 0 (length - 1) (Int.le_refl _) (by omega) (by omega)
    (by omega)

def readAt (values : List Nat) (index : Int) : Option Nat :=
  if 0 ≤ index then values[index.toNat]? else none

/-- `none` is a read outside the array, or a loop that has not ended. -/
def floorLoop (values : List Nat) (key : Nat) : Nat → Int → Int → Option Int
  | 0, _, _ => none
  | fuel + 1, lo, hi =>
    if lo ≤ hi then do
      let m := (lo + hi) / 2
      let value ← readAt values m
      if value = key then return m
      if key < value then floorLoop values key fuel lo (m - 1)
      else floorLoop values key fuel (m + 1) hi
    else return hi

def floorIndex (values : List Nat) (key : Nat) : Option Int :=
  floorLoop values key (values.length + 1) 0 (values.length - 1)

/-- What the loop returns: no element behind the index is up to the key, unless it was hit. -/
structure IsFloor (values : List Nat) (key : Nat) (index : Int) : Prop where
  ge : -1 ≤ index
  lt : index < values.length
  here : ∀ value, readAt values index = some value → value ≤ key
  next : readAt values index = some key ∨ ∀ value, readAt values (index + 1) = some value →
    key < value

theorem readAt_inside {values : List Nat} {index : Int} (nonneg : 0 ≤ index)
    (lt : index.toNat < values.length) : readAt values index = some values[index.toNat] := by
  rw [readAt, if_pos nonneg, List.getElem?_eq_getElem]

theorem readAt_neg (values : List Nat) {index : Int} (neg : index < 0) :
    readAt values index = none := by
  rw [readAt, if_neg (by omega)]

theorem readAt_end (values : List Nat) {index : Int} (ge : values.length ≤ index) :
    readAt values index = none := by
  rw [readAt, if_pos (by omega), List.getElem?_eq_none (by omega)]

theorem floorLoop_isFloor {values : List Nat} {key : Nat} (fuel : Nat) (lo hi : Int)
    (nonneg : 0 ≤ lo) (lo_le : lo ≤ hi + 1) (hi_lt : hi < values.length)
    (left : ∀ value, readAt values (lo - 1) = some value → value < key)
    (right : ∀ value, readAt values (hi + 1) = some value → key < value)
    (enough : hi - lo + 1 < fuel) :
    ∃ index, floorLoop values key fuel lo hi = some index ∧ IsFloor values key index := by
  induction fuel generalizing lo hi with
  | zero => omega
  | succ fuel ih =>
    unfold floorLoop
    by_cases inside : lo ≤ hi
    · rw [if_pos inside]
      have low : lo ≤ (lo + hi) / 2 := by omega
      have high : (lo + hi) / 2 ≤ hi := by omega
      generalize (lo + hi) / 2 = m at low high
      have below : m.toNat < values.length := by omega
      have read := readAt_inside (by omega) below
      dsimp only [bind_eq_bind, Option.pure_def]
      rw [read, bind_some]
      split_ifs with equal less
      · refine ⟨m, rfl, by omega, by omega, ?_, Or.inl (equal ▸ read)⟩
        intro other same
        rw [read, some.injEq] at same
        omega
      · refine ih lo (m - 1) nonneg (by omega) (by omega) left ?_ (by omega)
        intro other same
        rw [Int.sub_add_cancel, read, some.injEq] at same
        omega
      · refine ih (m + 1) hi (by omega) (by omega) hi_lt ?_ right (by omega)
        intro other same
        rw [Int.add_sub_cancel, read, some.injEq] at same
        omega
    · rw [if_neg inside]
      have meet : hi = lo - 1 := by omega
      refine ⟨hi, rfl, by omega, hi_lt, ?_, Or.inr right⟩
      rw [meet]
      exact fun value same => (left value same).le

theorem floorIndex_isFloor (values : List Nat) (key : Nat) :
    ∃ index, floorIndex values key = some index ∧ IsFloor values key index := by
  apply floorLoop_isFloor
  · omega
  · omega
  · omega
  · intro value same
    rw [readAt_neg values (by omega)] at same
    exact absurd same (by simp)
  · intro value same
    rw [readAt_end values (by omega)] at same
    exact absurd same (by simp)
  · omega

theorem sorted_le {values : List Nat} (sorted : values.Pairwise (· ≤ ·)) {i j : Nat}
    (le : i ≤ j) (inside : j < values.length) : values[i] ≤ values[j] := by
  obtain same | less := Nat.eq_or_lt_of_le le
  · subst same
    exact Nat.le_refl _
  · exact pairwise_iff_getElem.mp sorted i j (by omega) inside less

theorem IsFloor.eq_of_sorted {values : List Nat} {key k : Nat} {index : Int}
    (isFloor : IsFloor values key index) (sorted : values.Pairwise (· ≤ ·))
    (inside : k < values.length) (less : values[k] < key)
    (greater : ∀ j (below : j < values.length), k < j → key < values[j]) : index = k := by
  have ge := isFloor.ge
  have lt := isFloor.lt
  by_contra other
  by_cases after : (k : Int) < index
  · have here := isFloor.here _ (readAt_inside (by omega) (by omega))
    have above := greater index.toNat (by omega) (by omega)
    omega
  · obtain hit | next := isFloor.next
    · by_cases nonneg : 0 ≤ index
      · rw [readAt_inside nonneg (by omega), some.injEq] at hit
        have le := sorted_le sorted (by omega : index.toNat ≤ k) inside
        omega
      · rw [readAt_neg values (by omega)] at hit
        exact absurd hit (by simp)
    · have above := next _ (readAt_inside (by omega) (by omega))
      have le := sorted_le sorted (by omega : (index + 1).toNat ≤ k) inside
      omega

theorem IsFloor.nonneg {values : List Nat} {key : Nat} {index : Int}
    (isFloor : IsFloor values key index) (inside : 0 < values.length) (le : values[0] ≤ key) :
    0 ≤ index := by
  have ge := isFloor.ge
  by_contra negative
  obtain hit | next := isFloor.next
  · rw [readAt_neg values (by omega)] at hit
    exact absurd hit (by simp)
  · have first := @readAt_inside values 0 (by omega) (by omega)
    have above := next values[0] (by rw [show index + 1 = 0 by omega]; exact first)
    omega

/-- The probe tells where to look next; `none` is a read outside the array. -/
def hitLoop (probe : Nat → Ordering) (values : List Nat) : Nat → Int → Int → Option Bool
  | 0, _, _ => none
  | fuel + 1, lo, hi =>
    if lo ≤ hi then do
      let m := (lo + hi) / 2
      let value ← readAt values m
      match probe value with
      | .eq => return true
      | .lt => hitLoop probe values fuel lo (m - 1)
      | .gt => hitLoop probe values fuel (m + 1) hi
    else return false

theorem hitLoop_eq {probe : Nat → Ordering} {values : List Nat} {count : Nat}
    (inside : count ≤ values.length)
    (closed : (values.take count).Pairwise fun a b =>
      (probe a = .lt → probe b = .lt) ∧ (probe b = .gt → probe a = .gt))
    (fuel : Nat) (lo hi : Int) (nonneg : 0 ≤ lo) (meet : lo ≤ hi + 1) (hi_lt : hi < count)
    (left : ∀ i : Nat, (i : Int) < lo → ∀ value, values[i]? = some value → probe value = .gt)
    (right : ∀ i : Nat, hi < i → i < count → ∀ value, values[i]? = some value →
      probe value = .lt) (enough : hi - lo + 1 < fuel) :
    hitLoop probe values fuel lo hi =
      some ((values.take count).any fun value => probe value = .eq) := by
  induction fuel generalizing lo hi with
  | zero => omega
  | succ fuel ih =>
    unfold hitLoop
    by_cases within : lo ≤ hi
    · rw [if_pos within]
      have low : lo ≤ (lo + hi) / 2 := by omega
      have high : (lo + hi) / 2 ≤ hi := by omega
      generalize (lo + hi) / 2 = m at low high
      have below : m.toNat < values.length := by omega
      have read := readAt_inside (by omega) below
      dsimp only [bind_eq_bind, Option.pure_def]
      rw [read, bind_some]
      -- what the closed property says about the elements before and behind the one read
      have pairs := pairwise_iff_getElem.mp closed
      simp only [length_take, getElem_take] at pairs
      cases here : probe values[m.toNat] with
      | eq =>
        have member : values[m.toNat] ∈ values.take count := by
          rw [mem_take_iff_getElem]
          exact ⟨m.toNat, by omega, rfl⟩
        have hit : ((values.take count).any fun value => probe value = .eq) = true :=
          List.any_eq_true.mpr ⟨_, member, by simp [here]⟩
        rw [hit]
      | lt =>
        refine ih lo (m - 1) nonneg (by omega) (by omega) left ?_ (by omega)
        intro i behind less value same
        obtain ⟨lt, rfl⟩ := List.getElem?_eq_some_iff.mp same
        rcases Nat.lt_or_ge m.toNat i with later | notLater
        · exact (pairs m.toNat i (by omega) (by omega) later).1 here
        · have equal : i = m.toNat := by omega
          subst equal
          exact here
      | gt =>
        refine ih (m + 1) hi (by omega) (by omega) hi_lt ?_ right (by omega)
        intro i before value same
        obtain ⟨lt, rfl⟩ := List.getElem?_eq_some_iff.mp same
        rcases Nat.lt_or_ge i m.toNat with earlier | notEarlier
        · exact (pairs i m.toNat (by omega) (by omega) earlier).2 here
        · have equal : i = m.toNat := by omega
          subst equal
          exact here
    · rw [if_neg within]
      have noHit : ((values.take count).any fun value => probe value = .eq) = false := by
        rw [List.any_eq_false]
        intro value member
        obtain ⟨i, below, rfl⟩ := mem_take_iff_getElem.mp member
        have read := List.getElem?_eq_getElem (l := values) (i := i) (by omega)
        rcases Int.lt_or_le i lo with before | notBefore
        · simp [left i before _ read]
        · simp [right i (by omega) (by omega) _ read]
      rw [noHit]
      rfl

theorem dropWhile_fails {p : α → Bool} {l : List α}
    (closed : l.Pairwise fun a b => p b = true → p a = true) :
    ∀ a ∈ l.dropWhile p, p a = false := by
  induction l with
  | nil => exact fun a member => absurd member not_mem_nil
  | cons head rest ih =>
    rw [pairwise_cons] at closed
    cases holds : p head with
    | true =>
      rw [dropWhile_cons_of_pos holds]
      exact ih closed.2
    | false =>
      rw [dropWhile_cons_of_neg (by simp [holds])]
      intro a member
      rcases mem_cons.mp member with same | later
      · rw [same, holds]
      · by_contra holdsLater
        rw [not_eq_false] at holdsLater
        rw [closed.1 a later holdsLater] at holds
        exact absurd holds (by decide)

theorem lastIndex_takeWhile {p : α → Bool} {l : List α}
    (closed : l.Pairwise fun a b => p b = true → p a = true) :
    lastIndex (fun i => l[i]?.any p) l.length = (l.takeWhile p).length - 1 := by
  have split := takeWhile_append_dropWhile (p := p) (l := l)
  apply lastIndex_eq
  · exact (takeWhile_sublist p).length_le
  · intro i below
    have here : l[i]? = some (l.takeWhile p)[i] := by
      rw [← List.getElem?_eq_getElem below]
      nth_rewrite 1 [← split]
      exact List.getElem?_append_left below
    have holds : p (l.takeWhile p)[i] = true := mem_takeWhile_imp (getElem_mem below)
    rw [here]
    exact holds
  · intro i above inside
    have member : l[i] ∈ l.dropWhile p := by
      have here : l[i]? = (l.dropWhile p)[i - (l.takeWhile p).length]? := by
        nth_rewrite 1 [← split]
        exact List.getElem?_append_right above
      rw [List.getElem?_eq_getElem inside] at here
      exact mem_of_getElem? here.symm
    rw [List.getElem?_eq_getElem inside]
    exact dropWhile_fails closed _ member

theorem rdropWhile_eq_filter {p : α → Bool} {l : List α}
    (closed : l.Pairwise fun a b => p a = true → p b = true) :
    l.rdropWhile p = l.filter fun a => !p a := by
  induction l using reverseRecOn with
  | nil => rfl
  | append_singleton rest last ih =>
    rw [pairwise_append] at closed
    cases holds : p last with
    | true =>
      rw [rdropWhile_concat_pos _ _ _ holds, ih closed.1]
      simp [holds]
    | false =>
      have allFail : ∀ a ∈ rest, p a = false := by
        intro a member
        by_contra holdsBefore
        rw [not_eq_false] at holdsBefore
        rw [closed.2.2 a member last mem_cons_self holdsBefore] at holds
        exact absurd holds (by decide)
      rw [rdropWhile_concat_neg _ _ _ (by simp [holds]), filter_append,
        filter_eq_self.mpr (fun a member => by simp [allFail a member])]
      simp [holds]

theorem rdropWhile_append {p : α → Bool} {front back : List α}
    (run : ∀ a ∈ back, p a = true)
    (fence : ∀ a, front.getLast? = some a → p a = false) :
    (front ++ back).rdropWhile p = front := by
  induction back using reverseRecOn with
  | nil =>
    rw [append_nil, rdropWhile_eq_self_iff]
    intro nonempty
    rw [fence _ (getLast?_eq_some_getLast nonempty)]
    decide
  | append_singleton rest last ih =>
    have lastRun : p last = true := run last (by simp)
    rw [← append_assoc, rdropWhile_concat_pos _ _ _ lastRun]
    exact ih fun a member => run a (mem_append_left _ member)

theorem rdropWhile_last_fails {p : α → Bool} {l : List α} {a : α}
    (isLast : (l.rdropWhile p).getLast? = some a) : p a = false := by
  have nonempty : l.rdropWhile p ≠ [] := by
    intro isEmpty
    rw [isEmpty] at isLast
    exact absurd isLast (by simp)
  rw [getLast?_eq_some_getLast nonempty, some.injEq] at isLast
  rw [← isLast, ← not_eq_true]
  exact rdropWhile_last_not p l nonempty

/-- A scan that ends at the first element outside `continues`. -/
def scanWhile (continues accepts : α → Bool) : List α → Option α
  | [] => none
  | a :: rest =>
    if continues a then if accepts a then some a else scanWhile continues accepts rest
    else none

theorem scanWhile_eq_find? {continues accepts : α → Bool} {l : List α}
    (closed : l.Pairwise fun a b => continues a = false → continues b = false) :
    scanWhile continues accepts l = l.find? fun a => continues a && accepts a := by
  induction l with
  | nil => rfl
  | cons a rest ih =>
    rw [pairwise_cons] at closed
    unfold scanWhile
    cases goesOn : continues a with
    | true =>
      rw [List.find?_cons]
      cases isAccepted : accepts a <;> simp [goesOn, ih closed.2]
    | false =>
      have noneLater : ∀ b ∈ rest, ¬ (continues b && accepts b) = true := by
        intro b member
        simp [closed.1 b member goesOn]
      simpa [goesOn] using (List.find?_eq_none.mpr noneLater).symm

theorem find?_reverse_greatest {le : α → α → Prop} (reflexive : ∀ a, le a a) {l : List α}
    (sorted : l.Pairwise le) {accepts : α → Bool} {a : α}
    (found : l.reverse.find? accepts = some a) : ∀ b ∈ l, accepts b = true → le b a := by
  obtain ⟨-, front, back, split, refused⟩ := List.find?_eq_some_iff_append.mp found
  have original : l = back.reverse ++ a :: front.reverse := by
    rw [← reverse_reverse l, split]
    simp
  intro b member isAccepted
  rw [original] at member sorted
  rw [pairwise_append, pairwise_cons] at sorted
  rcases mem_append.mp member with before | after
  · exact sorted.2.2 b before a mem_cons_self
  · rcases mem_cons.mp after with same | later
    · rw [same]
      exact reflexive a
    · have skipped := refused b (mem_reverse.mp later)
      simp [isAccepted] at skipped

end Tlib.Library.SortedArray
