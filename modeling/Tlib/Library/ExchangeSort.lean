import Mathlib.Data.List.Perm.Basic

/-!
Contract: sorting by exchanges of an element with every later one.

Owns: the exchange of two elements if they are in the wrong order, and the invariants of the inner
and the outer loop.
-/

namespace Tlib.Library.ExchangeSort

variable {α : Type*}

/-- The elements `a` and `b` at two indices, exchanged if the first is greater. -/
def compareExchange (greater : α → α → Bool) (xs : List α) (i j : Nat) (a b : α) : List α :=
  if greater a b then (xs.set i b).set j a else xs

/-- The elements in front of the index are in order, with all that come later. -/
def SortedBelow (le : α → α → Prop) (i : Nat) (xs : List α) : Prop :=
  ∀ k l a b, k < i → k < l → xs[k]? = some a → xs[l]? = some b → le a b

def LeastUpTo (le : α → α → Prop) (i j : Nat) (xs : List α) : Prop :=
  ∀ l a b, i < l → l < j → xs[i]? = some a → xs[l]? = some b → le a b

variable {le : α → α → Prop} {greater : α → α → Bool} {xs : List α} {i j : Nat} {a b : α}

@[simp] theorem compareExchange_length :
    (compareExchange greater xs i j a b).length = xs.length := by
  unfold compareExchange
  split <;> simp

theorem compareExchange_perm (first : xs[i]? = some a) (second : xs[j]? = some b) :
    (compareExchange greater xs i j a b).Perm xs := by
  obtain ⟨lessI, sameA⟩ := List.getElem?_eq_some_iff.mp first
  obtain ⟨lessJ, sameB⟩ := List.getElem?_eq_some_iff.mp second
  unfold compareExchange
  split
  · rw [← sameA, ← sameB]
    exact List.set_set_perm lessI lessJ
  · exact List.Perm.refl xs

theorem getElem?_compareExchange (first : xs[i]? = some a) (second : xs[j]? = some b) (k : Nat) :
    (compareExchange greater xs i j a b)[k]? =
      if greater a b then if k = j then some a else if k = i then some b else xs[k]? else xs[k]? := by
  obtain ⟨lessI, -⟩ := List.getElem?_eq_some_iff.mp first
  obtain ⟨lessJ, -⟩ := List.getElem?_eq_some_iff.mp second
  unfold compareExchange
  split
  · rw [List.getElem?_set, List.getElem?_set, List.length_set]
    simp [lessI, lessJ, eq_comm]
  · rfl

/-- What is compared is a total order. -/
structure Decides (le : α → α → Prop) (greater : α → α → Bool) : Prop where
  refl : ∀ a, le a a
  trans : ∀ a b c, le a b → le b c → le a c
  wrong : ∀ a b, greater a b = true → le b a
  right : ∀ a b, greater a b = false → le a b

theorem SortedBelow.exchange (sorted : SortedBelow le i xs) (less : i < j)
    (first : xs[i]? = some a) (second : xs[j]? = some b) :
    SortedBelow le i (compareExchange greater xs i j a b) := by
  intro k l x y below behind atK atL
  rw [getElem?_compareExchange first second] at atK atL
  have front : xs[k]? = some x := by
    rw [if_neg (by omega : ¬k = j), if_neg (by omega : ¬k = i), ite_self] at atK
    exact atK
  split_ifs at atL with _ isJ isI
  · exact sorted k i x y below below front (first.trans atL)
  · exact sorted k j x y below (by omega) front (second.trans atL)
  · exact sorted k l x y below behind front atL
  · exact sorted k l x y below behind front atL

theorem LeastUpTo.exchange (decides : Decides le greater) (least : LeastUpTo le i j xs)
    (less : i < j) (first : xs[i]? = some a) (second : xs[j]? = some b) :
    LeastUpTo le i (j + 1) (compareExchange greater xs i j a b) := by
  intro l x y behind below atI atL
  rw [getElem?_compareExchange first second] at atI atL
  rcases Nat.lt_or_ge l j with before | here
  · split_ifs at atI atL with isGreater <;> try omega
    · have old := least l a y behind before first atL
      rw [Option.some.injEq] at atI
      rw [← atI]
      exact decides.trans _ _ _ (decides.wrong a b isGreater) old
    · exact least l x y behind before atI atL
  · have same : l = j := by omega
    subst same
    split_ifs at atI atL with isGreater <;> try omega
    · rw [Option.some.injEq] at atI atL
      rw [← atI, ← atL]
      exact decides.wrong a b isGreater
    · rw [first, Option.some.injEq] at atI
      rw [second, Option.some.injEq] at atL
      rw [← atI, ← atL]
      exact decides.right a b (Bool.eq_false_iff.mpr isGreater)

theorem sortedBelow_zero : SortedBelow le 0 xs := fun _ _ _ _ below => absurd below (Nat.not_lt_zero _)

theorem leastUpTo_next : LeastUpTo le i (i + 1) xs := by
  intro l x y behind below
  omega

theorem SortedBelow.next (sorted : SortedBelow le i xs) (least : LeastUpTo le i xs.length xs) :
    SortedBelow le (i + 1) xs := by
  intro k l x y below behind atK atL
  rcases Nat.lt_or_ge k i with before | here
  · exact sorted k l x y before behind atK atL
  · have same : k = i := by omega
    rw [same] at behind atK
    obtain ⟨inside, -⟩ := List.getElem?_eq_some_iff.mp atL
    exact least l x y behind inside atK atL

theorem SortedBelow.pairwise (sorted : SortedBelow le i xs) (all : xs.length ≤ i + 1) :
    xs.Pairwise le := by
  rw [List.pairwise_iff_getElem]
  intro k l insideK insideL less
  exact sorted k l _ _ (by omega) less (List.getElem?_eq_getElem insideK)
    (List.getElem?_eq_getElem insideL)

end Tlib.Library.ExchangeSort
