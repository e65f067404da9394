import Mathlib.Data.Nat.Find
import Mathlib.Order.Basic

/-!
Contract: rules with a priority, of which the first that matches decides.

Owns: the least index below a bound with a property, and the verdict of a search that stops there.
-/

namespace Tlib.Library.FirstMatch

open List

structure IsFirst (bound : Nat) (Matches : Nat → Prop) (index : Nat) : Prop where
  lt : index < bound
  holds : Matches index
  before : ∀ earlier < index, ¬ Matches earlier

variable {β : Type*} {bound i j : Nat} {P Q : Nat → Prop}

theorem isFirst_or_none (bound : Nat) (P : Nat → Prop) :
    (∃ index, IsFirst bound P index) ∨ ∀ index < bound, ¬ P index := by
  classical
  by_cases some : ∃ index, index < bound ∧ P index
  · have found := Nat.find_spec some
    refine .inl ⟨Nat.find some, found.1, found.2, ?_⟩
    intro earlier less holds
    exact Nat.find_min some less ⟨less.trans found.1, holds⟩
  · refine .inr ?_
    intro index less holds
    exact some ⟨index, less, holds⟩

theorem IsFirst.unique (first : IsFirst bound P i) (other : IsFirst bound P j) : i = j := by
  rcases Nat.lt_trichotomy i j with less | same | more
  · exact absurd first.holds (other.before i less)
  · exact same
  · exact absurd other.holds (first.before j more)

theorem IsFirst.narrow (wide : IsFirst bound P i) (imp : ∀ index, Q index → P index)
    (holds : Q i) : IsFirst bound Q i :=
  ⟨wide.lt, holds, fun earlier less match' => wide.before earlier less (imp earlier match')⟩

theorem findSome?_of_isFirst {verdict : Nat → Option β}
    (first : IsFirst bound (fun index => verdict index ≠ none) i) :
    (range bound).findSome? verdict = verdict i := by
  induction bound with
  | zero => exact absurd first.lt (Nat.not_lt_zero i)
  | succ bound ih =>
    rw [range_succ, List.findSome?_append]
    by_cases last : i = bound
    · have none' : (range bound).findSome? verdict = none := by
        rw [List.findSome?_eq_none_iff]
        intro earlier member
        have less := mem_range.mp member
        exact not_not.mp (first.before earlier (by omega))
      rw [none', last, Option.none_or, List.findSome?_singleton]
    · have less : i < bound := by
        have := first.lt
        omega
      rw [ih ⟨less, first.holds, first.before⟩]
      obtain ⟨value, found⟩ := Option.ne_none_iff_exists'.mp first.holds
      rw [found]
      rfl

theorem findSome?_of_none {verdict : Nat → Option β} (none' : ∀ index < bound, verdict index = none) :
    (range bound).findSome? verdict = none := by
  rw [List.findSome?_eq_none_iff]
  intro index member
  exact none' index (mem_range.mp member)

end Tlib.Library.FirstMatch
