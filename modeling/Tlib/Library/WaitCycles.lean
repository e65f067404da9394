import Mathlib.Data.Finset.Card
import Mathlib.Logic.Relation

/-!
Contract: cycles of parties that wait for each other in the order of a ring.

Owns: that such a cycle goes through every place of the ring.
-/

namespace Tlib.Library.WaitCycles

open Relation Finset Nat

variable {α : Type*} {R : α → α → Prop} {place : α → Nat} {places : Nat} {a : α}

theorem exists_next (cycle : TransGen R a a) : ∃ b, R a b ∧ TransGen R b b := by
  obtain ⟨b, first, rest⟩ := TransGen.head'_iff.mp cycle
  exact ⟨b, first, TransGen.tail' rest first⟩

section

variable (edge : ∀ a b, R a b → TransGen R b b → place b = (place a + 1) % places)

include edge

theorem exists_after
    (cycle : TransGen R a a) (steps : Nat) :
    ∃ b, TransGen R b b ∧ place b % places = (place a + steps) % places := by
  induction steps with
  | zero => exact ⟨a, cycle, rfl⟩
  | succ steps ih =>
    obtain ⟨b, onCycle, reached⟩ := ih
    obtain ⟨c, waits, next⟩ := exists_next onCycle
    refine ⟨c, next, ?_⟩
    rw [edge b c waits next, mod_mod, add_mod, reached, ← add_mod]
    rfl

theorem exists_place
    (cycle : TransGen R a a) {target : Nat} (less : target < places) :
    ∃ b, TransGen R b b ∧ place b % places = target := by
  obtain ⟨b, onCycle, reached⟩ := exists_after edge cycle (target + (places - place a % places))
  refine ⟨b, onCycle, ?_⟩
  have small := mod_lt (place a) (by omega : places > 0)
  have sum : place a % places + (target + (places - place a % places)) = target + places := by
    omega
  calc place b % places
      = (place a + (target + (places - place a % places))) % places := reached
    _ = (place a % places + (target + (places - place a % places))) % places :=
        (mod_add_mod _ _ _).symm
    _ = target := by rw [sum, add_mod_right, mod_eq_of_lt less]

theorem places_le_card
    (parties : Finset α) (party : ∀ a, TransGen R a a → a ∈ parties) (cycle : TransGen R a a) :
    places ≤ parties.card := by
  classical
  have onto : range places ⊆ parties.image fun b => place b % places := by
    intro target member
    obtain ⟨b, onCycle, reached⟩ := exists_place edge cycle (mem_range.mp member)
    exact mem_image.mpr ⟨b, party b onCycle, reached⟩
  calc places = (range places).card := (card_range places).symm
    _ ≤ (parties.image fun b => place b % places).card := card_le_card onto
    _ ≤ parties.card := Finset.card_image_le

end

end Tlib.Library.WaitCycles
