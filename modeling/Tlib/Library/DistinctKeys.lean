import Mathlib.Data.List.Nodup
import Mathlib.Data.Nat.Bitwise

/-!
Contract: a fast check that the elements of a list are distinct.

Owns: the check by one bit for each key, which a kernel can run, and that it suffices.
-/

namespace Tlib.Library.DistinctKeys

open List

variable {α : Type*} {key : α → Nat} {list : List α} {seen : Nat}

def distinctKeys (key : α → Nat) : List α → Nat → Bool
  | [], _ => true
  | head :: tail, seen =>
    !seen.testBit (key head) && distinctKeys key tail (seen ||| 1 <<< key head)

theorem testBit_insert (seen bit other : Nat) :
    (seen ||| 1 <<< bit).testBit other = true ↔ seen.testBit other = true ∨ bit = other := by
  rw [Nat.testBit_or, Nat.one_shiftLeft, Nat.testBit_two_pow, Bool.or_eq_true, decide_eq_true_iff]

section

variable (checked : distinctKeys key list seen = true)

include checked

theorem not_seen : ∀ element ∈ list, seen.testBit (key element) = false := by
  induction list generalizing seen with
  | nil => simp
  | cons head tail ih =>
    unfold distinctKeys at checked
    rw [Bool.and_eq_true, Bool.not_eq_true'] at checked
    intro element member
    rcases mem_cons.mp member with here | later
    · rw [here]
      exact checked.1
    · have unseen := ih checked.2 element later
      by_contra found
      rw [Bool.not_eq_false] at found
      rw [(testBit_insert _ _ _).mpr (.inl found)] at unseen
      cases unseen

theorem nodup_keys : (list.map key).Nodup := by
  induction list generalizing seen with
  | nil => exact nodup_nil
  | cons head tail ih =>
    unfold distinctKeys at checked
    rw [Bool.and_eq_true] at checked
    rw [map_cons, nodup_cons]
    refine ⟨?_, ih checked.2⟩
    intro again
    obtain ⟨element, member, same⟩ := mem_map.mp again
    have unseen := not_seen checked.2 element member
    rw [(testBit_insert _ _ _).mpr (.inr same.symm)] at unseen
    cases unseen

theorem eq_of_key_eq {first second : α}
    (left : first ∈ list) (right : second ∈ list) (same : key first = key second) :
    first = second :=
  inj_on_of_nodup_map (nodup_keys checked) left right same

end

end Tlib.Library.DistinctKeys
