import Mathlib.Data.List.Induction
import Mathlib.Data.List.TakeWhile

/-!
Contract: arrays in which a new element gets room and an old one is closed up.

Owns: stores inside the array, the scan for a place, and the two loops that shift the elements
behind it by one.
-/

namespace Tlib.Library.ArrayShifts

open List Option

variable {α : Type*}

/-- `none` is a store outside the array. -/
def store (l : List α) (i : Nat) (a : α) : Option (List α) :=
  if i < l.length then some (l.set i a) else none

/-- The scan of `remaining` elements from `i` on; the element it stops at comes with its index. -/
def scanFor (stops : α → Bool) (l : List α) : Nat → Nat → Option (Nat × Option α)
  | 0, i => some (i, none)
  | remaining + 1, i => do
    let a ← l[i]?
    if stops a then return (i, some a)
    scanFor stops l remaining (i + 1)

/-- Elements move up by one, the last one first, until the place `i` is reached. -/
def shiftUp (i : Nat) : Nat → List α → Option (List α)
  | 0, l => some l
  | j + 1, l =>
    if j + 1 > i then do
      let a ← l[j]?
      let l ← store l (j + 1) a
      shiftUp i j l
    else some l

def shiftDown : Nat → Nat → List α → Option (Nat × List α)
  | 0, j, l => some (j, l)
  | remaining + 1, j, l => do
    let a ← l[j + 1]?
    let l ← store l j a
    shiftDown remaining (j + 1) l

variable {stops : α → Bool} {l front back rest : List α} {x y : α} {i : Nat}

theorem getElem?_middle (split : l = front ++ x :: rest) (here : i = front.length) :
    l[i]? = some x := by
  rw [split, here]
  simp

theorem store_middle (split : l = front ++ x :: rest) (here : i = front.length) :
    store l i y = some (front ++ y :: rest) := by
  rw [split, here, store, if_pos (by simp)]
  simp

theorem scanFor_append (passed : List α) (split : l = passed ++ front ++ rest)
    (goesOn : ∀ a ∈ front, stops a = false) (remaining : Nat) :
    scanFor stops l (front.length + remaining) passed.length =
      scanFor stops l remaining (passed ++ front).length := by
  induction front generalizing passed with
  | nil => simp
  | cons a front ih =>
    have next := ih (passed ++ [a]) (by simp [split]) fun b member =>
      goesOn b (mem_cons_of_mem a member)
    have read := getElem?_middle (i := passed.length)
      (show l = passed ++ a :: (front ++ rest) by simp [split]) rfl
    rw [length_append, length_singleton, append_assoc, singleton_append] at next
    rw [length_cons, Nat.add_right_comm, scanFor, read, bind_eq_bind,
      bind_some, goesOn a mem_cons_self, if_neg Bool.false_ne_true]
    exact next

theorem scanFor_none (split : l = front ++ rest) (goesOn : ∀ a ∈ front, stops a = false) :
    scanFor stops l front.length 0 = some (front.length, none) :=
  scanFor_append [] split goesOn 0

theorem scanFor_some (split : l = front ++ x :: rest) (goesOn : ∀ a ∈ front, stops a = false)
    (here : stops x = true) (more : Nat) :
    scanFor stops l (front.length + (more + 1)) 0 = some (front.length, some x) := by
  have passes := scanFor_append [] split goesOn (more + 1)
  rw [nil_append, length_nil] at passes
  rw [passes, scanFor, getElem?_middle split rfl, bind_eq_bind, bind_some, here,
    if_pos rfl]
  rfl

theorem scanFor_eq (stops : α → Bool) (split : l = front ++ rest) : scanFor stops l front.length 0 =
      some ((front.takeWhile fun a => !stops a).length,
        (front.dropWhile fun a => !stops a).head?) := by
  have joined := takeWhile_append_dropWhile (p := fun a => !stops a) (l := front)
  have goesOn : ∀ a ∈ front.takeWhile fun a => !stops a, stops a = false := by
    intro a member
    simpa using mem_takeWhile_imp member
  generalize front.takeWhile (fun a => !stops a) = passed at joined goesOn ⊢
  cases found : front.dropWhile fun a => !stops a with
  | nil =>
    rw [found, append_nil] at joined
    rw [joined] at goesOn
    rw [joined, scanFor_none split goesOn]
    rfl
  | cons x back =>
    have here : stops x = true := by
      have refused := head?_dropWhile_not (fun a => !stops a) front
      rw [found] at refused
      simpa using refused
    rw [found] at joined
    have length := congrArg length joined
    rw [length_append, length_cons] at length
    have places : l = passed ++ x :: (back ++ rest) := by
      rw [split, ← joined, append_assoc, cons_append]
    rw [← length, scanFor_some places goesOn here]
    rfl

theorem shiftUp_append (split : l = front ++ back ++ x :: rest) :
    ∃ y, shiftUp front.length (front.length + back.length) l =
      some (front ++ y :: back ++ rest) := by
  induction back using reverseRecOn generalizing l x rest with
  | nil =>
    refine ⟨x, ?_⟩
    rw [split, append_nil, length_nil, Nat.add_zero]
    cases front with
    | nil => rfl
    | cons a front =>
      rw [length_cons, shiftUp, if_neg (Nat.lt_irrefl _)]
      simp
  | append_singleton back last ih =>
    have read := getElem?_middle (i := front.length + back.length)
      (show l = (front ++ back) ++ last :: x :: rest by simp [split]) (by simp)
    have stored := store_middle (y := last) (i := front.length + back.length + 1)
      (show l = (front ++ back ++ [last]) ++ x :: rest by simp [split])
      (by simp [Nat.add_assoc])
    obtain ⟨y, shifted⟩ := @ih (front ++ back ++ [last] ++ last :: rest)
      (last :: rest) last (by simp)
    rw [length_append, length_singleton, ← Nat.add_assoc, shiftUp,
      if_pos (by omega), read, bind_eq_bind, bind_some, stored,
      bind_eq_bind, bind_some, shifted]
    simp

theorem shiftDown_append (split : l = front ++ x :: back ++ rest) :
    ∃ y, shiftDown back.length front.length l =
      some (front.length + back.length, front ++ back ++ y :: rest) := by
  induction back generalizing l front x with
  | nil => exact ⟨x, by simp [shiftDown, split]⟩
  | cons b back ih =>
    have read := getElem?_middle (i := front.length + 1)
      (show l = (front ++ [x]) ++ b :: (back ++ rest) by simp [split]) (by simp)
    have stored := store_middle (y := b)
      (show l = front ++ x :: (b :: back ++ rest) by simp [split]) rfl
    obtain ⟨y, shifted⟩ := @ih (front ++ b :: (b :: back ++ rest))
      (front ++ [b]) b (by simp)
    rw [length_append, length_singleton] at shifted
    rw [length_cons, shiftDown, read, bind_eq_bind, bind_some, stored,
      bind_eq_bind, bind_some, shifted,
      show front.length + (back.length + 1) = front.length + 1 + back.length by omega]
    simp

end Tlib.Library.ArrayShifts
