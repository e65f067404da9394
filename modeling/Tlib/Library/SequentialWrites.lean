import Mathlib.Data.Set.Disjoint

/-!
Contract: loops whose turns store into one memory, against the stores that the memory before the
loop asks for.

Owns: turns with a local state, and the loops that read no place which they have stored to.
-/

namespace Tlib.Library.SequentialWrites

open List

variable {α β ι σ : Type*}

abbrev Patch (α β : Type*) := α → Option β

def Patch.apply (p : Patch α β) (m : α → β) : α → β := fun a => (p a).getD (m a)

/-- A turn reads the memory and a local state; it stores, and it changes the state. -/
structure Loop (α β ι σ : Type*) where
  patch : ι → (α → β) → σ → Patch α β
  next : ι → (α → β) → σ → σ

namespace Loop

variable (L : Loop α β ι σ)

def turn (x : (α → β) × σ) (i : ι) : (α → β) × σ :=
  ((L.patch i x.1 x.2).apply x.1, L.next i x.1 x.2)

def run (x : (α → β) × σ) (indices : List ι) : (α → β) × σ := indices.foldl L.turn x

/-- The local state after some turns that all read the same memory. -/
def states (m : α → β) (s : σ) (indices : List ι) : σ := indices.foldl (fun s i => L.next i m s) s

def frozen (m : α → β) : Loop α β ι σ where
  patch := fun i _ s => L.patch i m s
  next := fun i _ s => L.next i m s

structure Reads (reads : ι → Set α) : Prop where
  patch : ∀ {i m m'} s, (∀ a ∈ reads i, m' a = m a) → L.patch i m' s = L.patch i m s
  next : ∀ {i m m'} s, (∀ a ∈ reads i, m' a = m a) → L.next i m' s = L.next i m s

def Undisturbed (reads : ι → Set α) (m : α → β) (s : σ) (indices : List ι) : Prop :=
  ∀ first i rest, indices = first ++ i :: rest → ∀ j ∈ rest, ∀ a ∈ reads j,
    L.patch i m (L.states m s first) a = none

variable {L} {reads : ι → Set α} {m m' : α → β} {s : σ} {indices : List ι} {a : α}

theorem run_cons (x : (α → β) × σ) (i : ι) (rest : List ι) :
    L.run x (i :: rest) = L.run (L.turn x i) rest := rfl

theorem run_append (x : (α → β) × σ) (first rest : List ι) :
    L.run x (first ++ rest) = L.run (L.run x first) rest := foldl_append

theorem Undisturbed.tail {i : ι} {rest : List ι}
    (undisturbed : L.Undisturbed reads m s (i :: rest)) :
    L.Undisturbed reads m (L.next i m s) rest := by
  intro first j last split
  have later := undisturbed (i :: first) j last (by rw [split, cons_append])
  exact later

theorem Reads.run_agrees (depends : L.Reads reads)
    (undisturbed : L.Undisturbed reads m s indices)
    (same : ∀ i ∈ indices, ∀ a ∈ reads i, m' a = m a) :
    L.run (m', s) indices = (L.frozen m).run (m', s) indices := by
  induction indices generalizing m' s with
  | nil => rfl
  | cons i rest ih =>
    have here := same i mem_cons_self
    have turn_eq : L.turn (m', s) i = (L.frozen m).turn (m', s) i := by
      unfold turn frozen
      rw [depends.patch s here, depends.next s here]
    rw [run_cons, run_cons, ← turn_eq]
    have state : (L.turn (m', s) i).2 = L.next i m s := depends.next s here
    have later := undisturbed.tail
    rw [← state] at later
    refine ih later ?_
    intro j member b inside
    have absent := undisturbed [] i rest rfl j member b inside
    have kept : (L.turn (m', s) i).1 b = m' b := by
      change (L.patch i m' s b).getD (m' b) = m' b
      rw [depends.patch s here, show L.patch i m s b = none from absent, Option.getD_none]
    exact kept.trans (same j (mem_cons_of_mem i member) b inside)

theorem Reads.run_eq_frozen (depends : L.Reads reads)
    (undisturbed : L.Undisturbed reads m s indices) :
    L.run (m, s) indices = (L.frozen m).run (m, s) indices :=
  depends.run_agrees undisturbed fun _ _ _ _ => rfl

theorem frozen_run_snd (x : (α → β) × σ) (indices : List ι) :
    ((L.frozen m).run x indices).2 = L.states m x.2 indices := by
  induction indices generalizing x with
  | nil => rfl
  | cons i rest ih => exact ih _

theorem frozen_untouched (x : (α → β) × σ)
    (none_ : ∀ first i rest, indices = first ++ i :: rest →
      L.patch i m (L.states m x.2 first) a = none) :
    ((L.frozen m).run x indices).1 a = x.1 a := by
  induction indices generalizing x with
  | nil => rfl
  | cons i rest ih =>
    rw [run_cons, ih]
    · have here := none_ [] i rest rfl
      change (L.patch i m x.2 a).getD (x.1 a) = x.1 a
      rw [show L.patch i m x.2 a = none from here, Option.getD_none]
    · intro first j last split
      have later := none_ (i :: first) j last (by rw [split, cons_append])
      exact later

theorem frozen_stored {first last : List ι} {i : ι} {v : β} (x : (α → β) × σ)
    (stored : L.patch i m (L.states m x.2 first) a = some v)
    (none_ : ∀ between j rest, last = between ++ j :: rest →
      L.patch j m (L.states m x.2 (first ++ i :: between)) a = none) :
    ((L.frozen m).run x (first ++ i :: last)).1 a = v := by
  have state := frozen_run_snd (L := L) (m := m) x first
  rw [run_append, run_cons, frozen_untouched]
  · change (L.patch i m ((L.frozen m).run x first).2 a).getD _ = v
    rw [state, stored, Option.getD_some]
  · intro between j rest split
    have later := none_ between j rest split
    unfold states at later
    rw [foldl_append, foldl_cons] at later
    change L.patch j m (L.states m (L.next i m ((L.frozen m).run x first).2) between) a = none
    rw [state]
    exact later

end Loop

end Tlib.Library.SequentialWrites
