import Mathlib.Data.List.Nodup
import Mathlib.Data.List.TakeWhile
import Mathlib.Data.Finset.Card
import Mathlib.Data.Finset.Range
import Mathlib.Logic.Function.Basic

/-!
Contract: singly linked lists threaded through pointer cells.

Owns: segments of a pointer memory. Does not own: any concrete memory, allocation, or loop. A
client turns its loops into statements about `Segment` and its stores into `Function.update`.
-/

namespace Tlib.Library.Linked

open List

variable {κ α π : Type*}

/-- How elements are threaded: their pointers, and the cells that hold the next one. -/
structure Threading (κ α π : Type*) where
  ptr : α → π
  field : α → κ
  ptr_injective : Function.Injective ptr
  field_injective : Function.Injective field

variable (T : Threading κ α π)

/-- Following `mem` from `cell` visits exactly `l` and arrives at `stop`. -/
def Segment (mem : κ → π) : κ → List α → π → Prop
  | cell, [], stop => mem cell = stop
  | cell, a :: rest, stop => mem cell = T.ptr a ∧ Segment mem (T.field a) rest stop

def lastCell : κ → List α → κ
  | cell, [] => cell
  | _, a :: rest => lastCell (T.field a) rest

def cells (cell : κ) (l : List α) : List κ := cell :: l.map T.field

variable {T}

@[simp] theorem segment_nil (mem : κ → π) (cell : κ) (stop : π) :
    Segment T mem cell [] stop ↔ mem cell = stop := Iff.rfl

@[simp] theorem segment_cons (mem : κ → π) (cell : κ) (a : α) (rest : List α) (stop : π) :
    Segment T mem cell (a :: rest) stop ↔
      mem cell = T.ptr a ∧ Segment T mem (T.field a) rest stop := Iff.rfl

@[simp] theorem lastCell_nil (cell : κ) : lastCell T cell [] = cell := rfl

@[simp] theorem lastCell_cons (cell : κ) (a : α) (rest : List α) :
    lastCell T cell (a :: rest) = lastCell T (T.field a) rest := rfl

theorem lastCell_append (cell : κ) (front : List α) (a : α) :
    lastCell T cell (front ++ [a]) = T.field a := by
  induction front generalizing cell with
  | nil => rfl
  | cons b rest ih => exact ih (T.field b)

theorem lastCell_mem_cells (cell : κ) (l : List α) : lastCell T cell l ∈ cells T cell l := by
  induction l generalizing cell with
  | nil => simp [cells]
  | cons a rest ih =>
    have inTail := ih (T.field a)
    exact mem_cons_of_mem _ inTail

theorem segment_append (mem : κ → π) (cell : κ) (front back : List α) (a : α) (stop : π) :
    Segment T mem cell (front ++ a :: back) stop ↔
      Segment T mem cell front (T.ptr a) ∧ Segment T mem (T.field a) back stop := by
  induction front generalizing cell with
  | nil => simp
  | cons b rest ih =>
    simp [ih, and_assoc]

variable {cell : κ} {l : List α} {mem : κ → π} {stop : π}

theorem Segment.lastCell_eq
    (segment : Segment T mem cell l stop) : mem (lastCell T cell l) = stop := by
  induction l generalizing cell with
  | nil => exact segment
  | cons a rest ih => exact ih segment.2

theorem segment_split (mem : κ → π) (cell : κ) (front back : List α) (stop : π) :
    Segment T mem cell (front ++ back) stop ↔
      Segment T mem cell front (mem (lastCell T cell front)) ∧
        Segment T mem (lastCell T cell front) back stop := by
  induction front generalizing cell with
  | nil => simp
  | cons b rest ih =>
    simp [ih, and_assoc]

theorem Segment.congr {mem mem' : κ → π}
    (segment : Segment T mem cell l stop)
    (same : ∀ k ∈ cells T cell l, mem' k = mem k) : Segment T mem' cell l stop := by
  induction l generalizing cell with
  | nil =>
    have head := same cell (by simp [cells])
    exact head.trans segment
  | cons a rest ih =>
    refine ⟨(same cell (by simp [cells])).trans segment.1, ?_⟩
    apply ih segment.2
    intro k member
    apply same k
    exact mem_cons_of_mem _ member

theorem Segment.unique {left right : List α}
    (notElement : ∀ a, T.ptr a ≠ stop)
    (first : Segment T mem cell left stop) (second : Segment T mem cell right stop) :
    left = right := by
  induction left generalizing cell right with
  | nil =>
    cases right with
    | nil => rfl
    | cons b rest => exact absurd (second.1.symm.trans first) (notElement b)
  | cons a rest ih =>
    cases right with
    | nil => exact absurd (first.1.symm.trans second) (notElement a)
    | cons b rest' =>
      have same : a = b := T.ptr_injective (first.1.symm.trans second.1)
      subst same
      rw [ih first.2 second.2]

section Update

variable [DecidableEq κ]

theorem Segment.update {k : κ} (value : π)
    (segment : Segment T mem cell l stop) (outside : k ∉ cells T cell l) :
    Segment T (Function.update mem k value) cell l stop := by
  apply segment.congr
  intro other member
  have different : other ≠ k := fun equal => outside (equal ▸ member)
  exact Function.update_of_ne different value mem

theorem Segment.redirect {stop value : π}
    (segment : Segment T mem cell l stop) (nodup : (cells T cell l).Nodup) :
    Segment T (Function.update mem (lastCell T cell l) value) cell l value := by
  induction l generalizing cell with
  | nil => simp
  | cons a rest ih =>
    have tailNodup : (cells T (T.field a) rest).Nodup := by
      exact (nodup_cons.mp nodup).2
    have different : cell ≠ lastCell T (T.field a) rest := by
      intro equal
      have inTail := lastCell_mem_cells (T := T) (T.field a) rest
      exact (nodup_cons.mp nodup).1 (equal ▸ inTail)
    refine ⟨?_, ih segment.2 tailNodup⟩
    rw [lastCell_cons, Function.update_of_ne different]
    exact segment.1

theorem Segment.splice {front back : List α} {a : α} {stop old : π}
    (first : Segment T mem cell front old)
    (second : Segment T mem (T.field a) back stop)
    (nodup : (cells T cell front).Nodup)
    (apart : lastCell T cell front ∉ cells T (T.field a) back) :
    Segment T (Function.update mem (lastCell T cell front) (T.ptr a)) cell
      (front ++ a :: back) stop := by
  rw [segment_append]
  exact ⟨first.redirect nodup, second.update _ apart⟩

theorem Segment.unlink {front back : List α} {a : α}
    (segment : Segment T mem cell (front ++ a :: back) stop)
    (nodup : (cells T cell (front ++ a :: back)).Nodup) :
    Segment T (Function.update mem (lastCell T cell front) (mem (T.field a))) cell
      (front ++ back) stop := by
  rw [segment_append] at segment
  have split : cells T cell (front ++ a :: back) =
      cells T cell front ++ cells T (T.field a) back := by
    simp [cells]
  rw [split, nodup_append] at nodup
  obtain ⟨frontNodup, -, disjoint⟩ := nodup
  have atEnd := lastCell_mem_cells (T := T) cell front
  cases back with
  | nil =>
    rw [append_nil, segment.2]
    exact segment.1.redirect frontNodup
  | cons b rest =>
    rw [segment.2.1]
    apply Segment.splice segment.1 segment.2.2 frontNodup
    intro inBack
    refine disjoint _ atEnd _ ?_ rfl
    exact mem_cons_of_mem _ inBack

theorem Segment.push {a : α}
    (segment : Segment T mem cell l stop) (fresh : T.field a ∉ cells T cell l)
    (nodup : (cells T cell l).Nodup) :
    Segment T (Function.update (Function.update mem (T.field a) (mem cell)) cell (T.ptr a))
      cell (a :: l) stop := by
  have different : T.field a ≠ cell := by
    intro equal
    exact fresh (by simp [cells, equal])
  refine ⟨Function.update_self _ _ _, ?_⟩
  cases l with
  | nil =>
    rw [segment_nil, Function.update_of_ne different, Function.update_self]
    exact segment
  | cons b rest =>
    have notInTail : cell ∉ cells T (T.field b) rest := by
      exact (nodup_cons.mp nodup).1
    have freshInTail : T.field a ∉ cells T (T.field b) rest := by
      intro member
      apply fresh
      exact mem_cons_of_mem _ member
    refine ⟨?_, (segment.2.update _ freshInTail).update _ notInTail⟩
    rw [Function.update_of_ne different, Function.update_self]
    exact segment.1

theorem Segment.insert {front back : List α} {a : α}
    (segment : Segment T mem cell (front ++ back) stop)
    (fresh : T.field a ∉ cells T cell (front ++ back))
    (nodup : (cells T cell (front ++ back)).Nodup) :
    Segment T (Function.update (Function.update mem (T.field a) (mem (lastCell T cell front)))
      (lastCell T cell front) (T.ptr a)) cell (front ++ a :: back) stop := by
  rw [segment_split] at segment
  have split : cells T cell (front ++ back) = cells T cell front ++ back.map T.field := by
    simp [cells]
  rw [split, mem_append, not_or] at fresh
  rw [split, nodup_append] at nodup
  obtain ⟨frontNodup, backNodup, disjoint⟩ := nodup
  have atEnd := lastCell_mem_cells (T := T) cell front
  have endFresh : T.field a ∉ cells T (lastCell T cell front) back := by
    simp only [cells, mem_cons, not_or]
    exact ⟨fun equal => fresh.1 (equal ▸ atEnd), fresh.2⟩
  have endNodup : (cells T (lastCell T cell front) back).Nodup :=
    nodup_cons.mpr ⟨fun member => disjoint _ atEnd _ member rfl, backNodup⟩
  rw [segment_append]
  exact ⟨(segment.1.update _ fresh.1).redirect frontNodup, (segment.2.push endFresh endNodup).2⟩

end Update

theorem Segment.next_of_mem
    (segment : Segment T mem cell l stop) {a : α} (member : a ∈ l) :
    mem (T.field a) = stop ∨ ∃ b ∈ l, mem (T.field a) = T.ptr b := by
  obtain ⟨front, back, rfl⟩ := append_of_mem member
  rw [segment_append] at segment
  cases back with
  | nil => exact Or.inl segment.2
  | cons b rest => exact Or.inr ⟨b, by simp, segment.2.1⟩

theorem Segment.first
    (segment : Segment T mem cell l stop) :
    mem cell = stop ∨ ∃ b ∈ l, mem cell = T.ptr b := by
  cases l with
  | nil => exact Or.inl segment
  | cons b rest => exact Or.inr ⟨b, by simp, segment.1⟩

variable (T) in
/-- Following `mem` from `cell` meets the element `a`. -/
inductive Reaches (mem : κ → π) : κ → α → Prop
  | here {cell : κ} {a : α} (points : mem cell = T.ptr a) : Reaches mem cell a
  | next {cell : κ} {a b : α} (points : mem cell = T.ptr b) (later : Reaches mem (T.field b) a) :
      Reaches mem cell a

theorem Segment.reaches_iff
    (notElement : ∀ a, T.ptr a ≠ stop) (segment : Segment T mem cell l stop) (a : α) :
    Reaches T mem cell a ↔ a ∈ l := by
  induction l generalizing cell with
  | nil =>
    constructor
    · intro reaches
      cases reaches with
      | here points => exact absurd (points.symm.trans segment) (notElement a)
      | next points _ => exact absurd (points.symm.trans segment) (notElement _)
    · exact fun member => absurd member not_mem_nil
  | cons b rest ih =>
    constructor
    · intro reaches
      cases reaches with
      | here points =>
        rw [T.ptr_injective (points.symm.trans segment.1)]
        exact mem_cons_self
      | next points later =>
        rw [T.ptr_injective (points.symm.trans segment.1)] at later
        exact mem_cons_of_mem _ ((ih segment.2).mp later)
    · intro member
      rcases mem_cons.mp member with rfl | inRest
      · exact Reaches.here segment.1
      · exact Reaches.next segment.1 ((ih segment.2).mpr inRest)

variable (T) in
/-- Following the pointer `p` visits `l` and arrives at `stop`. -/
def Follows (mem : κ → π) : π → List α → π → Prop
  | p, [], stop => p = stop
  | p, a :: rest, stop => p = T.ptr a ∧ Follows mem (mem (T.field a)) rest stop

theorem Segment.follows
    (segment : Segment T mem cell l stop) : Follows T mem (mem cell) l stop := by
  induction l generalizing cell with
  | nil => exact segment
  | cons a rest ih => exact ⟨segment.1, ih segment.2⟩

theorem Follows.congr {mem mem' : κ → π} {p : π}
    (follows : Follows T mem p l stop) (same : ∀ a ∈ l, mem' (T.field a) = mem (T.field a)) :
    Follows T mem' p l stop := by
  induction l generalizing p with
  | nil => exact follows
  | cons a rest ih =>
    refine ⟨follows.1, ?_⟩
    rw [same a mem_cons_self]
    exact ih follows.2 fun b member => same b (mem_cons_of_mem _ member)

/-- Advance `cell` until it holds a pointer that satisfies `halt`. -/
def seek (mem : κ → π) (next : π → Option κ) (halt : π → Bool) : Nat → κ → Option κ
  | 0, _ => none
  | fuel + 1, cell =>
    if halt (mem cell) then some cell
    else
      match next (mem cell) with
      | none => none
      | some following => seek mem next halt fuel following

section Seek

variable {mem : κ → π} {next : π → Option κ} {halt : π → Bool}

theorem seek_of_halt (halts : halt (mem cell) = true) (fuel : Nat) :
    seek mem next halt (fuel + 1) cell = some cell := by
  simp [seek, halts]

theorem seek_of_next {cell following : κ} (continues : halt (mem cell) = false)
    (advance : next (mem cell) = some following) (fuel : Nat) :
    seek mem next halt (fuel + 1) cell = seek mem next halt fuel following := by
  simp [seek, continues, advance]

theorem seek_result {cell final : κ} {fuel : Nat}
    (found : seek mem next halt fuel cell = some final) :
    final = cell ∨ ∃ p, halt p = false ∧ next p = some final := by
  induction fuel generalizing cell with
  | zero => exact absurd found (by simp [seek])
  | succ less ih =>
    by_cases halts : halt (mem cell) = true
    · rw [seek_of_halt halts, Option.some.injEq] at found
      exact Or.inl found.symm
    · have continues : halt (mem cell) = false := by simpa using halts
      cases advance : next (mem cell) with
      | none =>
        simp only [seek, continues, advance, Bool.false_eq_true, if_false] at found
        exact absurd found (by simp)
      | some following =>
        rw [seek_of_next continues advance] at found
        rcases ih found with here | further
        · exact Or.inr ⟨mem cell, continues, here ▸ advance⟩
        · exact Or.inr further

section

variable (segment : Segment T mem cell l stop) (advance : ∀ a ∈ l, next (T.ptr a) = some (T.field a))

include segment advance

theorem seek_pass
    (skip : ∀ a ∈ l, halt (T.ptr a) = false) (fuel : Nat) :
    seek mem next halt (fuel + l.length) cell = seek mem next halt fuel (lastCell T cell l) := by
  induction l generalizing cell with
  | nil => rfl
  | cons a rest ih =>
    have continues : halt (mem cell) = false := by
      rw [segment.1]
      exact skip a mem_cons_self
    have following : next (mem cell) = some (T.field a) := by
      rw [segment.1]
      exact advance a mem_cons_self
    rw [length_cons, ← Nat.add_assoc, seek_of_next continues following, lastCell_cons]
    exact ih segment.2
      (fun b member => advance b (mem_cons_of_mem _ member))
      (fun b member => skip b (mem_cons_of_mem _ member))

theorem seek_segment
    (skip : ∀ a ∈ l, halt (T.ptr a) = false) (halts : halt stop = true)
    {fuel : Nat} (enough : l.length < fuel) :
    seek mem next halt fuel cell = some (lastCell T cell l) := by
  obtain ⟨rest, rfl⟩ : ∃ rest, fuel = rest + 1 + l.length := ⟨fuel - l.length - 1, by omega⟩
  rw [seek_pass segment advance skip]
  apply seek_of_halt
  rwa [segment.lastCell_eq]

theorem seek_first (halts : halt stop = true)
    {fuel : Nat} (enough : l.length < fuel) :
    seek mem next halt fuel cell =
      some (lastCell T cell (l.takeWhile fun a => !halt (T.ptr a))) := by
  have skip : ∀ a ∈ l.takeWhile (fun a => !halt (T.ptr a)), halt (T.ptr a) = false := by
    intro a member
    simpa using mem_takeWhile_imp member
  have advanceFront : ∀ a ∈ l.takeWhile (fun a => !halt (T.ptr a)),
      next (T.ptr a) = some (T.field a) :=
    fun a member => advance a ((takeWhile_sublist _).subset member)
  have short := (takeWhile_sublist (l := l) fun a => !halt (T.ptr a)).length_le
  have parts := takeWhile_append_dropWhile (p := fun a => !halt (T.ptr a)) (l := l)
  cases rest : l.dropWhile (fun a => !halt (T.ptr a)) with
  | nil =>
    rw [rest, append_nil] at parts
    rw [← parts] at segment
    exact seek_segment segment advanceFront skip halts (by omega)
  | cons a back =>
    have stops : halt (T.ptr a) = true := by
      have headFails := head_dropWhile_not (fun a => !halt (T.ptr a)) (l := l) (by simp [rest])
      simpa [rest] using headFails
    rw [← parts, rest, segment_append] at segment
    exact seek_segment segment.1 advanceFront skip stops (by omega)

end

end Seek

theorem nodup_fields (nodup : l.Nodup) : (l.map T.field).Nodup := nodup.map T.field_injective

theorem nodup_cells (nodup : l.Nodup)
    (outside : ∀ a, T.field a ≠ cell) : (cells T cell l).Nodup := by
  refine nodup_cons.mpr ⟨?_, nodup_fields nodup⟩
  simp only [mem_map, not_exists, not_and]
  exact fun a _ => outside a

theorem length_le_of_nodup_lt {l : List Nat} {bound : Nat} (nodup : l.Nodup)
    (below : ∀ index ∈ l, index < bound) : l.length ≤ bound := by
  have subset : l.toFinset ⊆ Finset.range bound := by
    intro index member
    exact Finset.mem_range.mpr (below index (mem_toFinset.mp member))
  calc l.length = l.toFinset.card := (toFinset_card_of_nodup nodup).symm
    _ ≤ (Finset.range bound).card := Finset.card_le_card subset
    _ = bound := Finset.card_range bound

end Tlib.Library.Linked
