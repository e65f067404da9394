import Tlib.Library.Linked

/-!
Contract: several disjoint linked lists in one pointer memory.

Owns: the family invariant, that no two lists share a cell, and what stores keep of it.
-/

namespace Tlib.Library.Linked

open Function List

variable {κ α π ι : Type*}

/-- A threading with the cells where lists start and the pointers with which they end. -/
structure Rooted (κ α π ι : Type*) extends Threading κ α π where
  head : ι → κ
  stop : ι → π
  head_injective : Injective head
  field_ne_head : ∀ a i, field a ≠ head i
  ptr_ne_stop : ∀ a i, ptr a ≠ stop i

structure Family (R : Rooted κ α π ι) (mem : κ → π) (active : ι → Prop)
    (list : ι → List α) : Prop where
  segment : ∀ i, active i → Segment R.toThreading mem (R.head i) (list i) (R.stop i)
  nodup : ∀ i, (list i).Nodup
  home : ∀ i j a, a ∈ list i → a ∈ list j → i = j
  idle : ∀ i, ¬ active i → list i = []

namespace Family

variable {R : Rooted κ α π ι} {mem : κ → π} {active : ι → Prop} {list : ι → List α}

theorem active_of_mem (family : Family R mem active list) {i : ι} {a : α}
    (member : a ∈ list i) : active i := by
  by_contra inactive
  rw [family.idle i inactive] at member
  exact absurd member not_mem_nil

theorem nodup_cells (family : Family R mem active list) (i : ι) :
    (cells R.toThreading (R.head i) (list i)).Nodup :=
  Linked.nodup_cells (family.nodup i) fun a => R.field_ne_head a i

theorem field_mem_cells_iff (i : ι) (a : α) {l : List α} :
    R.field a ∈ cells R.toThreading (R.head i) l ↔ a ∈ l := by
  simp only [cells, mem_cons, R.field_ne_head a i, false_or, mem_map]
  constructor
  · rintro ⟨b, member, equal⟩
    rwa [← R.field_injective equal]
  · exact fun member => ⟨a, member, rfl⟩

theorem field_ne_lastCell (i : ι) {front : List α} {a : α} (fresh : a ∉ front) :
    R.field a ≠ lastCell R.toThreading (R.head i) front := by
  intro equal
  have last := lastCell_mem_cells (T := R.toThreading) (R.head i) front
  rw [← equal, field_mem_cells_iff i a] at last
  exact fresh last

theorem head_notMem_cells {i j : ι} (different : i ≠ j) {l : List α} :
    R.head i ∉ cells R.toThreading (R.head j) l := by
  simp only [cells, mem_cons, mem_map, not_or, not_exists, not_and]
  exact ⟨fun equal => different (R.head_injective equal),
    fun a _ equal => R.field_ne_head a i equal⟩

theorem cells_disjoint (family : Family R mem active list) {i j : ι} (different : i ≠ j)
    {k : κ} (member : k ∈ cells R.toThreading (R.head i) (list i)) :
    k ∉ cells R.toThreading (R.head j) (list j) := by
  simp only [cells, mem_cons, mem_map] at member
  rcases member with rfl | ⟨a, onList, rfl⟩
  · exact head_notMem_cells different
  · rw [field_mem_cells_iff]
    exact fun other => different (family.home i j a onList other)

theorem congr (family : Family R mem active list) {mem' : κ → π}
    (same : ∀ i, active i → ∀ k ∈ cells R.toThreading (R.head i) (list i), mem' k = mem k) :
    Family R mem' active list where
  segment i isActive := (family.segment i isActive).congr (same i isActive)
  nodup := family.nodup
  home := family.home
  idle := family.idle

theorem store [DecidableEq κ] (family : Family R mem active list) {k : κ} (value : π)
    (outside : ∀ i, active i → k ∉ cells R.toThreading (R.head i) (list i)) :
    Family R (update mem k value) active list := by
  apply family.congr
  intro i isActive other member
  have different : other ≠ k := fun equal => outside i isActive (equal ▸ member)
  exact update_of_ne different value mem

variable [DecidableEq ι]

theorem replace (family : Family R mem active list) {mem' : κ → π} {i : ι} {l : List α}
    (isActive : active i)
    (segment : Segment R.toThreading mem' (R.head i) l (R.stop i))
    (nodup : l.Nodup)
    (own : ∀ a ∈ l, ∀ j, j ≠ i → a ∉ list j)
    (same : ∀ j, j ≠ i → ∀ k ∈ cells R.toThreading (R.head j) (list j), mem' k = mem k) :
    Family R mem' active (update list i l) where
  segment j jActive := by
    by_cases equal : j = i
    · subst equal
      rwa [update_self]
    · rw [update_of_ne equal]
      exact (family.segment j jActive).congr (same j equal)
  nodup j := by
    by_cases equal : j = i
    · subst equal
      rwa [update_self]
    · rw [update_of_ne equal]
      exact family.nodup j
  home j₁ j₂ a first second := by
    by_cases left : j₁ = i <;> by_cases right : j₂ = i
    · rw [left, right]
    · rw [left, update_self] at first
      rw [update_of_ne right] at second
      exact absurd second (own a first j₂ right)
    · rw [right, update_self] at second
      rw [update_of_ne left] at first
      exact absurd first (own a second j₁ left)
    · rw [update_of_ne left] at first
      rw [update_of_ne right] at second
      exact family.home j₁ j₂ a first second
  idle j inactive := by
    by_cases equal : j = i
    · exact absurd (equal ▸ isActive) inactive
    · rw [update_of_ne equal]
      exact family.idle j inactive

omit [DecidableEq ι] in
theorem ne_lastCell (family : Family R mem active list) {i j : ι} {front back : List α}
    (shape : list i = front ++ back) (different : j ≠ i) {k : κ}
    (member : k ∈ cells R.toThreading (R.head j) (list j)) :
    k ≠ lastCell R.toThreading (R.head i) front := by
  intro equal
  have own : k ∈ cells R.toThreading (R.head i) (list i) := by
    rw [equal, shape]
    have last := lastCell_mem_cells (T := R.toThreading) (R.head i) front
    simp only [cells, map_append, mem_cons, mem_append] at last ⊢
    tauto
  exact family.cells_disjoint (Ne.symm different) own member

variable [DecidableEq κ]

theorem unlink (family : Family R mem active list) {i : ι} {front back : List α} {a : α}
    (shape : list i = front ++ a :: back) :
    Family R (update mem (lastCell R.toThreading (R.head i) front) (mem (R.field a)))
      active (update list i (front ++ back)) := by
  have isActive : active i := family.active_of_mem (i := i) (a := a) (by simp [shape])
  have segment := family.segment i isActive
  have nodupCells := family.nodup_cells i
  have nodup := family.nodup i
  have inList : ∀ b ∈ front ++ back, b ∈ list i := by
    intro b member
    rw [shape]
    simp only [mem_append, mem_cons] at member ⊢
    tauto
  rw [shape] at segment nodupCells nodup
  apply family.replace isActive (segment.unlink nodupCells)
  · exact nodup.sublist (List.Sublist.append_left (sublist_cons_self a back) front)
  · intro b member j different other
    exact different (family.home j i b other (inList b member))
  · intro j different k member
    exact update_of_ne (family.ne_lastCell shape different member) _ mem

omit [DecidableEq κ] in
theorem notMem_of_unlink (family : Family R mem active list) {i : ι} {front back : List α} {a : α}
    (shape : list i = front ++ a :: back) (j : ι) :
    a ∉ update list i (front ++ back) j := by
  have nodup := family.nodup i
  rw [shape, nodup_append, nodup_cons] at nodup
  intro member
  by_cases equal : j = i
  · subst equal
    rw [update_self, mem_append] at member
    rcases member with inFront | inBack
    · exact nodup.2.2 a inFront a mem_cons_self rfl
    · exact nodup.2.1.1 inBack
  · rw [update_of_ne equal] at member
    exact equal (family.home j i a member (by simp [shape]))

theorem insert (family : Family R mem active list) (i : ι) (front back : List α) {a : α}
    (isActive : active i) (shape : list i = front ++ back) (fresh : ∀ j, a ∉ list j) :
    Family R
      (update
        (update mem (R.field a) (mem (lastCell R.toThreading (R.head i) front)))
        (lastCell R.toThreading (R.head i) front) (R.ptr a))
      active (update list i (front ++ a :: back)) := by
  have segment := family.segment i isActive
  have nodupCells := family.nodup_cells i
  have nodup := family.nodup i
  have freshCell : ∀ j, R.field a ∉ cells R.toThreading (R.head j) (list j) := by
    intro j
    rw [field_mem_cells_iff]
    exact fresh j
  have freshHere := freshCell i
  have notMember := fresh i
  rw [shape] at segment nodupCells nodup freshHere notMember
  apply family.replace isActive (segment.insert freshHere nodupCells)
  · rw [nodup_append] at nodup ⊢
    simp only [mem_append, not_or] at notMember
    refine ⟨nodup.1, nodup_cons.mpr ⟨notMember.2, nodup.2.1⟩, ?_⟩
    intro b inFront c inBack equal
    rcases mem_cons.mp inBack with rfl | inBack
    · exact notMember.1 (equal ▸ inFront)
    · exact nodup.2.2 b inFront c inBack equal
  · intro b member j different other
    simp only [mem_append, mem_cons] at member
    rcases member with inFront | rfl | inBack
    · exact different (family.home j i b other (by simp [shape, inFront]))
    · exact fresh j other
    · exact different (family.home j i b other (by simp [shape, inBack]))
  · intro j different k member
    have notHere := family.ne_lastCell shape different member
    have notField : k ≠ R.field a := fun equal => freshCell j (equal ▸ member)
    rw [update_of_ne notHere, update_of_ne notField]

omit [DecidableEq ι] in
theorem activate (family : Family R mem active list) {i : ι} (inactive : ¬ active i) :
    Family R (update mem (R.head i) (R.stop i)) (fun j => active j ∨ j = i) list where
  segment j jActive := by
    by_cases equal : j = i
    · rw [equal, family.idle i inactive]
      exact update_self _ _ _
    · apply (family.segment j (jActive.resolve_right equal)).update
      exact head_notMem_cells (Ne.symm equal)
  nodup := family.nodup
  home := family.home
  idle j notActive := family.idle j fun before => notActive (Or.inl before)

theorem clear (family : Family R mem active list) {i : ι} (isActive : active i) :
    Family R (update mem (R.head i) (R.stop i)) active
      (update list i []) := by
  apply family.replace isActive
  · simp
  · exact nodup_nil
  · intro a member
    exact absurd member not_mem_nil
  · intro j different k member
    have notHead : k ≠ R.head i := by
      intro equal
      rw [equal] at member
      exact head_notMem_cells (Ne.symm different) member
    exact update_of_ne notHead _ mem

end Family

end Tlib.Library.Linked
