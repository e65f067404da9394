import Tlib.Library.Family
import Tlib.TranslationCache.State

/-!
Contract: the intrusive chains of `tb_phys_hash`.

Owns: `tb_remove` and `tb_phys_hash_insert` on pointer cells, and the buckets as lists that they
change. Does not own: which block belongs to which bucket.
-/

namespace Tlib.TranslationCache

open Tlib.Library.Linked Function List

/-- The hash chains: `phys_hash_next` threads the blocks, `NULL` ends a bucket. -/
def hashRoots : Rooted HashCell TbId (Option TbId) Nat where
  ptr := some
  field := .physHashNext
  head := .bucket
  stop := fun _ => none
  ptr_injective := fun _ _ equal => Option.some.inj equal
  field_injective := fun _ _ equal => HashCell.physHashNext.inj equal
  head_injective := fun _ _ equal => HashCell.bucket.inj equal
  field_ne_head := fun _ _ equal => HashCell.noConfusion equal
  ptr_ne_stop := fun _ _ equal => Option.some_ne_none _ equal

abbrev HashMemory := HashCell → Option TbId

abbrev Buckets (hash : HashMemory) (bucket : Nat → List TbId) : Prop :=
  Family hashRoots hash (fun _ => True) bucket

def nextHashCell (tb1 : Option TbId) : Option HashCell := tb1.map .physHashNext

/-- `tb_remove`, and whether the block was found. -/
def tbRemove (hash : HashMemory) (fuel : Nat) (ptb : HashCell) (tb : TbId) :
    Option (HashMemory × Bool) :=
  (seek hash nextHashCell (fun tb1 => tb1 = some tb || tb1.isNone) fuel ptb).map fun ptb =>
    match hash ptb with
    | some tb1 => (update hash ptb (hash (.physHashNext tb1)), true)
    | none => (hash, false)

def tbBlocksRelated (tb1 tb2 : TranslationBlock) : Bool :=
  tb1.pc = tb2.pc && tb1.pageAddr0 = tb2.pageAddr0 && tb1.csBase = tb2.csBase &&
    tb1.flags = tb2.flags && (tb2.pageAddr1.isNone || tb1.pageAddr1 = tb2.pageAddr1)

/-- The block in front of which `tb_phys_hash_insert` places `tb`. -/
def insertBefore (tbs : TbId → TranslationBlock) (tb act : TbId) : Bool :=
  tbBlocksRelated (tbs tb) (tbs act) && (tbs act).icount ≤ (tbs tb).icount

/-- The walk and the two stores of `tb_phys_hash_insert`. -/
def hashInsert (hash : HashMemory) (tbs : TbId → TranslationBlock) (fuel h : Nat) (tb : TbId) :
    Option HashMemory :=
  (seek hash nextHashCell (fun act => act.all (insertBefore tbs tb)) fuel (.bucket h)).map
    fun ptb => update (update hash (.physHashNext tb) (hash ptb)) ptb (some tb)

def moveToFront (hash : HashMemory) (h : Nat) (ptb1 : HashCell) (tb : TbId) : HashMemory :=
  let hash := update hash ptb1 (hash (.physHashNext tb))
  let hash := update hash (.physHashNext tb) (hash (.bucket h))
  update hash (.bucket h) (some tb)

def moveBehind (hash : HashMemory) (prevRelatedTb : TbId) (ptb1 : HashCell) (tb : TbId) :
    HashMemory :=
  let hash := update hash ptb1 (hash (.physHashNext tb))
  let hash := update hash (.physHashNext tb) (hash (.physHashNext prevRelatedTb))
  update hash (.physHashNext prevRelatedTb) (some tb)

theorem nextHashCell_ptr (tb : TbId) :
    nextHashCell (hashRoots.ptr tb) = some (hashRoots.field tb) := rfl

/-- The cell that points to the first block behind `front`. -/
def cellAfter (h : Nat) (front : List TbId) : HashCell :=
  lastCell hashRoots.toThreading (.bucket h) front

theorem cellAfter_append (h : Nat) (front : List TbId) (tb : TbId) :
    cellAfter h (front ++ [tb]) = .physHashNext tb :=
  lastCell_append (T := hashRoots.toThreading) _ front tb

section Buckets

variable {hash : HashMemory} {bucket : Nat → List TbId} {fuel h : Nat} {tb : TbId}

section

variable (buckets : Buckets hash bucket)

include buckets

theorem Buckets.segment_bucket (h : Nat) :
    Segment hashRoots.toThreading hash (.bucket h) (bucket h) none :=
  buckets.segment h trivial

theorem tbRemove_of_notMem (absent : tb ∉ bucket h)
    (enough : (bucket h).length < fuel) :
    tbRemove hash fuel (.bucket h) tb = some (hash, false) := by
  have segment := buckets.segment_bucket h
  have stopped : seek hash nextHashCell (fun tb1 => tb1 = some tb || tb1.isNone) fuel (.bucket h) =
      some (cellAfter h (bucket h)) := by
    apply seek_segment segment (fun a _ => nextHashCell_ptr a) _ (by simp) enough
    intro a member
    have different : a ≠ tb := fun equal => absent (equal ▸ member)
    simp [hashRoots, different]
  simp only [tbRemove, stopped, Option.map_some]
  have final : hash (cellAfter h (bucket h)) = none := segment.lastCell_eq
  simp [final]

theorem tbRemove_of_mem (member : tb ∈ bucket h)
    (enough : (bucket h).length < fuel) :
    ∃ hash', tbRemove hash fuel (.bucket h) tb = some (hash', true) ∧
      Buckets hash' (update bucket h ((bucket h).erase tb)) ∧
      ∀ u, (∀ j, u ∉ bucket j) → hash' (.physHashNext u) = hash (.physHashNext u) := by
  obtain ⟨front, back, shape⟩ := append_of_mem member
  have nodup := buckets.nodup h
  have segment := buckets.segment_bucket h
  rw [shape] at nodup segment enough
  have notFront : tb ∉ front := fun inFront =>
    (nodup_append.mp nodup).2.2 tb inFront tb mem_cons_self rfl
  rw [segment_append] at segment
  have stopped : seek hash nextHashCell (fun tb1 => tb1 = some tb || tb1.isNone) fuel (.bucket h) =
      some (cellAfter h front) := by
    apply seek_segment segment.1 (fun a _ => nextHashCell_ptr a) _ (by simp [hashRoots])
    · simp only [length_append, length_cons] at enough
      omega
    · intro a inFront
      have different : a ≠ tb := fun equal => notFront (equal ▸ inFront)
      simp [hashRoots, different]
  have found : hash (cellAfter h front) = some tb := segment.1.lastCell_eq
  have erased : (bucket h).erase tb = front ++ back := by
    rw [shape, erase_append_right _ notFront, erase_cons_head]
  refine ⟨update hash (cellAfter h front) (hash (.physHashNext tb)), ?_, ?_, ?_⟩
  · simp [tbRemove, stopped, found]
  · rw [erased]
    exact buckets.unlink shape
  · intro u fresh
    have notFront : u ∉ front := fun inFront => fresh h (by simp [shape, inFront])
    exact update_of_ne (Family.field_ne_lastCell (R := hashRoots) h notFront) _ hash

theorem hashInsert_eq (tbs : TbId → TranslationBlock)
    (fresh : ∀ h, tb ∉ bucket h) (enough : (bucket h).length < fuel) :
    ∃ hash', hashInsert hash tbs fuel h tb = some hash' ∧ Buckets hash' (update bucket h
        ((bucket h).takeWhile (fun act => !insertBefore tbs tb act) ++
          tb :: (bucket h).dropWhile (fun act => !insertBefore tbs tb act))) := by
  have stopped : seek hash nextHashCell (fun act => act.all (insertBefore tbs tb)) fuel
      (.bucket h) =
      some (cellAfter h ((bucket h).takeWhile fun act => !insertBefore tbs tb act)) :=
    seek_first (buckets.segment_bucket h) (fun a _ => nextHashCell_ptr a) (by simp) enough
  have inserted := buckets.insert h _ _ trivial
    (takeWhile_append_dropWhile (p := fun act => !insertBefore tbs tb act)
      (l := bucket h)).symm fresh
  refine ⟨_, ?_, inserted⟩
  rw [hashInsert, stopped]
  rfl

theorem moveToFront_of_mem {front back : List TbId}
    (shape : bucket h = front ++ tb :: back) :
    Buckets (moveToFront hash h (cellAfter h front) tb)
      (update bucket h (tb :: (front ++ back))) := by
  have unlinked := buckets.unlink shape
  have pushed := unlinked.insert h [] (front ++ back) trivial
    (by rw [update_self]; rfl) (buckets.notMem_of_unlink shape)
  rw [update_idem] at pushed
  exact pushed

theorem moveToFront_of_fresh (fresh : ∀ h, tb ∉ bucket h)
    (next : hash (.physHashNext tb) = none) :
    Buckets (moveToFront hash h (cellAfter h (bucket h)) tb)
      (update bucket h (tb :: bucket h)) := by
  have final : hash (cellAfter h (bucket h)) = none := (buckets.segment_bucket h).lastCell_eq
  have same : update hash (cellAfter h (bucket h)) (hash (.physHashNext tb)) = hash := by
    rw [next, ← final, update_eq_self]
  rw [moveToFront, same]
  exact buckets.insert h [] _ trivial (nil_append _).symm fresh

theorem moveToFront_of_head (fresh : ∀ h, tb ∉ bucket h)
    (next : hash (.physHashNext tb) = none) :
    Buckets (moveToFront hash h (.bucket h) tb) (update bucket h [tb]) := by
  have cleared := buckets.clear (i := h) trivial
  have absent : ∀ j, tb ∉ update bucket h [] j := by
    intro j
    by_cases equal : j = h
    · subst equal
      simp
    · rw [update_of_ne equal]
      exact fresh j
  have pushed := cleared.insert h [] [] trivial
    (by rw [update_self]; rfl) absent
  rw [update_idem] at pushed
  rw [moveToFront, next]
  exact pushed

theorem moveBehind_of_fresh {front back : List TbId}
    {prev : TbId} (shape : bucket h = front ++ prev :: back) (fresh : ∀ h, tb ∉ bucket h)
    (next : hash (.physHashNext tb) = none) :
    Buckets (moveBehind hash prev (cellAfter h (bucket h)) tb)
      (update bucket h (front ++ prev :: tb :: back)) := by
  have final : hash (cellAfter h (bucket h)) = none := (buckets.segment_bucket h).lastCell_eq
  have same : update hash (cellAfter h (bucket h)) (hash (.physHashNext tb)) = hash := by
    rw [next, ← final, update_eq_self]
  have inserted := buckets.insert h (front ++ [prev]) back trivial
    (by simp [shape]) fresh
  have cell : lastCell hashRoots.toThreading (hashRoots.head h) (front ++ [prev]) =
      .physHashNext prev := cellAfter_append h front prev
  rw [cell] at inserted
  rw [moveBehind, same]
  simp only [append_assoc, singleton_append] at inserted
  exact inserted

theorem moveBehind_of_mem {front middle back : List TbId}
    {prev : TbId} (shape : bucket h = front ++ prev :: (middle ++ tb :: back)) :
    Buckets (moveBehind hash prev (cellAfter h (front ++ prev :: middle)) tb)
      (update bucket h (front ++ prev :: tb :: (middle ++ back))) := by
  have split : bucket h = (front ++ prev :: middle) ++ tb :: back := by simp [shape]
  have unlinked := buckets.unlink split
  have inserted := unlinked.insert h (front ++ [prev]) (middle ++ back) trivial
    (by rw [update_self]; simp) (buckets.notMem_of_unlink split)
  rw [update_idem] at inserted
  have cell : lastCell hashRoots.toThreading (hashRoots.head h) (front ++ [prev]) =
      .physHashNext prev := cellAfter_append h front prev
  rw [cell] at inserted
  simp only [append_assoc, singleton_append] at inserted
  exact inserted

end

end Buckets

end Tlib.TranslationCache
