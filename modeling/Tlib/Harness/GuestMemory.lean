import Mathlib.Algebra.Group.Nat.Defs
import Mathlib.Data.List.Basic

/-!
Contract: the memory of the test harness.

Owns: the regions, the search for the region of an address, and what a write of bytes leaves.
-/

namespace Tlib.Harness

open List Option

abbrev Byte := BitVec 8

structure MemoryRegion where
  (guestBase size : Nat)
  end_lt : guestBase + size < 2 ^ 64

/-- The regions of a target do not overlap. -/
structure GuestMemory where
  regions : List MemoryRegion
  disjoint : regions.Pairwise fun r s =>
    r.guestBase + r.size ≤ s.guestBase ∨ s.guestBase + s.size ≤ r.guestBase

/-- What `find_region` returns; the region is the one with this index. -/
structure FoundRegion where
  (index size offset : Nat)
  offset_lt : offset < size

def findRegionFrom (address : Nat) : Nat → List MemoryRegion → Option FoundRegion
  | _, [] => none
  | index, r :: rest =>
    if inside : r.guestBase ≤ address ∧ address < r.guestBase + r.size then
      some ⟨index, r.size, address - r.guestBase, by omega⟩
    else findRegionFrom address (index + 1) rest

def findRegion (memory : GuestMemory) (address : Nat) : Option FoundRegion :=
  findRegionFrom address 0 memory.regions

/-- A byte that is written to `host[offset]` of a region. -/
structure Write where
  (region offset : Nat)
  byte : Byte
deriving DecidableEq

/-- The bytes that `memcpy` writes. -/
def copied (region : Nat) : Nat → List Byte → List Write
  | _, [] => []
  | offset, byte :: rest => ⟨region, offset, byte⟩ :: copied region (offset + 1) rest

def guestWriteBytes (memory : GuestMemory) (guestAddr : Nat) (data : List Byte) : Bool × List Write :=
  if data.length = 0 then (true, [])
  else
    match findRegion memory guestAddr with
    | none => (false, [])
    | some found =>
      let chunk := min (found.size - found.offset) data.length
      let rest := guestWriteBytes memory (guestAddr + chunk) (data.drop chunk)
      (rest.1, copied found.index found.offset (data.take chunk) ++ rest.2)
termination_by data.length
decreasing_by
  have inside := found.offset_lt
  rw [length_drop]
  omega

def place (memory : GuestMemory) (guestAddr : Nat) (byte : Byte) : Option Write :=
  (findRegion memory guestAddr).map fun found => ⟨found.index, found.offset, byte⟩

def placeBytes (memory : GuestMemory) : Nat → List Byte → Option (List Write)
  | _, [] => some []
  | guestAddr, byte :: rest => do
    let write ← place memory guestAddr byte
    let writes ← placeBytes memory (guestAddr + 1) rest
    return write :: writes

variable {memory : GuestMemory} {guestAddr : Nat} {found : FoundRegion} {data : List Byte}

theorem findRegionFrom_get {index : Nat} {regions : List MemoryRegion}
    (here : findRegionFrom guestAddr index regions = some found) :
    index ≤ found.index ∧ ∃ r, regions[found.index - index]? = some r ∧
      r.guestBase + found.offset = guestAddr ∧ r.size = found.size := by
  induction regions generalizing index with
  | nil => cases here
  | cons r rest ih =>
    unfold findRegionFrom at here
    split_ifs at here with contains
    · rw [some.injEq] at here
      subst here
      dsimp only
      exact ⟨Nat.le_refl _, r, by rw [Nat.sub_self]; rfl, by omega, rfl⟩
    · obtain ⟨le, s, atIndex, base, size⟩ := ih here
      refine ⟨by omega, s, ?_, base, size⟩
      rw [show found.index - index = found.index - (index + 1) + 1 by omega]
      exact atIndex

theorem findRegionFrom_add {regions : List MemoryRegion}
    (disjoint : regions.Pairwise fun r s =>
      r.guestBase + r.size ≤ s.guestBase ∨ s.guestBase + s.size ≤ r.guestBase)
    {index k : Nat} (here : findRegionFrom guestAddr index regions = some found)
    (inside : found.offset + k < found.size) :
    findRegionFrom (guestAddr + k) index regions =
      some ⟨found.index, found.size, found.offset + k, inside⟩ := by
  induction regions generalizing index with
  | nil => cases here
  | cons r rest ih =>
    rw [pairwise_cons] at disjoint
    unfold findRegionFrom at here ⊢
    split_ifs at here with contains
    · rw [some.injEq] at here
      subst here
      dsimp only at inside
      rw [dif_pos (by omega)]
      simp only [some.injEq, FoundRegion.mk.injEq, true_and]
      omega
    · have elsewhere : ¬(r.guestBase ≤ guestAddr + k ∧ guestAddr + k < r.guestBase + r.size) := by
        obtain ⟨-, s, atIndex, base, size⟩ := findRegionFrom_get here
        have apart := disjoint.1 s (mem_of_getElem? atIndex)
        omega
      rw [dif_neg elsewhere]
      exact ih disjoint.2 here

theorem findRegion_add {k : Nat} (here : findRegion memory guestAddr = some found)
    (inside : found.offset + k < found.size) :
    findRegion memory (guestAddr + k) = some ⟨found.index, found.size, found.offset + k, inside⟩ :=
  findRegionFrom_add memory.disjoint here inside

theorem placeBytes_chunk {offset : Nat} (here : findRegion memory guestAddr = some found)
    (bytes : List Byte) (fits : offset + bytes.length ≤ found.size - found.offset) :
    placeBytes memory (guestAddr + offset) bytes =
      some (copied found.index (found.offset + offset) bytes) := by
  induction bytes generalizing offset with
  | nil => rfl
  | cons byte rest ih =>
    rw [length_cons] at fits
    have inside : found.offset + offset < found.size := by omega
    have next := @ih (offset + 1) (by omega)
    rw [← Nat.add_assoc, ← Nat.add_assoc] at next
    unfold placeBytes copied place
    rw [findRegion_add here inside, next]
    rfl

theorem placeBytes_append (first second : List Byte) :
    placeBytes memory guestAddr (first ++ second) =
      (placeBytes memory guestAddr first).bind fun writes =>
        (placeBytes memory (guestAddr + first.length) second).map (writes ++ ·) := by
  induction first generalizing guestAddr with
  | nil => simp [placeBytes]
  | cons byte rest ih =>
    rw [cons_append, placeBytes, placeBytes, ih, length_cons,
      Nat.add_assoc, Nat.add_comm 1]
    cases place memory guestAddr byte with
    | none => rfl
    | some write =>
      cases placeBytes memory (guestAddr + 1) rest with
      | none => rfl
      | some writes =>
        cases placeBytes memory (guestAddr + (rest.length + 1)) second <;> rfl

theorem guestWriteBytes_nil : guestWriteBytes memory guestAddr [] = (true, []) := by
  unfold guestWriteBytes
  rfl

theorem guestWriteBytes_unmapped (outside : findRegion memory guestAddr = none)
    (nonempty : data.length ≠ 0) : guestWriteBytes memory guestAddr data = (false, []) := by
  unfold guestWriteBytes
  rw [if_neg nonempty, outside]

theorem guestWriteBytes_chunk (here : findRegion memory guestAddr = some found)
    (nonempty : data.length ≠ 0) :
    ∃ front back, data = front ++ back ∧ 0 < front.length ∧
      front.length ≤ found.size - found.offset ∧
      guestWriteBytes memory guestAddr data =
        ((guestWriteBytes memory (guestAddr + front.length) back).1,
          copied found.index found.offset front ++
            (guestWriteBytes memory (guestAddr + front.length) back).2) := by
  have inside := found.offset_lt
  have chunk : (data.take (min (found.size - found.offset) data.length)).length =
      min (found.size - found.offset) data.length := by
    rw [length_take]
    omega
  refine ⟨data.take (min (found.size - found.offset) data.length),
    data.drop (min (found.size - found.offset) data.length), (take_append_drop _ _).symm, ?_, ?_,
    ?_⟩
  · omega
  · omega
  · rw [chunk]
    conv_lhs => unfold guestWriteBytes
    rw [if_neg nonempty, here]

structure Written (memory : GuestMemory) (guestAddr : Nat) (data : List Byte)
    (result : Bool × List Write) : Prop where
  all : ∀ writes, placeBytes memory guestAddr data = some writes → result = (true, writes)
  stopped : placeBytes memory guestAddr data = none →
    result.1 = false ∧ (result.2 = [] ↔ findRegion memory guestAddr = none)

theorem guestWriteBytes_written (memory : GuestMemory) (guestAddr : Nat) (data : List Byte) :
    Written memory guestAddr data (guestWriteBytes memory guestAddr data) := by
  by_cases empty : data.length = 0
  · rw [eq_nil_of_length_eq_zero empty, guestWriteBytes_nil]
    exact
      { all := fun writes placed => by
          rw [placeBytes, some.injEq] at placed
          rw [placed]
        stopped := fun unplaced => by cases unplaced }
  · cases here : findRegion memory guestAddr with
    | none =>
      rw [guestWriteBytes_unmapped here empty]
      obtain ⟨byte, rest, rfl⟩ := exists_cons_of_length_pos (Nat.pos_of_ne_zero empty)
      exact
        { all := fun writes placed => by
            rw [placeBytes, place, here] at placed
            cases placed
          stopped := fun _ => ⟨rfl, iff_of_true rfl here⟩ }
    | some found =>
      obtain ⟨front, back, split, positive, fits, run⟩ := guestWriteBytes_chunk here empty
      have less : back.length < data.length := by
        rw [split, length_append]
        omega
      have rest := guestWriteBytes_written memory (guestAddr + front.length) back
      have first := @placeBytes_chunk memory guestAddr found 0 here front (by omega)
      have whole : placeBytes memory guestAddr data =
          (placeBytes memory (guestAddr + front.length) back).map
            (copied found.index found.offset front ++ ·) := by
        rw [split, placeBytes_append, ← Nat.add_zero guestAddr, first]
        rfl
      have some' : copied found.index found.offset front ≠ [] := by
        obtain ⟨byte, bytes, rfl⟩ := exists_cons_of_length_pos positive
        exact cons_ne_nil _ _
      rw [run]
      exact
        { all := fun writes placed => by
            rw [whole, map_eq_some_iff] at placed
            obtain ⟨behind, placed, rfl⟩ := placed
            rw [rest.all behind placed]
          stopped := fun unplaced => by
            rw [whole, map_eq_none_iff] at unplaced
            refine ⟨(rest.stopped unplaced).1, iff_of_false ?_ ?_⟩
            · intro nothing
              exact some' (append_eq_nil_iff.mp nothing).1
            · rw [here]
              exact some_ne_none found }
termination_by data.length

end Tlib.Harness
