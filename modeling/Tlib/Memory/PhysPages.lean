import Tlib.Library.RadixTree

/-!
Contract: the descriptors of physical pages.

Owns: the geometry of the physical page map, the search of it, and the descriptor that a page has
before any call.
-/

namespace Tlib.Memory

open Tlib.Library.RadixTree

/-- The constants of a target. -/
structure Geometry where
  /-- `TARGET_PAGE_BITS` -/
  pageBits : Nat
  /-- `TARGET_PHYS_ADDR_SPACE_BITS` -/
  physBits : Nat
  /-- The width of `target_phys_addr_t`. -/
  addrBits : Nat
  pageBits_ge : 5 ≤ pageBits
  pageBits_le : pageBits ≤ 12
  physBits_ge : pageBits + 4 ≤ physBits
  physBits_lt : physBits < 64
  addrBits_eq : addrBits = 32 ∨ addrBits = 64

namespace Geometry

variable (G : Geometry)

/-- `TARGET_PAGE_SIZE` -/
def pageSize : Nat := 2 ^ G.pageBits

def l2Bits : Nat := 10

def l1BitsRem : Nat := (G.physBits - G.pageBits) % l2Bits

def l1Bits : Nat := if G.l1BitsRem < 4 then G.l1BitsRem + l2Bits else G.l1BitsRem

def l1Shift : Nat := G.physBits - G.pageBits - G.l1Bits

def shape : Shape where
  bits := l2Bits
  rootBits := G.l1Bits
  levels := G.l1Shift / l2Bits

def spaceBits : Nat := min G.physBits G.addrBits

def spaceSize : Nat := 2 ^ G.spaceBits

def pages : Nat := 2 ^ (G.spaceBits - G.pageBits)

end Geometry

structure PhysPageDescFlags where
  (dirty executableIoMem externalPermissions : Bool)
  deriving DecidableEq, Repr

def PhysPageDescFlags.zero : PhysPageDescFlags :=
  { dirty := false, executableIoMem := false, externalPermissions := false }

structure PhysPageDesc where
  (physOffset regionOffset : Nat)
  flags : PhysPageDescFlags
  deriving DecidableEq, Repr

/-- `IO_MEM_ROM`; it is the greatest index of a page that is backed by memory. -/
def ioMemRom : Nat := 8

def ioMemUnassigned : Nat := 16

variable (G : Geometry)

/-- `l1_phys_map` -/
abbrev PhysMap : Type := Tree G.shape PhysPageDesc

/-- The descriptor with which an array of descriptors is allocated, for the page `index`. -/
def freshDesc (index : Nat) : PhysPageDesc where
  physOffset := ioMemUnassigned
  regionOffset := index * G.pageSize % 2 ^ G.addrBits
  flags := .zero

def freshArray (index entry : Nat) : PhysPageDesc :=
  freshDesc G (index / 2 ^ Geometry.l2Bits * 2 ^ Geometry.l2Bits + entry)

variable {G}

def physPageFind (m : PhysMap G) (index : Nat) : Option PhysPageDesc := m.find index

/-- A write through the pointer that `phys_page_find_alloc` returns. -/
def setDesc (m : PhysMap G) (index : Nat) (f : PhysPageDesc → PhysPageDesc) : PhysMap G :=
  m.modify index (freshArray G index) f

def physPageAlloc (m : PhysMap G) (index : Nat) (flags : PhysPageDescFlags) : PhysMap G :=
  setDesc m index fun pd => { pd with flags := flags }

/-- `cpu_get_physical_page_desc` and its inlined copies. -/
def physOffsetOf (m : PhysMap G) (index : Nat) : Nat :=
  match physPageFind m index with
  | none => ioMemUnassigned
  | some pd => pd.physOffset

def ioAddress (m : PhysMap G) (addr : Nat) : Nat :=
  match physPageFind m (addr / G.pageSize) with
  | none => addr
  | some pd => addr % G.pageSize + pd.regionOffset

def descOf (m : PhysMap G) (index : Nat) : PhysPageDesc := m.view (freshDesc G) index

theorem Geometry.shape_size (G : Geometry) : G.shape.size = 2 ^ (G.physBits - G.pageBits) := by
  have ge := G.physBits_ge
  have rem : G.l1BitsRem = (G.physBits - G.pageBits) % 10 := rfl
  unfold Shape.size Geometry.shape
  refine congrArg (2 ^ ·) ?_
  dsimp only
  unfold Geometry.l1Shift Geometry.l1Bits Geometry.l2Bits
  split <;> omega

theorem Geometry.pages_le_shape (G : Geometry) : G.pages ≤ G.shape.size := by
  rw [G.shape_size]
  refine Nat.pow_le_pow_right (by decide) ?_
  unfold Geometry.spaceBits
  omega

theorem Geometry.pageSize_pos (G : Geometry) : 0 < G.pageSize := Nat.two_pow_pos _

theorem Geometry.pages_mul (G : Geometry) : G.pages * G.pageSize = G.spaceSize := by
  have ge := G.physBits_ge
  have le := G.pageBits_le
  unfold Geometry.pages Geometry.pageSize Geometry.spaceSize
  rw [← Nat.pow_add]
  refine congrArg (2 ^ ·) ?_
  unfold Geometry.spaceBits
  rcases G.addrBits_eq with width | width <;> omega

theorem Geometry.page_lt (G : Geometry) {addr : Nat} (less : addr < G.spaceSize) :
    addr / G.pageSize < G.pages := by
  rw [Nat.div_lt_iff_lt_mul G.pageSize_pos, G.pages_mul]
  exact less

theorem Geometry.spaceSize_le (G : Geometry) : G.spaceSize ≤ 2 ^ G.addrBits := by
  refine Nat.pow_le_pow_right (by decide) ?_
  unfold Geometry.spaceBits
  omega

theorem Geometry.spaceSize_lt (G : Geometry) : G.spaceSize ≤ 2 ^ 63 := by
  refine Nat.pow_le_pow_right (by decide) ?_
  have := G.physBits_lt
  unfold Geometry.spaceBits
  omega

theorem freshDesc_regionOffset {index : Nat} (less : index < G.pages) :
    (freshDesc G index).regionOffset = index * G.pageSize := by
  refine Nat.mod_eq_of_lt (Nat.lt_of_lt_of_le ?_ G.spaceSize_le)
  rw [← G.pages_mul]
  exact Nat.mul_lt_mul_of_pos_right less G.pageSize_pos

theorem descOf_setDesc (m : PhysMap G) {index other : Nat} (f : PhysPageDesc → PhysPageDesc)
    (less : index < G.pages) (lessOther : other < G.pages) :
    descOf (setDesc m index f) other =
      if other = index then f (descOf m other) else descOf m other := by
  have changed : descOf (setDesc m index f) other =
      if other = index then f (descOf m index) else descOf m other :=
    m.view_modify (Nat.lt_of_lt_of_le less G.pages_le_shape)
      (Nat.lt_of_lt_of_le lessOther G.pages_le_shape) (.inl fun _ => rfl)
  refine Eq.trans changed ?_
  split
  next here => rw [here]
  next => rfl

theorem physPageFind_setDesc_isSome {m : PhysMap G} {index : Nat} {pd : PhysPageDesc}
    {f : PhysPageDesc → PhysPageDesc} (found : physPageFind m index = some pd) (other : Nat) :
    (physPageFind (setDesc m index f) other).isSome = (physPageFind m other).isSome := by
  obtain ⟨shared, apart⟩ := Tree.leaf_modify m index other (freshArray G index) f
  unfold physPageFind setDesc Tree.find at *
  by_cases same : SameLeaf G.shape index other
  · have leaf : m.leaf other = m.leaf index := by
      unfold Tree.leaf
      rw [← same.1, Slot.find_congr _ same.2]
    rw [shared same, leaf]
    cases there : m.leaf index with
    | some array => rfl
    | none =>
      rw [there] at found
      cases found
  · rw [apart same]

theorem descOf_of_find {m : PhysMap G} {index : Nat} {pd : PhysPageDesc}
    (found : physPageFind m index = some pd) : descOf m index = pd := by
  unfold descOf Tree.view
  unfold physPageFind at found
  rw [found]
  rfl

theorem descOf_of_missing {m : PhysMap G} {index : Nat} (missing : physPageFind m index = none) :
    descOf m index = freshDesc G index := by
  unfold descOf Tree.view
  unfold physPageFind at missing
  rw [missing]
  rfl

theorem physOffsetOf_eq (m : PhysMap G) (index : Nat) :
    physOffsetOf m index = (descOf m index).physOffset := by
  unfold physOffsetOf
  cases found : physPageFind m index with
  | none => rw [descOf_of_missing found]; rfl
  | some pd => rw [descOf_of_find found]

theorem ioAddress_eq (m : PhysMap G) {addr : Nat} (less : addr < G.spaceSize) :
    ioAddress m addr = addr % G.pageSize + (descOf m (addr / G.pageSize)).regionOffset := by
  unfold ioAddress
  cases found : physPageFind m (addr / G.pageSize) with
  | none =>
    rw [descOf_of_missing found, freshDesc_regionOffset (G.page_lt less), Nat.mul_comm]
    exact (Nat.mod_add_div _ _).symm
  | some pd => rw [descOf_of_find found]

end Tlib.Memory
