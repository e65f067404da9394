import Tlib.Library.PointerTree
import Tlib.Memory.PhysPages

/-!
Contract: the maps of page descriptors in memory.

Owns: the constants of `l1_map`. Does not own: the calls that use the descriptors, and the
abstract map of the physical pages.
-/

namespace Tlib.Memory

open Tlib.Library.PointerTree

inductive HostLong where
  | bits32
  | bits64
deriving DecidableEq, Repr

/-- `HOST_LONG_BITS` -/
def HostLong.bits : HostLong → Nat
  | .bits32 => 32
  | .bits64 => 64

namespace Geometry

variable (G : Geometry)

def l1MapAddrSpaceBits (host : HostLong) : Nat :=
  if host.bits < G.physBits then host.bits else G.physBits

theorem l1Map_ge (host : HostLong) : G.pageBits + 4 ≤ G.l1MapAddrSpaceBits host := by
  have ge := G.physBits_ge
  have le := G.pageBits_le
  have wide : 32 ≤ host.bits := by cases host <;> decide
  unfold l1MapAddrSpaceBits
  by_cases less : host.bits < G.physBits
  · rw [if_pos less]
    omega
  · rw [if_neg less]
    exact ge

theorem l1Map_lt (host : HostLong) : G.l1MapAddrSpaceBits host < 64 := by
  have lt := G.physBits_lt
  unfold l1MapAddrSpaceBits
  split <;> omega

/-- The constants of `l1_map`: those whose names start with `V_`. -/
def l1Map (host : HostLong) : Geometry where
  pageBits := G.pageBits
  physBits := G.l1MapAddrSpaceBits host
  addrBits := G.addrBits
  pageBits_ge := G.pageBits_ge
  pageBits_le := G.pageBits_le
  physBits_ge := G.l1Map_ge host
  physBits_lt := G.l1Map_lt host
  addrBits_eq := G.addrBits_eq

/-- `(index >> L1_SHIFT) & (L1_SIZE - 1)` -/
def l1Index (index : Nat) : Nat := index / 2 ^ G.l1Shift % 2 ^ G.l1Bits

def loopStart : Int := (G.l1Shift / l2Bits : Nat) - 1

/-- The level with which `page_flush_tb` starts. -/
def flushLevel : Nat :=
  let l2count := G.l1Shift / l2Bits
  if l2count = 0 then 0 else l2count - 1

/-- The level with which `free_all_page_descriptors` starts. -/
def freeLevel : Int :=
  let level : Int := (G.l1Shift / l2Bits : Nat) - 1
  if level < 0 then 0 else level

def indices : Nat := 2 ^ (G.physBits - G.pageBits)

end Geometry

structure PageDesc where
  firstTb : Option Nat
  codeWriteCount : Nat
  codeBitmap : Option Nat
deriving DecidableEq, Repr

/-- A descriptor of `tlib_mallocz`. -/
def PageDesc.zero : PageDesc := { firstTb := none, codeWriteCount := 0, codeBitmap := none }

def invalidatePageBitmap (p : PageDesc) : PageDesc :=
  { p with codeBitmap := none, codeWriteCount := 0 }

/-- What `page_flush_tb_1` does to a descriptor. -/
def PageDesc.flushed (p : PageDesc) : PageDesc := invalidatePageBitmap { p with firstTb := none }

structure DescMap (α : Type) where
  geometry : Geometry
  fill : Nat → Nat → α

namespace DescMap

variable {α : Type} (D : DescMap α)

/-- `page_find_alloc` and `phys_page_find_alloc` -/
def findAlloc (m : Pointers α) (index : Nat) (alloc : Bool) :
    Except Fault (Pointers α × Option (Nat × Nat)) :=
  Library.PointerTree.findAlloc D.geometry.shape alloc (D.fill index) D.geometry.loopStart.toNat
    (D.geometry.l1Index index) index m

/-- The walk of `page_flush_tb`, with what it does to a descriptor. -/
def flush (m : Pointers α) (change : α → α) : Except Fault (Pointers α × List Nat) :=
  traverseAll D.geometry.shape
    (fun
      | .leaf entries => some (.leaf fun i =>
        if i < 2 ^ Geometry.l2Bits then change (entries i) else entries i)
      | .table slots => some (.table slots))
    D.geometry.flushLevel m

/-- The walk of `free_all_page_descriptors` over one map. -/
def freeAll (m : Pointers α) : Except Fault (Pointers α × List Nat) :=
  traverseAll D.geometry.shape (fun _ => none) D.geometry.freeLevel.toNat m

end DescMap

/-- `l1_map` -/
def l1MapOf (G : Geometry) (host : HostLong) : DescMap PageDesc where
  geometry := G.l1Map host
  fill := fun _ _ => .zero

/-- `l1_phys_map` -/
def l1PhysMapOf (G : Geometry) : DescMap PhysPageDesc where
  geometry := G
  fill := freshArray G

def pageFlushTb (G : Geometry) (host : HostLong) (m : Pointers PageDesc) :
    Except Fault (Pointers PageDesc × List Nat) :=
  (l1MapOf G host).flush m PageDesc.flushed

inductive DescOp (α : Type) where
  | find (index : Nat) (alloc : Bool)
  | write (index : Nat) (f : α → α)
  | flush (change : α → α)

section Runs

variable {α : Type} (D : DescMap α)

def DescOp.apply (m : Pointers α) : DescOp α → Except Fault (Pointers α)
  | .find index alloc => do
    let (m, _) ← D.findAlloc m index alloc
    return m
  | .write index f => do
    match ← D.findAlloc m index false with
    | (m, some a) => m.writeEntry D.geometry.shape a f
    | (m, none) => return m
  | .flush change => do
    let (m, _) ← D.flush m change
    return m

/-- Indices are those of pages. -/
def DescOp.Valid : DescOp α → Prop
  | .find index _ | .write index _ => index < D.geometry.indices
  | .flush _ => True

def runDescs (m : Pointers α) (ops : List (DescOp α)) : Except Fault (Pointers α) :=
  ops.foldlM (DescOp.apply D) m

/-- The descriptor of a page without allocation. -/
def Finds (m : Pointers α) (index : Nat) (a : Nat × Nat) : Prop :=
  D.findAlloc m index false = .ok (m, some a)

/-- Each page has its own descriptor, and allocation gives it to the page for good. -/
structure DescsFaithful (m : Pointers α) : Prop where
  find : ∀ index < D.geometry.indices,
    D.findAlloc m index false = .ok (m, none) ∨ ∃ a, Finds D m index a
  alloc : ∀ index < D.geometry.indices, ∃ m' a, D.findAlloc m index true = .ok (m', some a) ∧
    Finds D m' index a ∧
    (Finds D m index a ∨ (D.findAlloc m index false = .ok (m, none) ∧
      m'.readEntry D.geometry.shape a = .ok (D.fill index a.2))) ∧
    ∀ other < D.geometry.indices, ∀ b, Finds D m other b → Finds D m' other b ∧
      m'.readEntry D.geometry.shape b = m.readEntry D.geometry.shape b
  injective : ∀ index < D.geometry.indices, ∀ other < D.geometry.indices, ∀ a,
    Finds D m index a → Finds D m other a → index = other

/-- A walk comes once to every array of descriptors, and to nothing else that it takes for one. -/
def VisitsLeaves (m : Pointers α) (visited : List Nat) : Prop :=
  visited.Nodup ∧ ∀ p, p ∈ visited ↔ ∃ entries, m.blocks p = some (.leaf entries)

structure WalksFaithful (m : Pointers α) : Prop where
  flush : ∀ change, ∃ m' visited, D.flush m change = .ok (m', visited) ∧ VisitsLeaves m visited ∧
    (∀ p slots, m.blocks p = some (.table slots) → m'.blocks p = some (.table slots)) ∧
    (∀ p entries, m.blocks p = some (.leaf entries) → ∃ entries', m'.blocks p = some (.leaf entries') ∧
      ∀ i < 2 ^ Geometry.l2Bits, entries' i = change (entries i)) ∧
    ∀ index < D.geometry.indices, ∀ a, Finds D m index a → Finds D m' index a ∧
      m'.readEntry D.geometry.shape a = (m.readEntry D.geometry.shape a).map change
  free : ∃ m' visited, D.freeAll m = .ok (m', visited) ∧ VisitsLeaves m visited ∧
    ∀ p, m'.blocks p = none

end Runs

section Levels

variable (G : Geometry)

theorem Geometry.l1Shift_eq : G.l1Shift = Geometry.l2Bits * G.shape.levels := by
  have rem : G.l1BitsRem = (G.physBits - G.pageBits) % 10 := rfl
  have whole : G.l1Shift % 10 = 0 := by
    unfold Geometry.l1Shift Geometry.l1Bits Geometry.l2Bits
    split <;> omega
  exact (Nat.mul_div_cancel' (Nat.dvd_of_mod_eq_zero whole)).symm

theorem Geometry.l1Index_eq (index : Nat) : G.l1Index index = G.shape.rootDigit index := by
  unfold Geometry.l1Index Library.RadixTree.Shape.rootDigit
  rw [G.l1Shift_eq]
  rfl

theorem Geometry.loopStart_eq : G.loopStart.toNat = G.shape.inner := by
  unfold Geometry.loopStart Library.RadixTree.Shape.inner Geometry.shape
  dsimp only
  omega

theorem Geometry.flushLevel_eq : G.flushLevel = G.shape.inner := by
  unfold Geometry.flushLevel Library.RadixTree.Shape.inner Geometry.shape
  dsimp only
  split <;> omega

theorem Geometry.freeLevel_eq : G.freeLevel.toNat = G.shape.inner := by
  unfold Geometry.freeLevel Library.RadixTree.Shape.inner Geometry.shape
  dsimp only
  split <;> omega

theorem Geometry.indices_eq : G.indices = G.shape.size := G.shape_size.symm

end Levels

section Calls

variable {α : Type} {D : DescMap α} {m m' : Pointers α} {index other : Nat} {a : Nat × Nat}

theorem DescMap.findAlloc_eq (D : DescMap α) (m : Pointers α) (index : Nat) (alloc : Bool) :
    D.findAlloc m index alloc =
      Library.PointerTree.findAlloc D.geometry.shape alloc (D.fill index) D.geometry.shape.inner
        (D.geometry.shape.rootDigit index) index m := by
  unfold DescMap.findAlloc
  rw [D.geometry.loopStart_eq, D.geometry.l1Index_eq]

section

variable (wf : WellFormed D.geometry.shape m)

include wf

section

variable (small : index < D.geometry.indices)

include small

theorem findAlloc_false : D.findAlloc m index false = .ok (m, (leafAt D.geometry.shape m index).map
      fun p => (p, D.geometry.shape.digit 0 index)) := by
  rw [D.findAlloc_eq]
  exact findAlloc_find wf (D.geometry.indices_eq ▸ small) (D.fill index)

theorem finds_leaf_iff : Finds D m index a ↔ leafAt D.geometry.shape m index = some a.1 ∧
      D.geometry.shape.digit 0 index = a.2 := by
  unfold Finds
  rw [findAlloc_false wf small, Except.ok.injEq, Prod.mk.injEq, Option.map_eq_some_iff]
  constructor
  · rintro ⟨-, p, found, rfl⟩
    exact ⟨found, rfl⟩
  · rintro ⟨found, entry⟩
    exact ⟨rfl, a.1, found, Prod.ext rfl entry⟩

theorem readEntry_of_finds (found : Finds D m index a) :
    ∃ entries, m.blocks a.1 = some (.leaf entries) ∧ a.2 < 2 ^ Geometry.l2Bits ∧
      m.readEntry D.geometry.shape a = .ok (entries a.2) := by
  obtain ⟨block, entry⟩ := (finds_leaf_iff wf small).mp found
  obtain ⟨entries, leaf⟩ := wf.leaves _ a.1 block
  have inside : a.2 < 2 ^ Geometry.l2Bits := by
    rw [← entry]
    exact Nat.mod_lt _ (Nat.two_pow_pos _)
  refine ⟨entries, leaf, inside, ?_⟩
  rw [Pointers.readEntry, leaf]
  exact if_pos inside

theorem findAlloc_true :
    ∃ m' a, D.findAlloc m index true = .ok (m', some a) ∧ WellFormed D.geometry.shape m' ∧
      Grows D.geometry.shape m m' ∧ Finds D m' index a ∧
      (Finds D m index a ∨ (D.findAlloc m index false = .ok (m, none) ∧
        m'.readEntry D.geometry.shape a = .ok (D.fill index a.2))) := by
  obtain ⟨m', p, ran, wf', grows, found, change, -⟩ :=
    findAlloc_alloc wf (D.geometry.indices_eq ▸ small) (D.fill index)
  refine ⟨m', (p, D.geometry.shape.digit 0 index), ?_, wf', grows,
    (finds_leaf_iff wf' small).mpr ⟨found, rfl⟩, ?_⟩
  · rw [D.findAlloc_eq]
    exact ran
  · rcases change with before | ⟨missing, filled⟩
    · exact .inl ((finds_leaf_iff wf small).mpr ⟨before, rfl⟩)
    · refine .inr ⟨?_, ?_⟩
      · rw [findAlloc_false wf small, missing]
        rfl
      · rw [Pointers.readEntry, filled]
        exact if_pos (Nat.mod_lt _ (Nat.two_pow_pos _))

end

theorem finds_of_grows
    (wf' : WellFormed D.geometry.shape m') (grows : Grows D.geometry.shape m m')
    (small : index < D.geometry.indices) (found : Finds D m index a) :
    Finds D m' index a ∧ m'.readEntry D.geometry.shape a = m.readEntry D.geometry.shape a := by
  obtain ⟨block, entry⟩ := (finds_leaf_iff wf small).mp found
  obtain ⟨entries, leaf, inside, read⟩ := readEntry_of_finds wf small found
  refine ⟨(finds_leaf_iff wf' small).mpr ⟨grows.walk _ (Nat.le_refl _) _ _ block, entry⟩, ?_⟩
  rw [read, Pointers.readEntry, grows.entries _ entries leaf]
  exact if_pos inside

theorem finds_of_sameTables (same : SameTables m m')
    (small : index < D.geometry.indices) (found : Finds D m index a) : Finds D m' index a := by
  rw [finds_leaf_iff wf small] at found
  rw [finds_leaf_iff (same.wellFormed wf) small, leafAt, same.blockAt_eq]
  exact found

theorem descsFaithful_of_wellFormed : DescsFaithful D m where
  find := by
    intro index small
    cases found : leafAt D.geometry.shape m index with
    | none =>
      left
      rw [findAlloc_false wf small, found]
      rfl
    | some p =>
      exact .inr ⟨(p, D.geometry.shape.digit 0 index), (finds_leaf_iff wf small).mpr ⟨found, rfl⟩⟩
  alloc := by
    intro index small
    obtain ⟨m', a, ran, wf', grows, found, change⟩ := findAlloc_true wf small
    exact ⟨m', a, ran, found, change,
      fun other smallOther b before => finds_of_grows wf wf' grows smallOther before⟩
  injective := by
    intro index small other smallOther a found found'
    obtain ⟨block, entry⟩ := (finds_leaf_iff wf small).mp found
    obtain ⟨block', entry'⟩ := (finds_leaf_iff wf smallOther).mp found'
    exact wf.index_eq block block' (entry.trans entry'.symm)

theorem flush_spec (change : α → α) :
    ∃ m' visited, D.flush m change = .ok (m', visited) ∧ SameTables m m' ∧ VisitsLeaves m visited ∧
      ∀ p entries, m.blocks p = some (.leaf entries) → m'.blocks p = some (.leaf fun i =>
          if i < 2 ^ Geometry.l2Bits then change (entries i) else entries i) := by
  obtain ⟨m', visited, ran, root, next, blocks, nodup, members⟩ := wf.traverseAll
    (fun
      | .leaf entries => some (.leaf fun i =>
        if i < 2 ^ Geometry.l2Bits then change (entries i) else entries i)
      | .table slots => some (.table slots))
  refine ⟨m', visited, ?_, ⟨root, next, fun p slots => ?_, fun p => ?_⟩, ⟨nodup, members⟩,
    fun p entries leaf => ?_⟩
  · unfold DescMap.flush
    rw [D.geometry.flushLevel_eq]
    exact ran
  · rw [blocks]
    cases m.blocks p with
    | none => simp
    | some block => cases block <;> simp
  · rw [blocks]
    cases m.blocks p with
    | none => simp
    | some block => cases block <;> simp
  · rw [blocks, leaf]
    rfl

theorem walksFaithful_of_wellFormed : WalksFaithful D m where
  flush := by
    intro change
    obtain ⟨m', visited, ran, same, visits, leaves⟩ := flush_spec wf change
    refine ⟨m', visited, ran, visits, fun p slots table => (same.tables p slots).mpr table,
      fun p entries leaf => ⟨_, leaves p entries leaf, fun i less => if_pos less⟩,
      fun index small a found => ⟨finds_of_sameTables wf same small found, ?_⟩⟩
    obtain ⟨entries, leaf, inside, read⟩ := readEntry_of_finds wf small found
    rw [read, Pointers.readEntry, leaves a.1 entries leaf]
    dsimp only
    rw [if_pos inside]
    exact if_pos inside
  free := by
    obtain ⟨m', visited, ran, -, -, blocks, nodup, members⟩ := wf.traverseAll fun _ => none
    refine ⟨m', visited, ?_, ⟨nodup, members⟩, fun p => ?_⟩
    · unfold DescMap.freeAll
      rw [D.geometry.freeLevel_eq]
      exact ran
    · rw [blocks]
      cases m.blocks p <;> rfl

theorem DescOp.step {op : DescOp α} (valid : op.Valid D) :
    ∃ m', op.apply D m = .ok m' ∧ WellFormed D.geometry.shape m' ∧
      ∀ index < D.geometry.indices, ∀ a, Finds D m index a → Finds D m' index a := by
  cases op with
  | find index alloc =>
    cases alloc with
    | true =>
      obtain ⟨m', a, ran, wf', grows, -⟩ := findAlloc_true wf valid
      refine ⟨m', ?_, wf', fun other small b found =>
        (finds_of_grows wf wf' grows small found).1⟩
      rw [DescOp.apply, ran]
      rfl
    | false =>
      refine ⟨m, ?_, wf, fun _ _ _ found => found⟩
      rw [DescOp.apply, findAlloc_false wf valid]
      rfl
  | write index f =>
    rw [DescOp.apply, findAlloc_false wf valid]
    cases found : leafAt D.geometry.shape m index with
    | none => exact ⟨m, rfl, wf, fun _ _ _ before => before⟩
    | some p =>
      obtain ⟨entries, leaf⟩ := wf.leaves _ p found
      have same := @sameTables_update α m p entries
        (Function.update entries (D.geometry.shape.digit 0 index)
          (f (entries (D.geometry.shape.digit 0 index)))) leaf
      refine ⟨_, ?_, same.wellFormed wf, fun other small b before =>
        finds_of_sameTables wf same small before⟩
      dsimp only [bind, Except.bind, Option.map_some]
      rw [Pointers.writeEntry, leaf]
      exact if_pos (Nat.mod_lt _ (Nat.two_pow_pos _))
  | flush change =>
    obtain ⟨m', visited, ran, same, -⟩ := flush_spec wf change
    refine ⟨m', ?_, same.wellFormed wf, fun other small b before =>
      finds_of_sameTables wf same small before⟩
    rw [DescOp.apply, ran]
    rfl

theorem runDescs_step (ops : List (DescOp α))
    (valid : ∀ op ∈ ops, op.Valid D) :
    ∃ m', runDescs D m ops = .ok m' ∧ WellFormed D.geometry.shape m' ∧
      ∀ index < D.geometry.indices, ∀ a, Finds D m index a → Finds D m' index a := by
  induction ops generalizing m with
  | nil => exact ⟨m, rfl, wf, fun _ _ _ found => found⟩
  | cons op rest ih =>
    obtain ⟨next, applied, wf', keeps⟩ := DescOp.step wf (valid op List.mem_cons_self)
    obtain ⟨m', ran, wf'', keeps'⟩ :=
      ih wf' fun op member => valid op (List.mem_cons_of_mem _ member)
    refine ⟨m', ?_, wf'', fun index small a found =>
      keeps' index small a (keeps index small a found)⟩
    unfold runDescs at ran ⊢
    rw [List.foldlM_cons, applied]
    exact ran

end

end Calls

def MapFaithful {α : Type} (D : DescMap α) : Prop :=
  ∀ ops : List (DescOp α), (∀ op ∈ ops, op.Valid D) →
    ∃ m, runDescs D Pointers.empty ops = .ok m ∧ DescsFaithful D m ∧ WalksFaithful D m ∧
      ∀ more : List (DescOp α), (∀ op ∈ more, op.Valid D) → ∃ m', runDescs D m more = .ok m' ∧
          ∀ index < D.geometry.indices, ∀ a, Finds D m index a → Finds D m' index a

theorem mapFaithful {α : Type} (D : DescMap α) : MapFaithful D := by
  intro ops valid
  obtain ⟨m, ran, wf, -⟩ := runDescs_step (D := D) wellFormed_empty ops valid
  refine ⟨m, ran, descsFaithful_of_wellFormed wf, walksFaithful_of_wellFormed wf, ?_⟩
  intro more validMore
  obtain ⟨m', ran', -, keeps⟩ := runDescs_step wf more validMore
  exact ⟨m', ran', keeps⟩

/-- Both maps are faithful for every page size, address width and host. After
`page_flush_tb` no descriptor has a translation block. -/
theorem pageMaps_faithful (G : Geometry) (host : HostLong) :
    MapFaithful (l1MapOf G host) ∧ MapFaithful (l1PhysMapOf G) ∧
      ∀ ops : List (DescOp PageDesc), (∀ op ∈ ops, op.Valid (l1MapOf G host)) →
        ∃ m m' visited, runDescs (l1MapOf G host) Pointers.empty ops = .ok m ∧
          pageFlushTb G host m = .ok (m', visited) ∧ VisitsLeaves m visited ∧
          ∀ p entries, m'.blocks p = some (.leaf entries) → ∀ i < 2 ^ Geometry.l2Bits,
            (entries i).firstTb = none := by
  refine ⟨mapFaithful _, mapFaithful _, fun ops valid => ?_⟩
  obtain ⟨m, ran, wf, -⟩ := runDescs_step (D := l1MapOf G host) wellFormed_empty ops valid
  obtain ⟨m', visited, flushed, same, visits, leaves⟩ := flush_spec wf PageDesc.flushed
  refine ⟨m, m', visited, ran, flushed, visits, fun p entries leaf i less => ?_⟩
  obtain ⟨before, leafBefore⟩ := (same.leaves p).mp ⟨entries, leaf⟩
  have after := leaves p before leafBefore
  rw [leaf, Option.some.injEq, Block.leaf.injEq] at after
  rw [after]
  dsimp only
  rw [if_pos less]
  rfl

end Tlib.Memory
