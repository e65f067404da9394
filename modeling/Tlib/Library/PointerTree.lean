import Tlib.Library.RadixTree

/-!
Contract: radix trees as blocks of memory that point to each other.

Owns: the root array and the blocks, the way down with allocation, the walk over all entries, and
that each of them is a step of the tree that the blocks stand for.
-/

namespace Tlib.Library.PointerTree

open Tlib.Library Function
open Tlib.Library.RadixTree (Shape)

variable {α : Type}

/-- What an allocation holds: pointers to blocks, or entries. -/
inductive Block (α : Type) where
  | table (slots : Nat → Option Nat)
  | leaf (entries : Nat → α)

/-- The root array, and the blocks by their addresses; addresses from `next` on are free. -/
structure Pointers (α : Type) where
  root : Nat → Option Nat
  blocks : Nat → Option (Block α)
  next : Nat

/-- Where a pointer is stored. -/
inductive Place where
  | root (i : Nat)
  | slot (block i : Nat)

inductive Fault where
  | notAllocated
  | wrongKind
  | outside
deriving DecidableEq, Repr

/-! ### Memory -/

section Memory

variable (G : Shape)

def Pointers.empty : Pointers α := ⟨fun _ => none, fun _ => none, 0⟩

def Pointers.read (m : Pointers α) : Place → Except Fault (Option Nat)
  | .root i => if i < 2 ^ G.rootBits then .ok (m.root i) else .error .outside
  | .slot block i =>
    match m.blocks block with
    | some (.table slots) => if i < 2 ^ G.bits then .ok (slots i) else .error .outside
    | some (.leaf _) => .error .wrongKind
    | none => .error .notAllocated

def Pointers.write (m : Pointers α) (pointer : Nat) : Place → Except Fault (Pointers α)
  | .root i =>
    if i < 2 ^ G.rootBits then
      .ok { m with root := update m.root i (some pointer) }
    else .error .outside
  | .slot block i =>
    match m.blocks block with
    | some (.table slots) =>
      if i < 2 ^ G.bits then
        .ok { m with
          blocks := update m.blocks block
            (some (.table (update slots i (some pointer)))) }
      else .error .outside
    | some (.leaf _) => .error .wrongKind
    | none => .error .notAllocated

def Pointers.readEntry (m : Pointers α) (a : Nat × Nat) : Except Fault α :=
  match m.blocks a.1 with
  | some (.leaf entries) => if a.2 < 2 ^ G.bits then .ok (entries a.2) else .error .outside
  | some (.table _) => .error .wrongKind
  | none => .error .notAllocated

def Pointers.writeEntry (m : Pointers α) (a : Nat × Nat) (f : α → α) : Except Fault (Pointers α) :=
  match m.blocks a.1 with
  | some (.leaf entries) =>
    if a.2 < 2 ^ G.bits then
      .ok { m with
        blocks := update m.blocks a.1
          (some (.leaf (update entries a.2 (f (entries a.2))))) }
    else .error .outside
  | some (.table _) => .error .wrongKind
  | none => .error .notAllocated

/-- The new block gets the address `next`. -/
def Pointers.malloc (m : Pointers α) (block : Block α) : Pointers α :=
  { m with blocks := update m.blocks m.next (some block), next := m.next + 1 }

def fetch (alloc : Bool) (fresh : Block α) (m : Pointers α) (lp : Place) :
    Except Fault (Pointers α × Option Nat) := do
  match ← m.read G lp with
  | some p => return (m, some p)
  | none =>
    if alloc then
      let after ← (m.malloc fresh).write G m.next lp
      return (after, some m.next)
    else return (m, none)

/-- The way down from a place over tables, selected by the digits `i` to `1`. -/
def descend (alloc : Bool) (index : Nat) : Nat → Pointers α → Place →
    Except Fault (Pointers α × Option Place)
  | 0, m, lp => return (m, some lp)
  | i + 1, m, lp => do
    match ← fetch G alloc (.table fun _ => none) m lp with
    | (m, some p) => descend alloc index i m (.slot p (G.digit (i + 1) index))
    | (m, none) => return (m, none)

def findAlloc (alloc : Bool) (fill : Nat → α) (start rootIndex index : Nat) (m : Pointers α) :
    Except Fault (Pointers α × Option (Nat × Nat)) := do
  match ← descend G alloc index start m (.root rootIndex) with
  | (m, some lp) =>
    let (m, p) ← fetch G alloc (.leaf fill) m lp
    return (m, p.map fun p => (p, G.digit 0 index))
  | (m, none) => return (m, none)

def visitLeaf (change : Block α → Option (Block α)) (c : Pointers α × List Nat) (p : Nat) :
    Except Fault (Pointers α × List Nat) :=
  match c.1.blocks p with
  | some (.leaf entries) =>
    .ok ({ c.1 with blocks := update c.1.blocks p (change (.leaf entries)) }, c.2 ++ [p])
  | some (.table _) => .error .wrongKind
  | none => .error .notAllocated

def visitTable (change : Block α → Option (Block α)) (c : Pointers α × List Nat) (p : Nat) :
    Except Fault (Pointers α × List Nat) :=
  match c.1.blocks p with
  | some (.table slots) =>
    .ok ({ c.1 with blocks := update c.1.blocks p (change (.table slots)) }, c.2)
  | some (.leaf _) => .error .wrongKind
  | none => .error .notAllocated

def traverse (change : Block α → Option (Block α)) : Nat → Pointers α × List Nat → Place →
    Except Fault (Pointers α × List Nat)
  | 0, c, lp => do
    match ← c.1.read G lp with
    | some p => visitLeaf change c p
    | none => return c
  | level + 1, c, lp => do
    match ← c.1.read G lp with
    | some p => do
      let c ← (List.range (2 ^ G.bits)).foldlM
        (fun c i => traverse change level c (.slot p i)) c
      visitTable change c p
    | none => return c

def traverseAll (change : Block α → Option (Block α)) (level : Nat) (m : Pointers α) :
    Except Fault (Pointers α × List Nat) :=
  (List.range (2 ^ G.rootBits)).foldlM (fun c i => traverse G change level c (.root i)) (m, [])

end Memory

/-! ### The blocks by their keys -/

section Keys

variable (G : Shape)

/-- The block that the upper bits `x` of an index lead to, `depth` tables below the root. -/
def blockAt (m : Pointers α) : Nat → Nat → Option Nat
  | 0, x => if x < 2 ^ G.rootBits then m.root x else none
  | depth + 1, x =>
    (blockAt m depth (x / 2 ^ G.bits)).bind fun p =>
      match m.blocks p with
      | some (.table slots) => slots (x % 2 ^ G.bits)
      | _ => none

def key (depth index : Nat) : Nat := index / 2 ^ (G.bits * (G.levels - depth))

def leafAt (m : Pointers α) (index : Nat) : Option Nat := blockAt G m G.inner (key G G.inner index)

def Points (m : Pointers α) : Nat → Nat → Place → Prop
  | 0, x, lp => x < 2 ^ G.rootBits ∧ lp = .root x
  | depth + 1, x, lp =>
    ∃ p, blockAt G m depth (x / 2 ^ G.bits) = some p ∧ lp = .slot p (x % 2 ^ G.bits)

/-- Blocks are what their depth says, there is one way to each of them, and none besides. -/
structure WellFormed (m : Pointers α) : Prop where
  tables : ∀ depth < G.inner, ∀ x p, blockAt G m depth x = some p →
    ∃ slots, m.blocks p = some (.table slots)
  leaves : ∀ x p, blockAt G m G.inner x = some p → ∃ entries, m.blocks p = some (.leaf entries)
  oneWay : ∀ depth ≤ G.inner, ∀ depth' ≤ G.inner, ∀ x x' p, blockAt G m depth x = some p →
    blockAt G m depth' x' = some p → depth = depth' ∧ x = x'
  reached : ∀ p block, m.blocks p = some block →
    ∃ depth ≤ G.inner, ∃ x, blockAt G m depth x = some p
  free : ∀ p, m.next ≤ p → m.blocks p = none

/-- What a call leaves of the blocks that were there. -/
structure Grows (m m' : Pointers α) : Prop where
  walk : ∀ depth ≤ G.inner, ∀ x p, blockAt G m depth x = some p → blockAt G m' depth x = some p
  entries : ∀ p entries, m.blocks p = some (.leaf entries) → m'.blocks p = some (.leaf entries)

end Keys

variable {G : Shape} {m m' : Pointers α} {depth x p index i : Nat} {lp : Place}

section Walk

theorem grows_refl (m : Pointers α) : Grows G m m :=
  ⟨fun _ _ _ _ found => found, fun _ _ found => found⟩

theorem Grows.trans {m'' : Pointers α} (first : Grows G m m') (second : Grows G m' m'') :
    Grows G m m'' :=
  ⟨fun depth le x p found => second.walk depth le x p (first.walk depth le x p found),
    fun p entries found => second.entries p entries (first.entries p entries found)⟩

theorem wellFormed_empty : WellFormed G (Pointers.empty : Pointers α) := by
  have nothing : ∀ depth x, blockAt G (Pointers.empty : Pointers α) depth x = none := by
    intro depth
    induction depth with
    | zero => intro x; unfold blockAt; split <;> rfl
    | succ depth ih => intro x; rw [blockAt, ih]; rfl
  constructor
  · intro depth _ x p found
    rw [nothing] at found
    cases found
  · intro x p found
    rw [nothing] at found
    cases found
  · intro depth _ depth' _ x x' p found
    rw [nothing] at found
    cases found
  · intro p block found
    cases found
  · exact fun _ _ => rfl

theorem blockAt_succ {slots : Nat → Option Nat} (here : blockAt G m depth (x / 2 ^ G.bits) = some p)
    (table : m.blocks p = some (.table slots)) :
    blockAt G m (depth + 1) x = slots (x % 2 ^ G.bits) := by
  rw [blockAt, here, Option.bind_some, table]

theorem WellFormed.read (wf : WellFormed G m) (within : depth ≤ G.inner)
    (points : Points G m depth x lp) : m.read G lp = .ok (blockAt G m depth x) := by
  cases depth with
  | zero =>
    obtain ⟨less, rfl⟩ := points
    rw [Pointers.read, blockAt, if_pos less, if_pos less]
  | succ depth =>
    obtain ⟨p, parent, rfl⟩ := points
    obtain ⟨slots, table⟩ := wf.tables depth within _ p parent
    rw [Pointers.read, table, blockAt_succ parent table]
    exact if_pos (Nat.mod_lt _ (Nat.two_pow_pos _))

theorem WellFormed.blockAt_lt (wf : WellFormed G m) (within : depth ≤ G.inner)
    (found : blockAt G m depth x = some p) : p < m.next := by
  by_contra notLess
  have isFree := wf.free p (Nat.le_of_not_lt notLess)
  rcases Nat.lt_or_eq_of_le within with above | bottom
  · obtain ⟨slots, table⟩ := wf.tables depth above x p found
    rw [isFree] at table
    cases table
  · subst bottom
    obtain ⟨entries, leaf⟩ := wf.leaves x p found
    rw [isFree] at leaf
    cases leaf

end Walk

/-! ### One allocation -/

section Allocation

variable {fresh : Block α}

def Fits (G : Shape) (depth : Nat) (fresh : Block α) : Prop :=
  (depth < G.inner ∧ fresh = .table fun _ => none) ∨
    (depth = G.inner ∧ ∃ entries, fresh = .leaf entries)

def IsParent (G : Shape) (m : Pointers α) (depth x p : Nat) : Prop :=
  ∃ above, depth = above + 1 ∧ blockAt G m above (x / 2 ^ G.bits) = some p

/-- What a store of a new block changes. -/
structure Stored (G : Shape) (m m' : Pointers α) (depth x : Nat) (fresh : Block α) : Prop where
  root : ∀ i, m'.root i = if depth = 0 ∧ i = x then some m.next else m.root i
  next : m'.next = m.next + 1
  new : m'.blocks m.next = some fresh
  free : ∀ p, p ≠ m.next → m.blocks p = none → m'.blocks p = none
  leaf : ∀ p entries, p ≠ m.next → m.blocks p = some (.leaf entries) →
    m'.blocks p = some (.leaf entries)
  table : ∀ p slots, p ≠ m.next → m.blocks p = some (.table slots) →
    ∃ slots', m'.blocks p = some (.table slots') ∧
      (∀ i, IsParent G m depth x p → i = x % 2 ^ G.bits → slots' i = some m.next) ∧
      (∀ i, ¬(IsParent G m depth x p ∧ i = x % 2 ^ G.bits) → slots' i = slots i)

theorem WellFormed.write (wf : WellFormed G m) (within : depth ≤ G.inner)
    (points : Points G m depth x lp) (fresh : Block α) :
    ∃ m', (m.malloc fresh).write G m.next lp = .ok m' ∧ Stored G m m' depth x fresh := by
  cases depth with
  | zero =>
    obtain ⟨less, rfl⟩ := points
    have noParent : ∀ p, ¬IsParent G m 0 x p := fun p ⟨above, zero, _⟩ => by omega
    refine ⟨_, if_pos less, ?_, rfl, update_self _ _ _, ?_, ?_, ?_⟩
    · intro i
      by_cases here : i = x
      · rw [if_pos ⟨rfl, here⟩, here]
        exact update_self _ _ _
      · rw [if_neg fun both => here both.2]
        exact update_of_ne here _ _
    · intro p other isFree
      exact (update_of_ne other _ _).trans isFree
    · intro p entries other found
      exact (update_of_ne other _ _).trans found
    · intro p slots other found
      exact ⟨slots, (update_of_ne other _ _).trans found,
        fun i isParent => absurd isParent (noParent p), fun i _ => rfl⟩
  | succ above =>
    obtain ⟨parent, found, rfl⟩ := points
    obtain ⟨slots, table⟩ := wf.tables above within _ parent found
    have old : parent ≠ m.next := Nat.ne_of_lt (wf.blockAt_lt (Nat.le_of_lt within) found)
    have isParent : ∀ p, IsParent G m (above + 1) x p ↔ p = parent := by
      intro p
      constructor
      · rintro ⟨above', same, here⟩
        cases same
        rw [found, Option.some.injEq] at here
        exact here.symm
      · rintro rfl
        exact ⟨above, rfl, found⟩
    have read : (m.malloc fresh).blocks parent = some (.table slots) :=
      (update_of_ne old _ _).trans table
    refine ⟨{ m.malloc fresh with
      blocks := update (m.malloc fresh).blocks parent
        (some (.table (update slots (x % 2 ^ G.bits) (some m.next)))) },
      ?_, ?_, rfl, ?_, ?_, ?_, ?_⟩
    · rw [Pointers.write, read]
      exact if_pos (Nat.mod_lt _ (Nat.two_pow_pos _))
    · intro i
      rfl
    · exact (update_of_ne old.symm _ _).trans (update_self _ _ _)
    · intro p other isFree
      have apart : p ≠ parent := by
        rintro rfl
        rw [isFree] at table
        cases table
      exact (update_of_ne apart _ _).trans
        ((update_of_ne other _ _).trans isFree)
    · intro p entries other leaf
      have apart : p ≠ parent := by
        rintro rfl
        rw [leaf] at table
        cases table
      exact (update_of_ne apart _ _).trans
        ((update_of_ne other _ _).trans leaf)
    · intro p slots' other table'
      by_cases here : p = parent
      · subst here
        cases table.symm.trans table'
        refine ⟨_, update_self _ _ _, fun i _ same => ?_, fun i apart => ?_⟩
        · rw [same, update_self]
        · exact update_of_ne
            (fun same => apart ⟨(isParent p).mpr rfl, same⟩) _ _
      · exact ⟨slots', (update_of_ne here _ _).trans
          ((update_of_ne other _ _).trans table'),
          fun i own => absurd ((isParent p).mp own) here, fun i _ => rfl⟩

theorem Stored.walk (stored : Stored G m m' depth x fresh) (wf : WellFormed G m)
    (points : Points G m depth x lp) (missing : blockAt G m depth x = none)
    (fits : Fits G depth fresh) {level y : Nat} (within : level ≤ G.inner) :
    blockAt G m' level y = if level = depth ∧ y = x then some m.next else blockAt G m level y := by
  induction level generalizing y with
  | zero =>
    rw [blockAt, blockAt, stored.root]
    by_cases here : depth = 0 ∧ y = x
    · obtain ⟨rfl, rfl⟩ := here
      rw [if_pos points.1, if_pos ⟨rfl, rfl⟩, if_pos ⟨rfl, rfl⟩]
    · have there : ¬(0 = depth ∧ y = x) := fun both => here ⟨both.1.symm, both.2⟩
      rw [if_neg here, if_neg there]
  | succ level ih =>
    have parent := ih (y := y / 2 ^ G.bits) (by omega)
    by_cases below : level = depth ∧ y / 2 ^ G.bits = x
    · -- the new table is empty
      obtain ⟨rfl, rfl⟩ := below
      rw [if_pos ⟨rfl, rfl⟩] at parent
      rcases fits with ⟨-, isTable⟩ | ⟨bottom, -⟩
      · rw [blockAt_succ parent (isTable ▸ stored.new), if_neg fun both => by omega, blockAt,
          missing]
        rfl
      · omega
    · rw [if_neg below] at parent
      cases found : blockAt G m level (y / 2 ^ G.bits) with
      | none =>
        have notHere : ¬(level + 1 = depth ∧ y = x) := by
          rintro ⟨rfl, rfl⟩
          obtain ⟨p, here, -⟩ := points
          rw [found] at here
          cases here
        rw [if_neg notHere, blockAt, blockAt, parent, found]
        rfl
      | some q =>
        obtain ⟨slots, table⟩ := wf.tables level (by omega) _ q found
        have old := Nat.ne_of_lt (wf.blockAt_lt (by omega) found)
        obtain ⟨slots', table', changed, kept⟩ := stored.table q slots old table
        rw [blockAt_succ (parent.trans found) table', blockAt_succ found table]
        by_cases here : level + 1 = depth ∧ y = x
        · obtain ⟨rfl, rfl⟩ := here
          rw [if_pos ⟨rfl, rfl⟩]
          exact changed _ ⟨level, rfl, found⟩ rfl
        · rw [if_neg here]
          refine kept _ ?_
          rintro ⟨⟨above, rfl, found'⟩, same⟩
          obtain ⟨rfl, high⟩ := wf.oneWay level (by omega) above
            (by rcases fits with ⟨less, -⟩ | ⟨bottom, -⟩ <;> omega) _ _ q found found'
          refine here ⟨rfl, ?_⟩
          rw [← Nat.div_add_mod y (2 ^ G.bits), ← Nat.div_add_mod x (2 ^ G.bits), high, same]

theorem Fits.within (fits : Fits G depth fresh) : depth ≤ G.inner := by
  rcases fits with ⟨less, -⟩ | ⟨same, -⟩ <;> omega

theorem Stored.grows (stored : Stored G m m' depth x fresh) (wf : WellFormed G m)
    (points : Points G m depth x lp) (missing : blockAt G m depth x = none)
    (fits : Fits G depth fresh) : Grows G m m' where
  walk := by
    intro level within y p found
    rw [stored.walk wf points missing fits within, if_neg ?_]
    · exact found
    · rintro ⟨rfl, rfl⟩
      rw [missing] at found
      cases found
  entries := by
    intro p entries leaf
    refine stored.leaf p entries ?_ leaf
    rintro rfl
    rw [wf.free _ (Nat.le_refl _)] at leaf
    cases leaf

theorem Stored.wellFormed (stored : Stored G m m' depth x fresh) (wf : WellFormed G m)
    (points : Points G m depth x lp) (missing : blockAt G m depth x = none)
    (fits : Fits G depth fresh) : WellFormed G m' := by
  have walk := fun level y within =>
    @Stored.walk _ G m m' depth x lp fresh stored wf points missing fits level y within
  have grows := stored.grows wf points missing fits
  have cases' : ∀ level ≤ G.inner, ∀ y p, blockAt G m' level y = some p →
      (level = depth ∧ y = x ∧ p = m.next) ∨ (blockAt G m level y = some p ∧ p ≠ m.next) := by
    intro level within y p found
    rw [walk level y within] at found
    split at found
    next here =>
      cases found
      exact .inl ⟨here.1, here.2, rfl⟩
    next => exact .inr ⟨found, Nat.ne_of_lt (wf.blockAt_lt within found)⟩
  constructor
  · intro level less y p found
    rcases cases' level (by omega) y p found with ⟨rfl, rfl, rfl⟩ | ⟨before, old⟩
    · rcases fits with ⟨-, isTable⟩ | ⟨bottom, -⟩
      · exact ⟨_, isTable ▸ stored.new⟩
      · omega
    · obtain ⟨slots, table⟩ := wf.tables level less y p before
      obtain ⟨slots', table', -⟩ := stored.table p slots old table
      exact ⟨slots', table'⟩
  · intro y p found
    rcases cases' G.inner (Nat.le_refl _) y p found with ⟨bottom, rfl, rfl⟩ | ⟨before, old⟩
    · rcases fits with ⟨less, -⟩ | ⟨-, entries, isLeaf⟩
      · omega
      · exact ⟨entries, isLeaf ▸ stored.new⟩
    · obtain ⟨entries, leaf⟩ := wf.leaves y p before
      exact ⟨entries, stored.leaf p entries old leaf⟩
  · intro level within level' within' y y' p found found'
    rcases cases' level within y p found with ⟨rfl, rfl, rfl⟩ | ⟨before, old⟩
    · rcases cases' level' within' y' _ found' with ⟨rfl, rfl, -⟩ | ⟨-, old'⟩
      · exact ⟨rfl, rfl⟩
      · exact absurd rfl old'
    · rcases cases' level' within' y' p found' with ⟨-, -, new⟩ | ⟨before', -⟩
      · exact absurd new old
      · exact wf.oneWay level within level' within' y y' p before before'
  · intro p block found
    by_cases new : p = m.next
    · subst new
      refine ⟨depth, fits.within, x, ?_⟩
      rw [walk depth x fits.within, if_pos ⟨rfl, rfl⟩]
    · cases before : m.blocks p with
      | none =>
        rw [stored.free p new before] at found
        cases found
      | some block' =>
        obtain ⟨level, within, y, reached⟩ := wf.reached p block' before
        exact ⟨level, within, y, grows.walk level within y p reached⟩
  · intro p behind
    rw [stored.next] at behind
    exact stored.free p (by omega) (wf.free p (by omega))

theorem fetch_alloc (wf : WellFormed G m) (points : Points G m depth x lp)
    (fits : Fits G depth fresh) :
    ∃ m' p, fetch G true fresh m lp = .ok (m', some p) ∧ WellFormed G m' ∧ Grows G m m' ∧
      blockAt G m' depth x = some p ∧
      ((m' = m ∧ blockAt G m depth x = some p) ∨
        (blockAt G m depth x = none ∧ m'.blocks p = some fresh ∧
          ∀ level ≤ G.inner, ∀ y, ¬(level = depth ∧ y = x) →
            blockAt G m' level y = blockAt G m level y)) := by
  have read := wf.read fits.within points
  cases found : blockAt G m depth x with
  | some p =>
    refine ⟨m, p, ?_, wf, grows_refl m, found, .inl ⟨rfl, rfl⟩⟩
    rw [fetch, read, found]
    rfl
  | none =>
    obtain ⟨m', written, stored⟩ := wf.write fits.within points fresh
    have walk := fun level y within =>
      @Stored.walk _ G m m' depth x lp fresh stored wf points found fits level y within
    refine ⟨m', m.next, ?_, stored.wellFormed wf points found fits,
      stored.grows wf points found fits, ?_, .inr ⟨rfl, stored.new, ?_⟩⟩
    · rw [fetch, read, found]
      rw [if_pos rfl, written]
      rfl
    · rw [walk depth x fits.within, if_pos ⟨rfl, rfl⟩]
    · intro level within y other
      rw [walk level y within, if_neg other]

theorem fetch_find (wf : WellFormed G m) (within : depth ≤ G.inner)
    (points : Points G m depth x lp) (fresh : Block α) :
    fetch G false fresh m lp = .ok (m, blockAt G m depth x) := by
  have read := wf.read within points
  rw [fetch, read]
  cases blockAt G m depth x <;> rfl

end Allocation

/-! ### The way down -/

section Descent

theorem key_div (below : depth < G.inner) (index : Nat) :
    key G (depth + 1) index / 2 ^ G.bits = key G depth index := by
  have levels : G.levels - depth = G.levels - (depth + 1) + 1 := by
    unfold Shape.inner at below
    omega
  unfold key
  rw [levels, Nat.mul_add, Nat.mul_one, Nat.pow_add, Nat.div_div_eq_div_mul]

theorem key_mod (depth index : Nat) :
    key G (depth + 1) index % 2 ^ G.bits = G.digit (G.inner - depth) index := by
  unfold Shape.inner
  unfold key Shape.digit
  rw [show G.levels - (depth + 1) = G.levels - 1 - depth by omega]

theorem points_digit (below : depth < G.inner)
    (found : blockAt G m depth (key G depth index) = some p) :
    Points G m (depth + 1) (key G (depth + 1) index)
      (.slot p (G.digit (G.inner - depth) index)) := by
  refine ⟨p, ?_, ?_⟩
  · rw [key_div below]
    exact found
  · rw [key_mod]

theorem leafAt_none (down : depth + i = G.inner)
    (missing : blockAt G m depth (key G depth index) = none) : leafAt G m index = none := by
  induction i generalizing depth with
  | zero =>
    subst down
    exact missing
  | succ i ih =>
    refine @ih (depth + 1) (by omega) ?_
    rw [blockAt, key_div (by omega), missing]
    rfl

theorem descend_alloc (wf : WellFormed G m) (down : depth + i = G.inner)
    (points : Points G m depth (key G depth index) lp) :
    ∃ m' lp', descend G true index i m lp = .ok (m', some lp') ∧ WellFormed G m' ∧ Grows G m m' ∧
      Points G m' G.inner (key G G.inner index) lp' ∧
      ∀ y, blockAt G m' G.inner y = blockAt G m G.inner y := by
  induction i generalizing m depth lp with
  | zero =>
    subst down
    exact ⟨m, lp, rfl, wf, grows_refl m, points, fun _ => rfl⟩
  | succ i ih =>
    have below : depth < G.inner := by omega
    have fits : Fits (α := α) G depth (.table fun _ => none) := .inl ⟨below, rfl⟩
    obtain ⟨m', p, fetched, wf', grows, here, change⟩ := fetch_alloc wf points fits
    have bottom : ∀ y, blockAt G m' G.inner y = blockAt G m G.inner y := by
      intro y
      rcases change with ⟨same, -⟩ | ⟨-, -, others⟩
      · rw [same]
      · exact others G.inner (Nat.le_refl _) y fun both => by omega
    have next := points_digit below here
    rw [show G.inner - depth = i + 1 by omega] at next
    obtain ⟨m'', lp', ran, wf'', grows', points', bottom'⟩ :=
      ih wf' (show depth + 1 + i = G.inner by omega) next
    refine ⟨m'', lp', ?_, wf'', grows.trans grows', points', fun y => ?_⟩
    · rw [descend, fetched]
      exact ran
    · rw [bottom', bottom]

theorem descend_find (wf : WellFormed G m) (down : depth + i = G.inner)
    (points : Points G m depth (key G depth index) lp) :
    (∃ lp', descend G false index i m lp = .ok (m, some lp') ∧
        Points G m G.inner (key G G.inner index) lp') ∨
      (descend G false index i m lp = .ok (m, none) ∧ leafAt G m index = none) := by
  induction i generalizing depth lp with
  | zero =>
    subst down
    exact .inl ⟨lp, rfl, points⟩
  | succ i ih =>
    have below : depth < G.inner := by omega
    have fetched := fetch_find wf (Nat.le_of_lt below) points (.table fun _ => none)
    rw [descend, fetched]
    cases found : blockAt G m depth (key G depth index) with
    | none =>
      exact .inr ⟨rfl, leafAt_none down found⟩
    | some p =>
      have next := points_digit below found
      rw [show G.inner - depth = i + 1 by omega] at next
      exact ih (show depth + 1 + i = G.inner by omega) next

theorem Shape.rootDigit_lt (G : Shape) (index : Nat) : G.rootDigit index < 2 ^ G.rootBits :=
  Nat.mod_lt _ (Nat.two_pow_pos _)

theorem rootDigit_eq_key (small : index < G.size) : G.rootDigit index = key G 0 index := by
  refine Nat.mod_eq_of_lt ?_
  rw [Nat.div_lt_iff_lt_mul (Nat.two_pow_pos _), ← Nat.pow_add]
  exact small

theorem points_root (small : index < G.size) :
    Points G m 0 (key G 0 index) (.root (G.rootDigit index)) := by
  rw [← rootDigit_eq_key small]
  exact ⟨Shape.rootDigit_lt G index, rfl⟩

theorem findAlloc_alloc (wf : WellFormed G m) (small : index < G.size) (fill : Nat → α) :
    ∃ m' p, findAlloc G true fill G.inner (G.rootDigit index) index m =
        .ok (m', some (p, G.digit 0 index)) ∧
      WellFormed G m' ∧ Grows G m m' ∧ leafAt G m' index = some p ∧
      (leafAt G m index = some p ∨ (leafAt G m index = none ∧ m'.blocks p = some (.leaf fill))) ∧
      ∀ y, y ≠ key G G.inner index → blockAt G m' G.inner y = blockAt G m G.inner y := by
  obtain ⟨m', lp, ran, wf', grows, points, bottom⟩ :=
    descend_alloc (i := G.inner) wf (Nat.zero_add _) (points_root small)
  have fits : Fits G G.inner (.leaf fill) := .inr ⟨rfl, fill, rfl⟩
  obtain ⟨m'', p, fetched, wf'', grows', here, change⟩ := fetch_alloc wf' points fits
  refine ⟨m'', p, ?_, wf'', grows.trans grows', here, ?_, fun y other => ?_⟩
  · rw [findAlloc, ran]
    dsimp only [bind, Except.bind]
    rw [fetched]
    rfl
  · rw [bottom] at change
    rcases change with ⟨-, found⟩ | ⟨missing, filled, -⟩
    · exact .inl found
    · exact .inr ⟨missing, filled⟩
  · rcases change with ⟨same, -⟩ | ⟨-, -, others⟩
    · rw [same, bottom]
    · rw [others G.inner (Nat.le_refl _) y fun both => other both.2, bottom]

theorem findAlloc_find (wf : WellFormed G m) (small : index < G.size) (fill : Nat → α) :
    findAlloc G false fill G.inner (G.rootDigit index) index m =
      .ok (m, (leafAt G m index).map fun p => (p, G.digit 0 index)) := by
  rcases descend_find (i := G.inner) wf (Nat.zero_add _) (points_root small) with
    ⟨lp, ran, points⟩ | ⟨ran, missing⟩
  · have fetched := fetch_find wf (Nat.le_refl _) points (.leaf fill)
    rw [findAlloc, ran]
    dsimp only [bind, Except.bind]
    rw [fetched]
    rfl
  · rw [findAlloc, ran, missing]
    rfl

theorem WellFormed.index_eq (wf : WellFormed G m) {other : Nat}
    (found : leafAt G m index = some p) (foundOther : leafAt G m other = some p)
    (entry : G.digit 0 index = G.digit 0 other) : index = other := by
  obtain ⟨-, keys⟩ := wf.oneWay G.inner (Nat.le_refl _) G.inner (Nat.le_refl _) _ _ p found
    foundOther
  unfold key at keys
  rcases Nat.eq_zero_or_pos G.levels with none | some
  · have inner : G.levels - G.inner = 0 := by omega
    rw [inner, Nat.mul_zero, Nat.pow_zero, Nat.div_one, Nat.div_one] at keys
    exact keys
  · have inner : G.levels - G.inner = 1 := by
      unfold Shape.inner
      omega
    unfold Shape.digit at entry
    rw [Nat.mul_zero, Nat.pow_zero, Nat.div_one, Nat.div_one] at entry
    rw [inner, Nat.mul_one] at keys
    rw [← Nat.div_add_mod index (2 ^ G.bits), ← Nat.div_add_mod other (2 ^ G.bits), keys, entry]

end Descent

/-! ### The walk over all blocks -/

section Traversal

variable {change : Block α → Option (Block α)} {S T : Nat → Prop} {c c' c'' : Pointers α × List Nat}

def Below (G : Shape) (m : Pointers α) (depth x p : Nat) : Prop :=
  ∃ more y, depth + more ≤ G.inner ∧ y / 2 ^ (G.bits * more) = x ∧
    blockAt G m (depth + more) y = some p

/-- What a walk over a set of blocks changes, and that it records those with entries. -/
structure Visited (m : Pointers α) (change : Block α → Option (Block α)) (S : Nat → Prop)
    (c c' : Pointers α × List Nat) : Prop where
  root : c'.1.root = c.1.root
  next : c'.1.next = c.1.next
  done : ∀ p, S p → c'.1.blocks p = (m.blocks p).bind change
  rest : ∀ p, ¬S p → c'.1.blocks p = c.1.blocks p
  seen : ∃ new, c'.2 = c.2 ++ new ∧ new.Nodup ∧
    ∀ p, p ∈ new ↔ S p ∧ ∃ entries, m.blocks p = some (.leaf entries)

theorem Visited.nothing (none : ∀ p, ¬S p) : Visited m change S c c where
  root := rfl
  next := rfl
  done p here := absurd here (none p)
  rest _ _ := rfl
  seen := ⟨[], (List.append_nil _).symm, List.nodup_nil, fun p =>
    ⟨fun member => absurd member List.not_mem_nil, fun both => absurd both.1 (none p)⟩⟩

theorem Visited.congr (visited : Visited m change S c c') (same : ∀ p, T p ↔ S p) :
    Visited m change T c c' := by
  have sets : T = S := funext fun p => propext (same p)
  rw [sets]
  exact visited

theorem Visited.append (first : Visited m change S c c') (second : Visited m change T c' c'')
    (disjoint : ∀ p, S p → ¬T p) : Visited m change (fun p => S p ∨ T p) c c'' where
  root := second.root.trans first.root
  next := second.next.trans first.next
  done := by
    intro p here
    by_cases later : T p
    · exact second.done p later
    · rw [second.rest p later]
      exact first.done p (here.resolve_right later)
  rest := by
    intro p other
    rw [not_or] at other
    rw [second.rest p other.2, first.rest p other.1]
  seen := by
    obtain ⟨new, log, nodup, members⟩ := first.seen
    obtain ⟨new', log', nodup', members'⟩ := second.seen
    refine ⟨new ++ new', by rw [log', log, List.append_assoc], ?_, fun p => ?_⟩
    · rw [List.nodup_append]
      refine ⟨nodup, nodup', fun p member q member' same => ?_⟩
      subst same
      exact disjoint p ((members p).mp member).1 ((members' p).mp member').1
    · rw [List.mem_append, members, members', or_and_right]

theorem visited_range {n : Nat} {sets : Nat → Nat → Prop}
    {f : Pointers α × List Nat → Nat → Except Fault (Pointers α × List Nat)}
    (disjoint : ∀ i < n, ∀ j < n, ∀ p, sets i p → sets j p → i = j)
    (step : ∀ i < n, ∀ c', Visited m change (fun p => ∃ j < i, sets j p) c c' →
      ∃ c'', f c' i = .ok c'' ∧ Visited m change (sets i) c' c'') :
    ∃ c', (List.range n).foldlM f c = .ok c' ∧
      Visited m change (fun p => ∃ j < n, sets j p) c c' := by
  induction n with
  | zero => exact ⟨c, rfl, Visited.nothing fun p ⟨j, less, _⟩ => absurd less (Nat.not_lt_zero j)⟩
  | succ n ih =>
    obtain ⟨c', ran, visited⟩ := ih
      (fun i less j less' => disjoint i (by omega) j (by omega))
      (fun i less => step i (by omega))
    obtain ⟨c'', last, visited'⟩ := step n (Nat.lt_succ_self n) c' visited
    refine ⟨c'', ?_, ?_⟩
    · rw [List.range_succ, List.foldlM_append, ran]
      dsimp only [bind, Except.bind]
      rw [List.foldlM_cons, last]
      rfl
    · refine (visited.append visited' ?_).congr fun p => ?_
      · rintro p ⟨j, less, here⟩ here'
        have same := disjoint j (by omega) n (by omega) p here here'
        omega
      · constructor
        · rintro ⟨j, less, here⟩
          rcases Nat.lt_or_eq_of_le (Nat.le_of_lt_succ less) with before | rfl
          · exact .inl ⟨j, before, here⟩
          · exact .inr here
        · rintro (⟨j, less, here⟩ | here)
          · exact ⟨j, by omega, here⟩
          · exact ⟨n, by omega, here⟩

theorem exists_above {more y : Nat} (found : blockAt G m (depth + more) y = some p) :
    ∃ q, blockAt G m depth (y / 2 ^ (G.bits * more)) = some q := by
  induction more generalizing y p with
  | zero =>
    rw [Nat.mul_zero, Nat.pow_zero, Nat.div_one]
    exact ⟨p, found⟩
  | succ more ih =>
    rw [← Nat.add_assoc, blockAt, Option.bind_eq_some_iff] at found
    obtain ⟨parent, here, -⟩ := found
    obtain ⟨q, above⟩ := ih here
    rw [Nat.div_div_eq_div_mul, ← Nat.pow_add, Nat.add_comm G.bits, ← Nat.mul_succ] at above
    exact ⟨q, above⟩

theorem below_none (missing : blockAt G m depth x = none) (p : Nat) : ¬Below G m depth x p := by
  rintro ⟨more, y, -, rfl, found⟩
  obtain ⟨q, above⟩ := exists_above found
  rw [missing] at above
  cases above

theorem below_iff (p : Nat) : Below G m depth x p ↔
    (depth ≤ G.inner ∧ blockAt G m depth x = some p) ∨
      (depth < G.inner ∧ ∃ i < 2 ^ G.bits, Below G m (depth + 1) (x * 2 ^ G.bits + i) p) := by
  constructor
  · rintro ⟨more, y, within, above, found⟩
    cases more with
    | zero =>
      rw [Nat.mul_zero, Nat.pow_zero, Nat.div_one] at above
      subst above
      exact .inl ⟨within, found⟩
    | succ more =>
      refine .inr ⟨by omega, y / 2 ^ (G.bits * more) % 2 ^ G.bits,
        Nat.mod_lt _ (Nat.two_pow_pos _), more, y, by omega, ?_, ?_⟩
      · rw [← above, Nat.mul_succ, Nat.pow_add, ← Nat.div_div_eq_div_mul]
        exact (Nat.div_add_mod' _ _).symm
      · rw [show depth + 1 + more = depth + (more + 1) by omega]
        exact found
  · rintro (⟨within, found⟩ | ⟨-, i, less, more, y, within, above, found⟩)
    · refine ⟨0, x, within, ?_, found⟩
      rw [Nat.mul_zero, Nat.pow_zero, Nat.div_one]
    · refine ⟨more + 1, y, by omega, ?_, ?_⟩
      · rw [Nat.mul_succ, Nat.pow_add, ← Nat.div_div_eq_div_mul, above, Nat.mul_comm,
          Nat.mul_add_div (Nat.two_pow_pos _), Nat.div_eq_of_lt less, Nat.add_zero]
      · rw [show depth + (more + 1) = depth + 1 + more by omega]
        exact found

theorem WellFormed.below_disjoint (wf : WellFormed G m) {x' : Nat} (here : Below G m depth x p)
    (here' : Below G m depth x' p) : x = x' := by
  obtain ⟨more, y, within, rfl, found⟩ := here
  obtain ⟨more', y', within', rfl, found'⟩ := here'
  obtain ⟨same, rfl⟩ := wf.oneWay _ within _ within' y y' p found found'
  rw [show more' = more by omega]

theorem WellFormed.not_below_child (wf : WellFormed G m) {y : Nat} (within : depth ≤ G.inner)
    (found : blockAt G m depth x = some p) : ¬Below G m (depth + 1) y p := by
  rintro ⟨more, z, within', -, found'⟩
  obtain ⟨same, -⟩ := wf.oneWay _ within _ within' x z p found found'
  omega

theorem blockAt_child {slots : Nat → Option Nat} (found : blockAt G m depth x = some p)
    (table : m.blocks p = some (.table slots)) (less : i < 2 ^ G.bits) :
    blockAt G m (depth + 1) (x * 2 ^ G.bits + i) = slots i := by
  have parent : blockAt G m depth ((x * 2 ^ G.bits + i) / 2 ^ G.bits) = some p := by
    rw [Nat.mul_comm, Nat.mul_add_div (Nat.two_pow_pos _), Nat.div_eq_of_lt less, Nat.add_zero]
    exact found
  rw [blockAt_succ parent table, Nat.mul_comm, Nat.mul_add_mod, Nat.mod_eq_of_lt less]

theorem visitLeaf_visited {entries : Nat → α} (here : c.1.blocks p = some (.leaf entries))
    (leaf : m.blocks p = some (.leaf entries)) :
    ∃ c', visitLeaf change c p = .ok c' ∧ Visited m change (fun q => q = p) c c' := by
  refine ⟨({ c.1 with blocks := update c.1.blocks p (change (.leaf entries)) },
    c.2 ++ [p]), by rw [visitLeaf, here], rfl, rfl, fun q same => ?_, fun q other => ?_, [p], rfl,
    by simp, fun q => ?_⟩
  · rw [same, leaf]
    exact update_self _ _ _
  · exact update_of_ne other _ _
  · rw [List.mem_singleton]
    constructor
    · rintro rfl
      exact ⟨rfl, entries, leaf⟩
    · exact fun both => both.1

theorem visitTable_visited {slots : Nat → Option Nat} (here : c.1.blocks p = some (.table slots))
    (table : m.blocks p = some (.table slots)) :
    ∃ c', visitTable change c p = .ok c' ∧ Visited m change (fun q => q = p) c c' := by
  refine ⟨({ c.1 with blocks := update c.1.blocks p (change (.table slots)) }, c.2),
    by rw [visitTable, here], rfl, rfl, fun q same => ?_, fun q other => ?_, [],
    (List.append_nil _).symm, List.nodup_nil, fun q => ?_⟩
  · rw [same, table]
    exact update_self _ _ _
  · exact update_of_ne other _ _
  · constructor
    · exact fun member => absurd member List.not_mem_nil
    · rintro ⟨rfl, entries, leaf⟩
      rw [table] at leaf
      cases leaf

theorem WellFormed.traverse (wf : WellFormed G m) {level : Nat} (down : depth + level = G.inner)
    (read : c.1.read G lp = .ok (blockAt G m depth x))
    (intact : ∀ p, Below G m depth x p → c.1.blocks p = m.blocks p) :
    ∃ c', traverse G change level c lp = .ok c' ∧ Visited m change (Below G m depth x) c c' := by
  induction level generalizing depth x lp c with
  | zero =>
    rw [PointerTree.traverse, read]
    have bottom : depth = G.inner := by omega
    cases found : blockAt G m depth x with
    | none => exact ⟨c, rfl, Visited.nothing (below_none found)⟩
    | some p =>
      subst bottom
      obtain ⟨entries, leaf⟩ := wf.leaves x p found
      have only : ∀ q, Below G m G.inner x q ↔ q = p := by
        intro q
        rw [below_iff, found, Option.some.injEq]
        constructor
        · rintro (⟨-, same⟩ | ⟨less, -⟩)
          · exact same.symm
          · omega
        · rintro rfl
          exact .inl ⟨Nat.le_refl _, rfl⟩
      have here : c.1.blocks p = some (.leaf entries) :=
        (intact p ((only p).mpr rfl)).trans leaf
      obtain ⟨c', ran, visited⟩ := visitLeaf_visited here leaf
      exact ⟨c', ran, visited.congr only⟩
  | succ level ih =>
    rw [PointerTree.traverse, read]
    cases found : blockAt G m depth x with
    | none => exact ⟨c, rfl, Visited.nothing (below_none found)⟩
    | some p =>
      have above : depth < G.inner := by omega
      obtain ⟨slots, table⟩ := wf.tables depth above x p found
      have own : Below G m depth x p := (below_iff p).mpr (.inl ⟨Nat.le_of_lt above, found⟩)
      have child : ∀ i < 2 ^ G.bits, ∀ q, Below G m (depth + 1) (x * 2 ^ G.bits + i) q →
          Below G m depth x q :=
        fun i less q below => (below_iff q).mpr (.inr ⟨above, i, less, below⟩)
      have notOwn : ∀ i, ¬Below G m (depth + 1) (x * 2 ^ G.bits + i) p :=
        fun i => wf.not_below_child (Nat.le_of_lt above) found
      have distinct : ∀ i < 2 ^ G.bits, ∀ j < 2 ^ G.bits, ∀ q,
          Below G m (depth + 1) (x * 2 ^ G.bits + i) q →
          Below G m (depth + 1) (x * 2 ^ G.bits + j) q → i = j := by
        intro i _ j _ q below below'
        have same := wf.below_disjoint below below'
        omega
      have step : ∀ i < 2 ^ G.bits, ∀ before, Visited m change
            (fun q => ∃ j < i, Below G m (depth + 1) (x * 2 ^ G.bits + j) q) c before →
          ∃ after, PointerTree.traverse G change level before (.slot p i) = .ok after ∧
            Visited m change (Below G m (depth + 1) (x * 2 ^ G.bits + i)) before after := by
        intro i less before visited
        have kept : before.1.blocks p = some (.table slots) := by
          rw [visited.rest p fun ⟨j, _, below⟩ => notOwn j below, intact p own, table]
        have here := blockAt_child found table less
        refine ih (by omega) ?_ fun q below => ?_
        · rw [Pointers.read, kept, here]
          exact if_pos less
        · have later : ¬∃ j < i, Below G m (depth + 1) (x * 2 ^ G.bits + j) q := by
            rintro ⟨j, earlier, below'⟩
            have same := distinct i less j (by omega) q below below'
            omega
          rw [visited.rest q later, intact q (child i less q below)]
      obtain ⟨c', ran, visited⟩ := visited_range distinct step
      have kept : c'.1.blocks p = some (.table slots) := by
        rw [visited.rest p fun ⟨j, _, below⟩ => notOwn j below, intact p own, table]
      obtain ⟨c'', closed, visited'⟩ := @visitTable_visited _ m p change c' slots kept table
      refine ⟨c'', ?_, (visited.append visited' ?_).congr fun q => ?_⟩
      · dsimp only [bind, Except.bind] at ran ⊢
        rw [ran]
        exact closed
      · rintro q ⟨j, _, below⟩ rfl
        exact notOwn j below
      · rw [below_iff, found, Option.some.injEq]
        constructor
        · rintro (⟨-, same⟩ | ⟨-, i, less, below⟩)
          · exact .inr same.symm
          · exact .inl ⟨i, less, below⟩
        · rintro (⟨i, less, below⟩ | same)
          · exact .inr ⟨above, i, less, below⟩
          · exact .inl ⟨Nat.le_of_lt above, same.symm⟩

theorem WellFormed.traverseAll (wf : WellFormed G m) (change : Block α → Option (Block α)) :
    ∃ m' visited, traverseAll G change G.inner m = .ok (m', visited) ∧ m'.root = m.root ∧
      m'.next = m.next ∧ (∀ p, m'.blocks p = (m.blocks p).bind change) ∧ visited.Nodup ∧
      ∀ p, p ∈ visited ↔ ∃ entries, m.blocks p = some (.leaf entries) := by
  have disjoint : ∀ i < 2 ^ G.rootBits, ∀ j < 2 ^ G.rootBits, ∀ p, Below G m 0 i p →
      Below G m 0 j p → i = j := fun i _ j _ p below below' => wf.below_disjoint below below'
  have all : ∀ p block, m.blocks p = some block → ∃ i < 2 ^ G.rootBits, Below G m 0 i p := by
    intro p block found
    obtain ⟨depth, within, x, reached⟩ := wf.reached p block found
    rw [← Nat.zero_add depth] at reached within
    obtain ⟨q, above⟩ := exists_above reached
    refine ⟨x / 2 ^ (G.bits * depth), ?_, depth, x, within, rfl, reached⟩
    by_contra outside
    rw [blockAt, if_neg outside] at above
    cases above
  have step : ∀ i < 2 ^ G.rootBits, ∀ before,
      Visited m change (fun p => ∃ j < i, Below G m 0 j p) (m, []) before →
      ∃ after, PointerTree.traverse G change G.inner before (.root i) = .ok after ∧
        Visited m change (Below G m 0 i) before after := by
    intro i less before visited
    refine wf.traverse (Nat.zero_add _) ?_ fun q below => ?_
    · rw [Pointers.read, visited.root, blockAt, if_pos less, if_pos less]
    · refine visited.rest q ?_
      rintro ⟨j, earlier, below'⟩
      have same := wf.below_disjoint below below'
      omega
  obtain ⟨⟨m', visited⟩, ran, result⟩ := visited_range disjoint step
  obtain ⟨new, log, nodup, members⟩ := result.seen
  have same : visited = new := log
  refine ⟨m', visited, ran, result.root, result.next, fun p => ?_, same ▸ nodup, fun p => ?_⟩
  · by_cases here : ∃ i < 2 ^ G.rootBits, Below G m 0 i p
    · exact result.done p here
    · have isFree : m.blocks p = none := by
        cases found : m.blocks p with
        | none => rfl
        | some block => exact absurd (all p block found) here
      rw [isFree]
      exact (result.rest p here).trans isFree
  · rw [same, members]
    constructor
    · exact fun both => both.2
    · rintro ⟨entries, leaf⟩
      exact ⟨all p _ leaf, entries, leaf⟩

end Traversal

/-! ### Changes of entries -/

section Entries

structure SameTables (m m' : Pointers α) : Prop where
  root : m'.root = m.root
  next : m'.next = m.next
  tables : ∀ p slots, m'.blocks p = some (.table slots) ↔ m.blocks p = some (.table slots)
  leaves : ∀ p, (∃ entries, m'.blocks p = some (.leaf entries)) ↔
    ∃ entries, m.blocks p = some (.leaf entries)

theorem sameTables_update {entries entries' : Nat → α} (leaf : m.blocks p = some (.leaf entries)) :
    SameTables m { m with blocks := update m.blocks p (some (.leaf entries')) } where
  root := rfl
  next := rfl
  tables := by
    intro q slots
    by_cases here : q = p
    · rw [here, leaf]
      dsimp only
      rw [update_self]
      constructor <;> intro found <;> cases found
    · dsimp only
      rw [update_of_ne here]
  leaves := by
    intro q
    by_cases here : q = p
    · rw [here]
      exact ⟨fun _ => ⟨entries, leaf⟩, fun _ => ⟨entries', update_self _ _ _⟩⟩
    · dsimp only
      rw [update_of_ne here]

theorem SameTables.blockAt_eq (same : SameTables m m') (depth x : Nat) :
    blockAt G m' depth x = blockAt G m depth x := by
  induction depth generalizing x with
  | zero => rw [blockAt, blockAt, same.root]
  | succ depth ih =>
    rw [blockAt, blockAt, ih]
    congr 1
    funext p
    cases block : m.blocks p with
    | none =>
      cases block' : m'.blocks p with
      | none => rfl
      | some found =>
        cases found with
        | table slots =>
          rw [same.tables, block] at block'
          cases block'
        | leaf entries => rfl
    | some found =>
      cases found with
      | table slots => rw [(same.tables p slots).mpr block]
      | leaf entries =>
        obtain ⟨entries', block'⟩ := (same.leaves p).mpr ⟨entries, block⟩
        rw [block']

theorem SameTables.wellFormed (same : SameTables m m') (wf : WellFormed G m) : WellFormed G m' := by
  have walk := fun depth x => same.blockAt_eq (G := G) depth x
  constructor
  · intro depth less x p found
    rw [walk] at found
    obtain ⟨slots, table⟩ := wf.tables depth less x p found
    exact ⟨slots, (same.tables p slots).mpr table⟩
  · intro x p found
    rw [walk] at found
    exact (same.leaves p).mpr (wf.leaves x p found)
  · intro depth within depth' within' x x' p found found'
    rw [walk] at found found'
    exact wf.oneWay depth within depth' within' x x' p found found'
  · intro p block found
    have before : ∃ block, m.blocks p = some block := by
      cases block with
      | table slots => exact ⟨_, (same.tables p slots).mp found⟩
      | leaf entries =>
        obtain ⟨entries', leaf⟩ := (same.leaves p).mp ⟨entries, found⟩
        exact ⟨_, leaf⟩
    obtain ⟨block', there⟩ := before
    obtain ⟨depth, within, x, reached⟩ := wf.reached p block' there
    exact ⟨depth, within, x, (walk depth x).trans reached⟩
  · intro p behind
    rw [same.next] at behind
    have isFree := wf.free p behind
    cases found : m'.blocks p with
    | none => rfl
    | some block =>
      cases block with
      | table slots =>
        rw [same.tables, isFree] at found
        cases found
      | leaf entries =>
        obtain ⟨entries', leaf⟩ := (same.leaves p).mp ⟨entries, found⟩
        rw [isFree] at leaf
        cases leaf

end Entries

end Tlib.Library.PointerTree
