import Mathlib.Algebra.Group.Nat.Defs
import Mathlib.Logic.Function.Basic

/-!
Contract: radix trees over machine addresses.

Owns: arrays of slots that lead over a fixed number of levels to arrays of entries, and which
indices share a path or a leaf.
-/

namespace Tlib.Library.RadixTree

open Function Nat

universe u

variable {α : Type u}

/-- The digits of an index: the top one, and `levels` of `bits` bits below. -/
structure Shape where
  (bits rootBits levels : Nat)
  deriving DecidableEq, Repr

/-- A pointer to an array of pointers, or to an array of entries at level 0. -/
inductive Slot (α : Type u) : Nat → Type u where
  | null {level : Nat} : Slot α level
  | leaf (entries : Nat → α) : Slot α 0
  | node {level : Nat} (children : Nat → Slot α level) : Slot α (level + 1)

namespace Shape

variable (G : Shape)

def size : Nat := 2 ^ (G.rootBits + G.bits * G.levels)

/-- The digit of `bits` bits at a level; level 0 has the lowest bits. -/
def digit (level index : Nat) : Nat := index / 2 ^ (G.bits * level) % 2 ^ G.bits

def rootDigit (index : Nat) : Nat := index / 2 ^ (G.bits * G.levels) % 2 ^ G.rootBits

def inner : Nat := G.levels - 1

end Shape

variable (G : Shape)

/-- The array of entries that an index leads to. -/
def Slot.find : {level : Nat} → Slot α level → Nat → Option (Nat → α)
  | _, .null, _ => none
  | _, .leaf entries, _ => some entries
  | level + 1, .node children, index => Slot.find (children (G.digit (level + 1) index)) index

def Slot.children {level : Nat} : Slot α (level + 1) → Nat → Slot α level
  | .null => fun _ => .null
  | .node children => children

def Slot.entries : Slot α 0 → Option (Nat → α)
  | .null => none
  | .leaf entries => some entries

def Slot.alter (change : Option (Nat → α) → Nat → α) :
    (level : Nat) → Slot α level → Nat → Slot α level
  | 0, slot, _ => .leaf (change slot.entries)
  | level + 1, slot, index =>
    .node (update slot.children (G.digit (level + 1) index)
      (Slot.alter change level (slot.children (G.digit (level + 1) index)) index))

/-- The root is always allocated. -/
structure Tree (α : Type u) : Type u where
  root : Nat → Slot α G.inner

namespace Tree

def empty : Tree G α := ⟨fun _ => .null⟩

variable {G}

def leaf (t : Tree G α) (index : Nat) : Option (Nat → α) :=
  Slot.find G (t.root (G.rootDigit index)) index

def find (t : Tree G α) (index : Nat) : Option α :=
  (t.leaf index).map fun entries => entries (G.digit 0 index)

/-- Changes one entry. A new array of entries starts as `fill`. -/
def modify (t : Tree G α) (index : Nat) (fill : Nat → α) (f : α → α) : Tree G α :=
  let change (leaf : Option (Nat → α)) : Nat → α :=
    let entries := leaf.getD fill
    update entries (G.digit 0 index) (f (entries (G.digit 0 index)))
  ⟨update t.root (G.rootDigit index)
    (Slot.alter G change G.inner (t.root (G.rootDigit index)) index)⟩

def view (default : Nat → α) (t : Tree G α) (index : Nat) : α := (t.find index).getD (default index)

end Tree

variable {G} {level index other : Nat} {slot : Slot α level}

def SamePath (G : Shape) (level index other : Nat) : Prop :=
  ∀ below, 0 < below → below ≤ level → G.digit below index = G.digit below other

theorem Slot.find_zero (leaf : Slot α 0) (index : Nat) : Slot.find G leaf index = leaf.entries := by
  cases leaf with
  | null => rfl
  | leaf entries => rfl

theorem Slot.find_succ (slot : Slot α (level + 1)) (index : Nat) :
    Slot.find G slot index = Slot.find G (slot.children (G.digit (level + 1) index)) index := by
  cases slot with
  | null =>
    cases level with
    | zero => rfl
    | succ level => rfl
  | node children => rfl

theorem SamePath.below (same : SamePath G (level + 1) index other) : SamePath G level index other :=
  fun below pos le => same below pos (le_succ_of_le le)

theorem SamePath.here (same : SamePath G (level + 1) index other) :
    G.digit (level + 1) index = G.digit (level + 1) other :=
  same (level + 1) (succ_pos _) (Nat.le_refl _)

theorem Slot.find_congr (slot : Slot α level) (same : SamePath G level index other) :
    Slot.find G slot other = Slot.find G slot index := by
  induction level with
  | zero => rw [Slot.find_zero, Slot.find_zero]
  | succ level ih => rw [Slot.find_succ, Slot.find_succ, same.here, ih _ same.below]

theorem Slot.children_alter (change : Option (Nat → α) → Nat → α) (slot : Slot α (level + 1)) :
    (Slot.alter G change (level + 1) slot index).children =
      update slot.children (G.digit (level + 1) index)
        (Slot.alter G change level (slot.children (G.digit (level + 1) index)) index) := rfl

theorem Slot.find_alter_same (change : Option (Nat → α) → Nat → α) (slot : Slot α level)
    (same : SamePath G level index other) :
    Slot.find G (Slot.alter G change level slot index) other =
      some (change (Slot.find G slot index)) := by
  induction level with
  | zero =>
    rw [Slot.find_zero, Slot.find_zero]
    rfl
  | succ level ih =>
    rw [Slot.find_succ, Slot.find_succ slot, Slot.children_alter, ← same.here, update_self]
    exact ih _ same.below

theorem Slot.find_alter_other (change : Option (Nat → α) → Nat → α) (slot : Slot α level)
    (differ : ¬SamePath G level index other) :
    Slot.find G (Slot.alter G change level slot index) other = Slot.find G slot other := by
  induction level with
  | zero =>
    exact absurd (fun below pos le => absurd pos (by omega)) differ
  | succ level ih =>
    rw [Slot.find_succ, Slot.find_succ slot, Slot.children_alter]
    by_cases here : G.digit (level + 1) index = G.digit (level + 1) other
    · have below : ¬SamePath G level index other := by
        intro same
        refine differ fun b pos le => ?_
        rcases Nat.lt_or_ge level b with top | under
        · rw [show b = level + 1 by omega]
          exact here
        · exact same b pos under
      rw [← here, update_self]
      exact ih _ below
    · rw [update_of_ne (Ne.symm here)]

variable {t : Tree G α} {fill default : Nat → α} {f : α → α}

theorem eq_of_div_eq_of_mod_eq {base : Nat} (high : index / base = other / base)
    (low : index % base = other % base) : index = other := by
  rw [← div_add_mod index base, ← div_add_mod other base, high, low]

theorem shift_eq_of_samePath (small : index < G.size) (smallOther : other < G.size)
    (root : G.rootDigit index = G.rootDigit other) (same : SamePath G G.inner index other) :
    ∀ down, down + 1 ≤ G.levels →
      index / 2 ^ (G.bits * (G.levels - down)) = other / 2 ^ (G.bits * (G.levels - down)) := by
  intro down within
  induction down with
  | zero =>
    have bound (i : Nat) (less : i < G.size) : i / 2 ^ (G.bits * G.levels) < 2 ^ G.rootBits := by
      rw [Nat.div_lt_iff_lt_mul (Nat.two_pow_pos _), ← Nat.pow_add]
      exact less
    have digits := root
    unfold Shape.rootDigit at digits
    rwa [mod_eq_of_lt (bound index small), mod_eq_of_lt (bound other smallOther)]
      at digits
  | succ down ih =>
    have above := ih (by omega)
    have level : G.levels - down = G.levels - (down + 1) + 1 := by omega
    have digit := same (G.levels - (down + 1)) (by omega) (by unfold Shape.inner; omega)
    refine @eq_of_div_eq_of_mod_eq _ _ (2 ^ G.bits) ?_ digit
    rw [level, Nat.mul_add, Nat.mul_one, Nat.pow_add, ← Nat.div_div_eq_div_mul,
      ← Nat.div_div_eq_div_mul] at above
    exact above

/-- Two indices lead to one array of entries. -/
def SameLeaf (G : Shape) (index other : Nat) : Prop :=
  G.rootDigit index = G.rootDigit other ∧ SamePath G G.inner index other

theorem SameLeaf.block_eq (small : index < G.size) (smallOther : other < G.size)
    (same : SameLeaf G index other) :
    index = other ∨ index / 2 ^ G.bits = other / 2 ^ G.bits := by
  have shift := shift_eq_of_samePath small smallOther same.1 same.2
  rcases Nat.eq_zero_or_pos G.levels with none | some
  · left
    have bound (i : Nat) (less : i < G.size) : i < 2 ^ G.rootBits := by
      unfold Shape.size at less
      rwa [none, Nat.mul_zero, Nat.add_zero] at less
    have digits := same.1
    unfold Shape.rootDigit at digits
    rwa [none, Nat.mul_zero, Nat.pow_zero, Nat.div_one, Nat.div_one,
      mod_eq_of_lt (bound index small), mod_eq_of_lt (bound other smallOther)] at digits
  · right
    have last := shift (G.levels - 1) (by omega)
    rwa [show G.levels - (G.levels - 1) = 1 by omega, Nat.mul_one] at last

theorem SameLeaf.eq (small : index < G.size) (smallOther : other < G.size)
    (same : SameLeaf G index other) (entry : G.digit 0 index = G.digit 0 other) :
    index = other := by
  rcases same.block_eq small smallOther with equal | block
  · exact equal
  · unfold Shape.digit at entry
    rw [Nat.mul_zero, Nat.pow_zero, Nat.div_one, Nat.div_one] at entry
    exact eq_of_div_eq_of_mod_eq block entry

theorem Tree.leaf_modify (t : Tree G α) (index other : Nat) (fill : Nat → α) (f : α → α) :
    (SameLeaf G index other → (t.modify index fill f).leaf other =
        some (update ((t.leaf index).getD fill) (G.digit 0 index)
          (f (((t.leaf index).getD fill) (G.digit 0 index))))) ∧
      (¬SameLeaf G index other → (t.modify index fill f).leaf other = t.leaf other) := by
  unfold Tree.modify Tree.leaf
  dsimp only
  constructor
  · intro same
    rw [← same.1, update_self, Slot.find_alter_same _ _ same.2]
  · intro differ
    by_cases root : G.rootDigit index = G.rootDigit other
    · have path : ¬SamePath G G.inner index other := fun same => differ ⟨root, same⟩
      rw [← root, update_self, Slot.find_alter_other _ _ path]
    · rw [update_of_ne (Ne.symm root)]

def Fills (G : Shape) (default fill : Nat → α) (index : Nat) : Prop :=
  ∀ entry, fill entry = default (index / 2 ^ G.bits * 2 ^ G.bits + entry)

theorem Tree.view_modify (t : Tree G α) (small : index < G.size) (smallOther : other < G.size)
    (fills : Fills G default fill index ∨ (t.leaf index).isSome = true) :
    (t.modify index fill f).view default other =
      if other = index then f (t.view default index) else t.view default other := by
  have digit (i : Nat) : G.digit 0 i = i % 2 ^ G.bits := by
    unfold Shape.digit
    rw [Nat.mul_zero, Nat.pow_zero, Nat.div_one]
  have place (i : Nat) : i / 2 ^ G.bits * 2 ^ G.bits + G.digit 0 i = i := by
    rw [digit, Nat.mul_comm]
    exact div_add_mod _ _
  -- an array that is there, or the one that is filled in, holds the entries of the view
  have entries (i : Nat) (smallI : i < G.size) (same : SameLeaf G index i) :
      ((t.leaf index).getD fill) (G.digit 0 i) = t.view default i := by
    have leaf : t.leaf i = t.leaf index := by
      unfold Tree.leaf
      rw [← same.1, Slot.find_congr _ same.2]
    unfold Tree.view Tree.find
    rw [leaf]
    cases there : t.leaf index with
    | some array => rfl
    | none =>
      rcases fills with fills | some
      · have block : i / 2 ^ G.bits = index / 2 ^ G.bits := by
          rcases same.block_eq small smallI with equal | block
          · rw [equal]
          · exact block.symm
        rw [Option.getD_none, fills, ← block, place]
        rfl
      · rw [there] at some
        cases some
  by_cases same : SameLeaf G index other
  · have changed := (t.leaf_modify index other fill f).1 same
    have after : (t.modify index fill f).view default other =
        update ((t.leaf index).getD fill) (G.digit 0 index)
          (f (((t.leaf index).getD fill) (G.digit 0 index))) (G.digit 0 other) := by
      unfold Tree.view Tree.find
      rw [changed]
      rfl
    rw [after]
    by_cases equal : other = index
    · rw [if_pos equal, equal, update_self, entries index small ⟨rfl, fun _ _ _ => rfl⟩]
    · have apart : G.digit 0 other ≠ G.digit 0 index := fun entry =>
        equal (same.eq small smallOther entry.symm).symm
      rw [if_neg equal, update_of_ne apart, entries other smallOther same]
  · have equal : other ≠ index := fun equal => same (equal ▸ ⟨rfl, fun _ _ _ => rfl⟩)
    rw [if_neg equal]
    unfold Tree.view Tree.find
    rw [(t.leaf_modify index other fill f).2 same]

end Tlib.Library.RadixTree
