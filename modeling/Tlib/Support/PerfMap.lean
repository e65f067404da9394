import Mathlib.Data.List.Perm.Basic
import Mathlib.Order.Lattice
import Mathlib.Tactic.SplitIfs

/-!
Contract: the tree of symbols for the perf map.

Owns: its rotations, `tcg_perf_append_symbol`, the map that a run of calls builds, and the heights
that are stored in it.
-/

namespace Tlib.Support.PerfMap

/-- The symbols are told apart by the addresses of their structures. -/
structure Symbol where
  (id ptr : Nat)
  size : Int
  label : Option String
  reused : Bool
  tb : Option Nat

inductive Tree where
  | nil
  | node (symbol : Symbol) (left right : Tree) (height : Int)

namespace Tree

def height : Tree → Int
  | nil => 0
  | node _ _ _ height => height

def leftRotate : Tree → Tree
  | node s l (node m ml mr _) _ =>
    let lower := max l.height ml.height + 1
    node m (node s l ml lower) mr (max lower mr.height + 1)
  | t => t

def rightRotate : Tree → Tree
  | node m (node s l ml _) mr _ =>
    let lower := max mr.height ml.height + 1
    node s l (node m ml mr lower) (max lower l.height + 1)
  | t => t

def balanceFactor : Tree → Int
  | nil => 0
  | node _ l r _ => r.height - l.height

/-- One turn of the loop that goes up. -/
def rebalance : Tree → Tree
  | nil => nil
  | node s l r _ =>
    let height := max l.height r.height + 1
    if r.height - l.height < -1 then
      if 1 ≤ l.balanceFactor then rightRotate (node s l.leftRotate r height)
      else rightRotate (node s l r height)
    else if 1 < r.height - l.height then
      if r.balanceFactor ≤ -1 then leftRotate (node s l r.rightRotate height)
      else leftRotate (node s l r height)
    else node s l r height

end Tree

open Tlib.Support.PerfMap.Tree

/-- What the walk did below: a replacement, a new link, or a step since. -/
inductive Ascent where
  | replaced (old : Symbol)
  | linked
  | rebalancing

def Ascent.freed : Ascent → Option Symbol
  | replaced old => some old
  | _ => none

/-- A symbol that takes the place of another one. -/
def Symbol.onto (s : Symbol) : Option Symbol → Symbol
  | none => s
  | some old => { s with reused := true, tb := old.tb }

/-- One node of the trace. The first one above a new symbol is stepped over. -/
def climb (t : Tree) : Ascent → Tree × Ascent
  | .replaced old => (t, .replaced old)
  | .linked => (t, .rebalancing)
  | .rebalancing => (t.rebalance, .rebalancing)

def appendSymbol (s : Symbol) : Tree → Tree × Ascent
  | nil => (node s nil nil 1, .linked)
  | node t l r height =>
    if s.ptr = t.ptr then (node (s.onto (some t)) l r height, .replaced t)
    else if s.ptr < t.ptr then
      climb (node t (appendSymbol s l).1 r height) (appendSymbol s l).2
    else climb (node t l (appendSymbol s r).1 height) (appendSymbol s r).2

/-- The tree and the freed symbols after the calls since the last flush, the latest one first. -/
def run : List Symbol → Tree × List Symbol
  | [] => (nil, [])
  | s :: earlier =>
    let next := appendSymbol s (run earlier).1
    (next.1, next.2.freed.toList ++ (run earlier).2)

/-! ### Order and contents -/

def Tree.inorder : Tree → List Symbol
  | nil => []
  | node s l r _ => l.inorder ++ s :: r.inorder

@[simp]
theorem inorder_leftRotate (t : Tree) : t.leftRotate.inorder = t.inorder := by
  unfold leftRotate
  split <;> simp [inorder]

@[simp]
theorem inorder_rightRotate (t : Tree) : t.rightRotate.inorder = t.inorder := by
  unfold rightRotate
  split <;> simp [inorder]

@[simp]
theorem inorder_rebalance (t : Tree) : t.rebalance.inorder = t.inorder := by
  cases t with
  | nil => rfl
  | node s l r height =>
    unfold rebalance
    dsimp only
    split_ifs <;> simp [inorder]

@[simp]
theorem inorder_climb (t : Tree) (a : Ascent) : (climb t a).1.inorder = t.inorder := by
  cases a <;> simp [climb]

@[simp]
theorem freed_climb (t : Tree) (a : Ascent) : (climb t a).2.freed = a.freed := by
  cases a <;> rfl

def Ordered (symbols : List Symbol) : Prop := symbols.Pairwise (·.ptr < ·.ptr)

/-- The symbol stands at its place among the others, for the one that is freed if there is one. -/
structure PlacedAt (s : Symbol) (old : Option Symbol) (symbols symbols' before after : List Symbol) :
    Prop where
  less : ∀ x ∈ before, x.ptr < s.ptr
  greater : ∀ x ∈ after, s.ptr < x.ptr
  same : ∀ x ∈ old, x.ptr = s.ptr
  was : symbols = before ++ (old.toList ++ after)
  is : symbols' = before ++ s.onto old :: after

theorem appendSymbol_placed (s : Symbol) (t : Tree) (ordered : Ordered t.inorder) :
    ∃ before after, PlacedAt s (appendSymbol s t).2.freed t.inorder (appendSymbol s t).1.inorder
      before after := by
  induction t with
  | nil => exact ⟨[], [], by simp, by simp, by simp [appendSymbol, Ascent.freed], rfl, rfl⟩
  | node x l r height ihL ihR =>
    obtain ⟨leftOrdered, rest, apart⟩ := List.pairwise_append.mp ordered
    obtain ⟨above, rightOrdered⟩ := List.pairwise_cons.mp rest
    unfold appendSymbol
    split_ifs with same less
    · exact ⟨l.inorder, r.inorder, fun y member => same ▸ apart y member x List.mem_cons_self,
        fun y member => same ▸ above y member, by simp [Ascent.freed, same], rfl, rfl⟩
    · obtain ⟨before, after, placed⟩ := ihL leftOrdered
      refine ⟨before, after ++ x :: r.inorder, placed.less, ?_, ?_, ?_, ?_⟩
      · intro y member
        rcases List.mem_append.mp member with here | there
        · exact placed.greater y here
        · rcases List.mem_cons.mp there with rfl | there
          · exact less
          · exact less.trans (above y there)
      · simpa using placed.same
      · simp [inorder, placed.was]
      · simp [inorder, placed.is]
    · obtain ⟨before, after, placed⟩ := ihR rightOrdered
      have greater : x.ptr < s.ptr := by omega
      refine ⟨l.inorder ++ x :: before, after, ?_, placed.greater, ?_, ?_, ?_⟩
      · intro y member
        rcases List.mem_append.mp member with here | there
        · exact (apart y here x List.mem_cons_self).trans greater
        · rcases List.mem_cons.mp there with rfl | there
          · exact greater
          · exact placed.less y there
      · simpa using placed.same
      · simp [inorder, placed.was]
      · simp [inorder, placed.is]

/-- What is known of an address after the calls: the latest symbol, marked if it was not the first. -/
def current : List Symbol → Nat → Option Symbol
  | [], _ => none
  | s :: earlier, ptr =>
    if s.ptr = ptr then some (s.onto (current earlier ptr)) else current earlier ptr

/-- An ordered map of the calls; each symbol is in it or freed, and not both. -/
structure IsMap (state : Tree × List Symbol) (calls : List Symbol) : Prop where
  ordered : Ordered state.1.inorder
  contents : ∀ x, x ∈ state.1.inorder ↔ current calls x.ptr = some x
  conserved : ((state.1.inorder ++ state.2).map (·.id)).Perm (calls.map (·.id))

theorem onto_ptr (s : Symbol) (old : Option Symbol) : (s.onto old).ptr = s.ptr := by
  cases old <;> rfl

theorem onto_id (s : Symbol) (old : Option Symbol) : (s.onto old).id = s.id := by
  cases old <;> rfl

theorem current_ptr {calls : List Symbol} {ptr : Nat} {x : Symbol}
    (known : current calls ptr = some x) : x.ptr = ptr := by
  induction calls generalizing x with
  | nil => cases known
  | cons s earlier ih =>
    rw [current] at known
    split_ifs at known with same
    · rw [← Option.some.inj known, onto_ptr, same]
    · exact ih known

section

variable {s : Symbol} {old : Option Symbol} {symbols symbols' before after earlier : List Symbol}

theorem PlacedAt.ordered (placed : PlacedAt s old symbols symbols' before after)
    (ordered : Ordered symbols) : Ordered symbols' := by
  rw [placed.was] at ordered
  obtain ⟨first, rest, apart⟩ := List.pairwise_append.mp ordered
  rw [placed.is]
  refine List.pairwise_append.mpr ⟨first, List.pairwise_cons.mpr
    ⟨fun x member => (onto_ptr s old).trans_lt (placed.greater x member),
      (List.pairwise_append.mp rest).2.1⟩, fun x member y other => ?_⟩
  rcases List.mem_cons.mp other with rfl | other
  · exact (placed.less x member).trans_eq (onto_ptr s old).symm
  · exact apart x member y (List.mem_append_right _ other)

theorem PlacedAt.current_eq (placed : PlacedAt s old symbols symbols' before after)
    (contents : ∀ x, x ∈ symbols ↔ current earlier x.ptr = some x) :
    current earlier s.ptr = old := by
  have eq_old {x : Symbol} (member : x ∈ symbols) (same : x.ptr = s.ptr) : old = some x := by
    rw [placed.was, List.mem_append, List.mem_append] at member
    rcases member with low | here | high
    · exact absurd same (placed.less x low).ne
    · exact Option.mem_toList.mp here
    · exact absurd same (placed.greater x high).ne'
  cases known : current earlier s.ptr with
  | some x =>
    have same := current_ptr known
    exact (eq_old ((contents x).mpr (same ▸ known)) same).symm
  | none =>
    cases old with
    | none => rfl
    | some x =>
      have member : x ∈ symbols := by simp [placed.was]
      have found := (contents x).mp member
      rw [placed.same x rfl, known] at found
      cases found

theorem PlacedAt.contents (placed : PlacedAt s old symbols symbols' before after)
    (contents : ∀ x, x ∈ symbols ↔ current earlier x.ptr = some x) (x : Symbol) :
    x ∈ symbols' ↔ current (s :: earlier) x.ptr = some x := by
  rw [current, placed.is, List.mem_append, List.mem_cons]
  split_ifs with same
  · rw [← same, placed.current_eq contents, Option.some_inj]
    constructor
    · rintro (low | here | high)
      · exact absurd same.symm (placed.less x low).ne
      · exact here.symm
      · exact absurd same.symm (placed.greater x high).ne'
    · exact fun here => Or.inr (Or.inl here.symm)
  · rw [← contents, placed.was, List.mem_append, List.mem_append, Option.mem_toList]
    have notNew : x ≠ s.onto old := fun here => same ((onto_ptr s old).symm.trans (here ▸ rfl))
    have notOld : ¬old = some x := fun here => same (placed.same x here).symm
    rw [or_iff_right notNew, or_iff_right notOld]

theorem PlacedAt.conserved (placed : PlacedAt s old symbols symbols' before after)
    {freed : List Symbol} {ids : List Nat}
    (conserved : ((symbols ++ freed).map (·.id)).Perm ids) :
    ((symbols' ++ (old.toList ++ freed)).map (·.id)).Perm (s.id :: ids) := by
  refine List.Perm.trans ?_ (conserved.cons s.id)
  rw [placed.was, placed.is, ← onto_id s old, ← List.map_cons, List.append_assoc]
  refine (List.perm_middle.trans (List.Perm.cons _ ?_)).map _
  rw [List.append_assoc, List.append_assoc]
  refine List.Perm.append_left _ ?_
  show (after ++ (old.toList ++ freed)).Perm _
  rw [← List.append_assoc, ← List.append_assoc]
  exact List.perm_append_comm.append_right _

end

theorem run_isMap (calls : List Symbol) : IsMap (run calls) calls := by
  induction calls with
  | nil => exact ⟨List.Pairwise.nil, fun x => by simp [run, inorder, current], List.Perm.nil⟩
  | cons s earlier ih =>
    obtain ⟨before, after, placed⟩ := appendSymbol_placed s (run earlier).1 ih.ordered
    exact ⟨placed.ordered ih.ordered, placed.contents ih.contents, placed.conserved ih.conserved⟩

/-! ### Heights -/

def Tree.rank : Tree → Int
  | nil => 0
  | node _ l r _ => max l.rank r.rank + 1

/-- Every stored height is that of its subtree. -/
def Tree.HeightsExact : Tree → Prop
  | nil => True
  | node s l r height => height = (node s l r height).rank ∧ l.HeightsExact ∧ r.HeightsExact

def Tree.Balanced : Tree → Prop
  | nil => True
  | node _ l r _ => -1 ≤ r.rank - l.rank ∧ r.rank - l.rank ≤ 1 ∧ l.Balanced ∧ r.Balanced

/-- What is demanded of the tree. -/
structure IsAvlMap (state : Tree × List Symbol) (calls : List Symbol) : Prop
    extends IsMap state calls where
  heights : state.1.HeightsExact
  balanced : state.1.Balanced

theorem run_one {calls : List Symbol} {ptr : Nat} (nonempty : calls ≠ [])
    (one : ∀ s ∈ calls, s.ptr = ptr) :
    ∃ x, (run calls).1 = node x nil nil 1 ∧ x.ptr = ptr := by
  induction calls with
  | nil => exact absurd rfl nonempty
  | cons s earlier ih =>
    have here := one s List.mem_cons_self
    cases earlier with
    | nil => exact ⟨s, rfl, here⟩
    | cons s' rest =>
      obtain ⟨x, tree, same⟩ := ih (List.cons_ne_nil _ _) fun s member =>
        one s (List.mem_cons_of_mem _ member)
      refine ⟨s.onto (some x), ?_, here⟩
      show (appendSymbol s (run (s' :: rest)).1).1 = _
      rw [tree, appendSymbol, if_pos (here.trans same.symm)]

theorem second_heights {s x : Symbol} (other : s.ptr ≠ x.ptr) :
    ¬(appendSymbol s (node x nil nil 1)).1.HeightsExact := by
  rw [appendSymbol, if_neg other]
  split_ifs <;> simp [appendSymbol, climb, HeightsExact, rank]

/-- In every run the tree is an ordered map of the calls in which no symbol is lost. Its heights and
balance are right in every state of the run exactly if all calls have one address. -/
theorem append_avl_iff (calls : List Symbol) : IsMap (run calls) calls ∧
    ((∀ earlier, earlier <:+ calls → IsAvlMap (run earlier) earlier) ↔
      ∀ s ∈ calls, ∀ s' ∈ calls, s.ptr = s'.ptr) := by
  refine ⟨run_isMap calls, ?_, ?_⟩
  · intro avl
    induction calls with
    | nil => simp
    | cons s earlier ih =>
      have one := ih fun rest suffix => avl rest (suffix.trans (List.suffix_cons s earlier))
      cases earlier with
      | nil => simp
      | cons s' rest =>
        obtain ⟨x, tree, same⟩ := run_one (List.cons_ne_nil s' rest) fun y member =>
          one y member s' List.mem_cons_self
        have heights : (appendSymbol s (run (s' :: rest)).1).1.HeightsExact :=
          (avl _ List.suffix_rfl).heights
        rw [tree] at heights
        have first : s.ptr = s'.ptr := by
          by_contra other
          exact second_heights (same ▸ other) heights
        have all : ∀ y ∈ s :: s' :: rest, y.ptr = s'.ptr := by
          intro y member
          rcases List.mem_cons.mp member with rfl | member
          · exact first
          · exact one y member s' List.mem_cons_self
        exact fun y member z other => (all y member).trans (all z other).symm
  · intro one earlier suffix
    refine ⟨run_isMap earlier, ?_, ?_⟩
    all_goals
      cases earlier with
      | nil => trivial
      | cons s rest =>
        obtain ⟨x, tree, -⟩ := run_one (List.cons_ne_nil s rest) fun y member =>
          one y (suffix.mem member) s (suffix.mem List.mem_cons_self)
        rw [tree]
        simp [HeightsExact, Tree.Balanced, rank]

/-- Two addresses: the root has the height 1 over a subtree. -/
theorem second_address_height : ∃ s s' : Symbol, ¬IsAvlMap (run [s', s]) [s', s] :=
  ⟨⟨0, 0x10, 4, none, false, none⟩, ⟨1, 0x20, 4, none, false, none⟩, fun avl => by
    have heights : 1 = max (0 : Int) (max 0 0 + 1) + 1 := avl.heights.1
    revert heights
    decide⟩

end Tlib.Support.PerfMap
