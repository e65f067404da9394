import Tlib.Library.Family
import Tlib.TranslationCache.State

/-!
Contract: direct block chaining.

Owns: `tb_add_jump` and `tb_jmp_remove`. Does not own: which blocks are valid; a block that was
invalidated keeps its own branches patched and may still be chained afterwards.
-/

namespace Tlib.TranslationCache

open Tlib.Library.Linked Function List Option

/-- The list of block `t` starts at `t->jmp_first` and ends at `t` tagged `EXIT_TB_FORCE`. -/
def jumpRoots : Rooted JumpCell Slot (Option JumpPtr) TbId where
  ptr := fun slot => some (.branch slot)
  field := .jmpNext
  head := .jmpFirst
  stop := fun tb => some (.owner tb)
  ptr_injective := fun _ _ equal => JumpPtr.branch.inj (some.inj equal)
  field_injective := fun _ _ equal => JumpCell.jmpNext.inj equal
  head_injective := fun _ _ equal => JumpCell.jmpFirst.inj equal
  field_ne_head := fun _ _ equal => JumpCell.noConfusion equal
  ptr_ne_stop := fun _ _ equal => JumpPtr.noConfusion (some.inj equal)

abbrev JumpMemory := JumpCell → Option JumpPtr

abbrev TargetMemory := Slot → JumpTarget

def tbAddJump (s : State) (tb : TbId) (n : Fin 2) (tbNext : TbId) : State :=
  if s.jump (.jmpNext (tb, n)) = none then
    let jump := update s.jump (.jmpNext (tb, n)) (s.jump (.jmpFirst tbNext))
    { s with
      jmpTarget := update s.jmpTarget (tb, n) (.code tbNext)
      jump := update jump (.jmpFirst tbNext) (some (.branch (tb, n))) }
  else s

def nextJumpCell : Option JumpPtr → Option JumpCell
  | none => none
  | some (.branch slot) => some (.jmpNext slot)
  | some (.owner tb) => some (.jmpFirst tb)

def tbJmpRemove (jump : JumpMemory) (fuel : Nat) (slot : Slot) : Option JumpMemory :=
  if jump (.jmpNext slot) = none then some jump
  else
    (seek jump nextJumpCell (fun tb1 => tb1 = some (.branch slot)) fuel (.jmpNext slot)).map
      fun ptb =>
        update (update jump ptb (jump (.jmpNext slot))) (.jmpNext slot) none

def tbResetJump (jmpTarget : TargetMemory) (slot : Slot) : TargetMemory :=
  update jmpTarget slot .ownExit

/-- The loop of `tb_phys_invalidate` over the jumps to the block. -/
def resetJumps : Nat → JumpMemory → TargetMemory → Option JumpPtr →
    Option (JumpMemory × TargetMemory)
  | 0, _, _, _ => none
  | _ + 1, _, _, none => none
  | _ + 1, jump, jmpTarget, some (.owner _) => some (jump, jmpTarget)
  | fuel + 1, jump, jmpTarget, some (.branch tb1) =>
    let tb2 := jump (.jmpNext tb1)
    resetJumps fuel (update jump (.jmpNext tb1) none) (tbResetJump jmpTarget tb1) tb2

/-- The jump lists part of `tb_phys_invalidate`. -/
def tbUnchain (jump : JumpMemory) (jmpTarget : TargetMemory) (fuel : Nat) (tb : TbId) :
    Option (JumpMemory × TargetMemory) := do
  let jump ← tbJmpRemove jump fuel (tb, 0)
  let jump ← tbJmpRemove jump fuel (tb, 1)
  let (jump, jmpTarget) ← resetJumps fuel jump jmpTarget (jump (.jmpFirst tb))
  some (update jump (.jmpFirst tb) (some (.owner tb)), jmpTarget)

/-- The chain of a block lists the slots patched to it. -/
structure JumpGraph (jump : JumpMemory) (jmpTarget : TargetMemory) (nbTbs : Nat)
    (linked : TbId → Prop) (chain : TbId → List Slot) : Prop where
  family : Family jumpRoots jump linked chain
  target : ∀ t, ∀ slot ∈ chain t, jmpTarget slot = .code t
  source : ∀ t, ∀ slot ∈ chain t, linked slot.1
  complete : ∀ slot, linked slot.1 → jump (.jmpNext slot) ≠ none → ∃ t, slot ∈ chain t
  linkedIff : ∀ t, linked t ↔ t < nbTbs ∧ jump (.jmpFirst t) ≠ none

namespace JumpGraph

variable {jump : JumpMemory} {jmpTarget : TargetMemory} {nbTbs : Nat}
  {linked : TbId → Prop} {chain : TbId → List Slot}

section

variable (graph : JumpGraph jump jmpTarget nbTbs linked chain)

include graph

theorem jmpNext_ne_none {t : TbId}
    {slot : Slot} (member : slot ∈ chain t) : jump (.jmpNext slot) ≠ none := by
  have active := graph.family.active_of_mem member
  rcases (graph.family.segment t active).next_of_mem member with final | ⟨other, -, next⟩
  · exact fun isNull => some_ne_none _ (final.symm.trans isNull)
  · exact fun isNull => some_ne_none _ (next.symm.trans isNull)

theorem mem_chain_iff (t : TbId)
    (slot : Slot) :
    slot ∈ chain t ↔ linked slot.1 ∧ jump (.jmpNext slot) ≠ none ∧ jmpTarget slot = .code t := by
  constructor
  · intro member
    exact ⟨graph.source t slot member, graph.jmpNext_ne_none member, graph.target t slot member⟩
  · rintro ⟨isLinked, notNull, patched⟩
    obtain ⟨u, member⟩ := graph.complete slot isLinked notNull
    have same : u = t := by
      have other := graph.target u slot member
      rw [patched] at other
      exact (JumpTarget.code.inj other).symm
    exact same ▸ member

theorem linked_lt {t : TbId}
    (isLinked : linked t) : t < nbTbs := ((graph.linkedIff t).mp isLinked).1

theorem chain_length_le (t : TbId) : (chain t).length ≤ 2 * nbTbs :=
  slots_length_le (graph.family.nodup t)
    fun slot member => graph.linked_lt (graph.source t slot member)

end

theorem linkedIff_of_family {jump' : JumpMemory} {chain' : TbId → List Slot}
    (graph : JumpGraph jump jmpTarget nbTbs linked chain)
    (family : Family jumpRoots jump' linked chain')
    (same : ∀ t, ¬ linked t → jump' (.jmpFirst t) = jump (.jmpFirst t)) (t : TbId) :
    linked t ↔ t < nbTbs ∧ jump' (.jmpFirst t) ≠ none := by
  constructor
  · intro isLinked
    refine ⟨graph.linked_lt isLinked, ?_⟩
    rcases (family.segment t isLinked).first with stop | ⟨slot, -, head⟩
    · exact fun isNull => some_ne_none _ (stop.symm.trans isNull)
    · exact fun isNull => some_ne_none _ (head.symm.trans isNull)
  · rintro ⟨below, notNull⟩
    by_contra unlinked
    rw [same t unlinked] at notNull
    exact unlinked ((graph.linkedIff t).mpr ⟨below, notNull⟩)

end JumpGraph

theorem advance_branch (slot : Slot) :
    nextJumpCell (jumpRoots.ptr slot) = some (jumpRoots.field slot) := rfl

section Remove

variable {jump : JumpMemory} {jmpTarget : TargetMemory} {nbTbs fuel : Nat}
  {linked : TbId → Prop} {chain : TbId → List Slot} {slot : Slot}

theorem seek_around {t : TbId} {front back : List Slot}
    (segment : Segment jumpRoots.toThreading jump (.jmpFirst t) (front ++ slot :: back)
      (some (.owner t)))
    (nodup : (front ++ slot :: back).Nodup) (enough : front.length + back.length + 2 ≤ fuel) :
    seek jump nextJumpCell (fun tb1 => tb1 = some (.branch slot)) fuel (.jmpNext slot) =
      some (lastCell jumpRoots.toThreading (.jmpFirst t) front) := by
  rw [segment_append] at segment
  rw [nodup_append, nodup_cons] at nodup
  obtain ⟨rest, rfl⟩ : ∃ rest, fuel = rest + 1 + back.length := ⟨fuel - 1 - back.length, by omega⟩
  have skipBack : ∀ b ∈ back, decide (jumpRoots.ptr b = some (.branch slot)) = false := by
    intro b member
    have different : b ≠ slot := fun equal => nodup.2.1.1 (equal ▸ member)
    simp [jumpRoots, different]
  have skipFront : ∀ b ∈ front, decide (jumpRoots.ptr b = some (.branch slot)) = false := by
    intro b member
    have different : b ≠ slot := fun equal =>
      nodup.2.2 b member slot mem_cons_self equal
    simp [jumpRoots, different]
  have final := segment.2.lastCell_eq
  calc seek jump nextJumpCell (fun tb1 => tb1 = some (.branch slot)) (rest + 1 + back.length)
          (.jmpNext slot)
      = seek jump nextJumpCell (fun tb1 => tb1 = some (.branch slot)) (rest + 1)
          (lastCell jumpRoots.toThreading (.jmpNext slot) back) :=
        seek_pass segment.2 (fun b _ => advance_branch b) skipBack (rest + 1)
    _ = seek jump nextJumpCell (fun tb1 => tb1 = some (.branch slot)) rest (.jmpFirst t) := by
        apply seek_of_next
        · rw [show jump (lastCell jumpRoots.toThreading (.jmpNext slot) back) =
            some (.owner t) from final]
          simp
        · rw [show jump (lastCell jumpRoots.toThreading (.jmpNext slot) back) =
            some (.owner t) from final]
          rfl
    _ = some (lastCell jumpRoots.toThreading (.jmpFirst t) front) :=
        seek_segment segment.1 (fun b _ => advance_branch b) skipFront
          (by simp [jumpRoots]) (by omega)

theorem tbJmpRemove_eq (slot : Slot) (graph : JumpGraph jump jmpTarget nbTbs linked chain)
    (isLinked : linked slot.1) (enough : 2 * nbTbs + 2 ≤ fuel) :
    ∃ jump', tbJmpRemove jump fuel slot = some jump' ∧
      JumpGraph jump' jmpTarget nbTbs linked (fun t => (chain t).erase slot) ∧
      jump' (.jmpNext slot) = none ∧
      ∀ other, other ≠ slot → (jump' (.jmpNext other) = none ↔ jump (.jmpNext other) = none) := by
  by_cases unchained : jump (.jmpNext slot) = none
  · have absent : ∀ t, slot ∉ chain t := fun t member => graph.jmpNext_ne_none member unchained
    have same : (fun t => (chain t).erase slot) = chain := by
      funext t
      exact erase_of_not_mem (absent t)
    refine ⟨jump, by simp [tbJmpRemove, unchained], ?_, unchained, ?_⟩
    · rwa [same]
    · exact fun _ _ => Iff.rfl
  · obtain ⟨t, member⟩ := graph.complete slot isLinked unchained
    have active := graph.family.active_of_mem member
    obtain ⟨front, back, shape⟩ := append_of_mem member
    have segment := graph.family.segment t active
    have nodup := graph.family.nodup t
    have short := graph.chain_length_le t
    rw [shape] at segment nodup short
    simp only [length_append, length_cons] at short
    have stopped := seek_around segment nodup (by omega : _ ≤ fuel)
    have unlinked := graph.family.unlink shape
    have removed := unlinked.store (k := .jmpNext slot) none (fun i _ => by
      rw [show JumpCell.jmpNext slot = jumpRoots.field slot from rfl, Family.field_mem_cells_iff]
      exact graph.family.notMem_of_unlink shape i)
    have notFront : slot ∉ front := fun inFront =>
      (nodup_append.mp nodup).2.2 slot inFront slot mem_cons_self rfl
    have erased : update chain t (front ++ back) = fun u => (chain u).erase slot := by
      funext u
      by_cases equal : u = t
      · subst equal
        rw [update_self, shape, erase_append_right _ notFront, erase_cons_head]
      · rw [update_of_ne equal, erase_of_not_mem]
        exact fun other => equal (graph.family.home u t slot other member)
    rw [erased] at removed
    have ptbFirst : ∀ u, ¬ linked u →
        JumpCell.jmpFirst u ≠ lastCell jumpRoots.toThreading (.jmpFirst t) front := by
      intro u unlinkedBlock equal
      have different : u ≠ t := fun same => unlinkedBlock (same ▸ active)
      have outside : jumpRoots.head u ∉ cells jumpRoots.toThreading (jumpRoots.head t) front :=
        Family.head_notMem_cells different
      have last := lastCell_mem_cells (T := jumpRoots.toThreading) (.jmpFirst t) front
      rw [← equal] at last
      exact outside last
    have others : ∀ other, other ≠ slot → (update (update jump
            (lastCell jumpRoots.toThreading (.jmpFirst t) front) (jump (.jmpNext slot)))
          (.jmpNext slot) none (.jmpNext other) = none ↔ jump (.jmpNext other) = none) := by
      intro other different
      rw [update_of_ne (fun equal => different (JumpCell.jmpNext.inj equal))]
      by_cases atPtb : JumpCell.jmpNext other = lastCell jumpRoots.toThreading (.jmpFirst t) front
      · have before : jump (.jmpNext other) = some (.branch slot) := by
          rw [atPtb]
          exact ((segment_append _ _ _ _ _ _).mp segment).1.lastCell_eq
        rw [atPtb, update_self, ← atPtb, before]
        simp [unchained]
      · rw [update_of_ne atPtb]
    refine ⟨_, by rw [tbJmpRemove, if_neg unchained, stopped]; rfl, ?_, update_self _ _ _, others⟩
    constructor
    · exact removed
    · intro u other inChain
      exact graph.target u other (mem_of_mem_erase inChain)
    · intro u other inChain
      exact graph.source u other (mem_of_mem_erase inChain)
    · intro other otherLinked notNull
      have different : other ≠ slot := by
        intro equal
        rw [equal, update_self] at notNull
        exact notNull rfl
      rw [ne_eq, others other different] at notNull
      obtain ⟨u, inChain⟩ := graph.complete other otherLinked notNull
      exact ⟨u, (mem_erase_of_ne different).mpr inChain⟩
    · apply graph.linkedIff_of_family removed
      intro u unlinkedBlock
      exact update_of_ne (ptbFirst u unlinkedBlock) _ jump

end Remove

section Reset

/-- The jump memory and the branches after the slots of `l` were reset. -/
def clearNext (l : List Slot) (jump : JumpMemory) : JumpMemory
  | .jmpFirst tb => jump (.jmpFirst tb)
  | .jmpNext slot => if slot ∈ l then none else jump (.jmpNext slot)

def unpatch (l : List Slot) (jmpTarget : TargetMemory) : TargetMemory := fun slot =>
  if slot ∈ l then .ownExit else jmpTarget slot

theorem resetJumps_eq {t : TbId} {l : List Slot} (jump : JumpMemory) (jmpTarget : TargetMemory)
    {tb1 : Option JumpPtr} {fuel : Nat}
    (follows : Follows jumpRoots.toThreading jump tb1 l (some (.owner t)))
    (nodup : l.Nodup) (enough : l.length < fuel) :
    resetJumps fuel jump jmpTarget tb1 = some (clearNext l jump, unpatch l jmpTarget) := by
  induction l generalizing jump jmpTarget tb1 fuel with
  | nil =>
    obtain ⟨rest, rfl⟩ : ∃ rest, fuel = rest + 1 := ⟨fuel - 1, by simp at enough; omega⟩
    have atOwner : tb1 = some (.owner t) := follows
    rw [atOwner, resetJumps]
    congr 2
    · funext cell
      cases cell <;> simp [clearNext]
  | cons slot later ih =>
    obtain ⟨rest, rfl⟩ : ∃ rest, fuel = rest + 1 := ⟨fuel - 1, by simp at enough; omega⟩
    rw [nodup_cons] at nodup
    have atSlot : tb1 = some (.branch slot) := follows.1
    have laterFollows : Follows jumpRoots.toThreading
        (update jump (.jmpNext slot) none) (jump (.jmpNext slot)) later
        (some (.owner t)) := by
      apply follows.2.congr
      intro other member
      have different : other ≠ slot := fun equal => nodup.1 (equal ▸ member)
      exact update_of_ne (fun equal => different (JumpCell.jmpNext.inj equal)) _ _
    rw [atSlot, resetJumps, ih _ _ laterFollows nodup.2 (by
      simp only [length_cons] at enough
      omega)]
    congr 2
    · funext cell
      cases cell with
      | jmpFirst tb => simp [clearNext]
      | jmpNext other =>
        by_cases equal : other = slot
        · simp [clearNext, equal]
        · simp [clearNext, equal]
    · funext other
      by_cases equal : other = slot
      · simp [unpatch, tbResetJump, equal]
      · simp [unpatch, tbResetJump, equal]

variable {jump : JumpMemory} {jmpTarget : TargetMemory} {nbTbs fuel : Nat}
  {linked : TbId → Prop} {chain : TbId → List Slot} {tb : TbId}

/-- The chains after `tb` left the jump graph. -/
def chainWithout (tb : TbId) (chain : TbId → List Slot) : TbId → List Slot := fun t =>
  if t = tb then [] else ((chain t).erase (tb, 0)).erase (tb, 1)

/-- The slots of other blocks that were patched to `tb`. -/
def incoming (tb : TbId) (chain : TbId → List Slot) : List Slot :=
  ((chain tb).erase (tb, 0)).erase (tb, 1)

theorem mem_erase_slots {l : List Slot} (nodup : l.Nodup) (slot : Slot) :
    slot ∈ (l.erase (tb, 0)).erase (tb, 1) ↔ slot ∈ l ∧ slot.1 ≠ tb := by
  rw [(nodup.erase _).mem_erase_iff, nodup.mem_erase_iff]
  constructor
  · rintro ⟨notSecond, notFirst, member⟩
    refine ⟨member, fun same => ?_⟩
    obtain ⟨source, n⟩ := slot
    have cases : n = 0 ∨ n = 1 := by omega
    rcases cases with rfl | rfl
    · exact notFirst (by rw [← same])
    · exact notSecond (by rw [← same])
  · rintro ⟨member, other⟩
    exact ⟨fun equal => other (by rw [equal]), fun equal => other (by rw [equal]), member⟩

theorem mem_incoming (nodup : (chain tb).Nodup) (slot : Slot) :
    slot ∈ incoming tb chain ↔ slot ∈ chain tb ∧ slot.1 ≠ tb :=
  mem_erase_slots nodup slot

theorem mem_chainWithout (nodup : ∀ t, (chain t).Nodup) (t : TbId) (slot : Slot) :
    slot ∈ chainWithout tb chain t ↔ t ≠ tb ∧ slot ∈ chain t ∧ slot.1 ≠ tb := by
  by_cases isTb : t = tb
  · simp [chainWithout, isTb]
  · simp only [chainWithout, isTb, if_false, ne_eq, not_false_eq_true, true_and]
    exact mem_erase_slots (nodup t) slot

theorem tbUnchain_eq (graph : JumpGraph jump jmpTarget nbTbs linked chain)
    (isLinked : linked tb) (enough : 2 * nbTbs + 2 ≤ fuel) :
    ∃ jump', tbUnchain jump jmpTarget fuel tb =
        some (jump', unpatch (incoming tb chain) jmpTarget) ∧
      JumpGraph jump' (unpatch (incoming tb chain) jmpTarget) nbTbs linked
        (chainWithout tb chain) ∧
      (∀ n, jump' (.jmpNext (tb, n)) = none) ∧
      ∀ slot, slot.1 ≠ tb → slot ∉ incoming tb chain →
        (jump' (.jmpNext slot) = none ↔ jump (.jmpNext slot) = none) := by
  obtain ⟨jump₀, removed₀, graph₀, null₀, same₀⟩ := tbJmpRemove_eq (tb, 0) graph isLinked enough
  obtain ⟨jump₁, removed₁, graph₁, null₁, same₁⟩ := tbJmpRemove_eq (tb, 1) graph₀ isLinked enough
  have segment := graph₁.family.segment tb isLinked
  have nodup := graph₁.family.nodup tb
  have short := graph₁.chain_length_le tb
  have reset := resetJumps_eq jump₁ jmpTarget segment.follows nodup (by omega : _ < fuel)
  have null : ∀ n, jump₁ (.jmpNext (tb, n)) = none := by
    intro n
    have cases : n = 0 ∨ n = 1 := by omega
    rcases cases with rfl | rfl
    · exact (same₁ (tb, 0) (by simp)).mpr null₀
    · exact null₁
  have kept : ∀ t, t ≠ tb → ∀ slot ∈ ((chain t).erase (tb, 0)).erase (tb, 1),
      slot ∉ incoming tb chain := by
    intro t different slot member reset
    exact different (graph₁.family.home t tb slot member reset)
  have emptied : update (fun t => ((chain t).erase (tb, 0)).erase (tb, 1)) tb [] =
      chainWithout tb chain := by
    funext t
    by_cases equal : t = tb
    · simp [chainWithout, equal]
    · simp [chainWithout, equal]
  have cleared := graph₁.family.clear isLinked
  rw [emptied] at cleared
  have family : Family jumpRoots
      (update (clearNext (incoming tb chain) jump₁) (.jmpFirst tb) (some (.owner tb)))
      linked (chainWithout tb chain) := by
    apply cleared.congr
    intro t active cell member
    cases cell with
    | jmpFirst u =>
      by_cases equal : u = tb
      · subst equal
        rw [update_self]
        exact (update_self (JumpCell.jmpFirst u) (some (.owner u)) jump₁).symm
      · rw [update_of_ne (by simp [equal])]
        exact (update_of_ne (by simp [jumpRoots, equal]) _ jump₁).symm
    | jmpNext slot =>
      rw [show JumpCell.jmpNext slot = jumpRoots.field slot from rfl,
        Family.field_mem_cells_iff] at member
      by_cases isTb : t = tb
      · simp [chainWithout, isTb] at member
      · simp only [chainWithout, isTb, if_false] at member
        have outside := kept t isTb slot member
        rw [update_of_ne (by simp), clearNext, if_neg outside]
        exact (update_of_ne (by simp [jumpRoots]) _ jump₁).symm
  have notNull : ∀ slot, clearNext (incoming tb chain) jump₁ (.jmpNext slot) ≠ none →
      slot ∉ incoming tb chain ∧ jump₁ (.jmpNext slot) ≠ none := by
    intro slot nonNull
    by_cases reset : slot ∈ incoming tb chain
    · simp [clearNext, reset] at nonNull
    · rw [clearNext, if_neg reset] at nonNull
      exact ⟨reset, nonNull⟩
  refine ⟨_, ?_, ⟨family, ?_, ?_, ?_, ?_⟩, ?_, ?_⟩
  · rw [tbUnchain, removed₀, bind_eq_bind, bind_some, removed₁,
      bind_eq_bind, bind_some]
    rw [show jumpRoots.head tb = JumpCell.jmpFirst tb from rfl] at reset
    rw [reset]
    rfl
  · intro t slot member
    by_cases isTb : t = tb
    · simp [chainWithout, isTb] at member
    · simp only [chainWithout, isTb, if_false] at member
      rw [unpatch, if_neg (kept t isTb slot member)]
      exact graph₁.target t slot member
  · intro t slot member
    by_cases isTb : t = tb
    · simp [chainWithout, isTb] at member
    · simp only [chainWithout, isTb, if_false] at member
      exact graph₁.source t slot member
  · intro slot sourceLinked nonNull
    obtain ⟨outside, before⟩ := notNull slot nonNull
    obtain ⟨u, member⟩ := graph₁.complete slot sourceLinked before
    refine ⟨u, ?_⟩
    have isOther : u ≠ tb := fun equal => outside (equal ▸ member)
    simpa only [chainWithout, isOther, if_false] using member
  · apply graph₁.linkedIff_of_family family
    intro t unlinked
    have different : t ≠ tb := fun equal => unlinked (equal ▸ isLinked)
    rw [update_of_ne (by simp [different]), clearNext]
  · intro n
    rw [update_of_ne (by simp), clearNext, null n, ite_self]
  · intro slot other outside
    rw [update_of_ne (by simp), clearNext, if_neg outside]
    exact (same₁ slot (fun equal => other (by rw [equal]))).trans
      (same₀ slot (fun equal => other (by rw [equal])))

end Reset

section AddJump

variable {s : State} {linked : TbId → Prop} {chain : TbId → List Slot} {tb tbNext : TbId}
  {n : Fin 2}

theorem tbAddJump_graph (graph : JumpGraph s.jump s.jmpTarget s.nbTbs linked chain)
    (sourceLinked : linked tb) (targetLinked : linked tbNext) :
    JumpGraph (tbAddJump s tb n tbNext).jump (tbAddJump s tb n tbNext).jmpTarget s.nbTbs linked
      (if s.jump (.jmpNext (tb, n)) = none then
        update chain tbNext ((tb, n) :: chain tbNext)
      else chain) := by
  by_cases unchained : s.jump (.jmpNext (tb, n)) = none
  · have fresh : ∀ t, (tb, n) ∉ chain t := fun t member =>
      graph.jmpNext_ne_none member unchained
    have family := graph.family.insert tbNext [] _ targetLinked (nil_append _).symm fresh
    simp only [tbAddJump, unchained, if_true]
    constructor
    · exact family
    · intro t slot member
      by_cases isTarget : t = tbNext
      · subst isTarget
        rw [update_self] at member
        rcases mem_cons.mp member with rfl | before
        · rw [update_self]
        · have different : slot ≠ (tb, n) := fun equal => fresh t (equal ▸ before)
          rw [update_of_ne different]
          exact graph.target t slot before
      · rw [update_of_ne isTarget] at member
        have different : slot ≠ (tb, n) := fun equal => fresh t (equal ▸ member)
        rw [update_of_ne different]
        exact graph.target t slot member
    · intro t slot member
      by_cases isTarget : t = tbNext
      · subst isTarget
        rw [update_self] at member
        rcases mem_cons.mp member with rfl | before
        · exact sourceLinked
        · exact graph.source t slot before
      · rw [update_of_ne isTarget] at member
        exact graph.source t slot member
    · intro slot slotLinked notNull
      by_cases isNew : slot = (tb, n)
      · exact ⟨tbNext, by rw [isNew, update_self]; exact mem_cons_self⟩
      · rw [update_of_ne (by simp), update_of_ne (by simpa using isNew)]
          at notNull
        obtain ⟨u, member⟩ := graph.complete slot slotLinked notNull
        refine ⟨u, ?_⟩
        by_cases isTarget : u = tbNext
        · subst isTarget
          rw [update_self]
          exact mem_cons_of_mem _ member
        · rwa [update_of_ne isTarget]
    · apply graph.linkedIff_of_family family
      intro t unlinked
      have different : t ≠ tbNext := fun equal => unlinked (equal ▸ targetLinked)
      rw [update_of_ne (by simpa [jumpRoots] using different)]
      exact update_of_ne (by simp [jumpRoots]) _ _
  · simpa only [tbAddJump, unchained, if_false] using graph

theorem tbAddJump_same (s : State) (tb : TbId) (n : Fin 2) (tbNext : TbId) : ∃ jump jmpTarget,
    tbAddJump s tb n tbNext = { s with jump := jump, jmpTarget := jmpTarget } := by
  unfold tbAddJump
  split
  · exact ⟨_, _, rfl⟩
  · exact ⟨s.jump, s.jmpTarget, rfl⟩

theorem tbAddJump_other (tbNext : TbId) {slot : Slot} (different : slot ≠ (tb, n)) :
    (tbAddJump s tb n tbNext).jump (.jmpNext slot) = s.jump (.jmpNext slot) ∧
      (tbAddJump s tb n tbNext).jmpTarget slot = s.jmpTarget slot := by
  unfold tbAddJump
  split
  · simp [different]
  · exact ⟨rfl, rfl⟩

end AddJump

end Tlib.TranslationCache
