import Tlib.TranslationCache.Runs

/-!
Contract: the jump graph in every reachable state.

Owns: what the circular list of a block visits, and that an invalidation ends on it.
-/

namespace Tlib.TranslationCache

open Tlib.Library.Linked List

/-- The circular list of `t` visits `l`, each entry once, and ends at `t`. -/
def State.ChainOf (s : State) (t : TbId) (l : List Slot) : Prop :=
  Segment jumpRoots.toThreading s.jump (.jmpFirst t) l (some (.owner t)) ∧ l.Nodup

/-- The branch of a slot is patched to the code of `t`. -/
def State.PatchedTo (s : State) (slot : Slot) (t : TbId) : Prop :=
  (s.tbs slot.1).hasBranch slot.2 = true ∧ s.jmpTarget slot = .code t

/-- The lists visit the patched slots of valid blocks and nothing else. -/
structure ChainsOfLive (s : State) : Prop where
  visits : ∀ t, s.Live t → ∃ l, s.ChainOf t l ∧
    ∀ slot, slot ∈ l ↔ s.Live slot.1 ∧ s.PatchedTo slot t
  nonNull : ∀ tb n, s.Live tb → (s.tbs tb).hasBranch n = true →
    (s.jump (.jmpNext (tb, n)) ≠ none ↔ ∃ t, s.PatchedTo (tb, n) t)

/-- The lists visit the patched slots with a non-null `jmp_next`. -/
structure ChainsOfLinked (s : State) : Prop where
  visits : ∀ t, s.Linked t → ∃ l, s.ChainOf t l ∧
    ∀ slot, slot ∈ l ↔ s.Linked slot.1 ∧ s.jump (.jmpNext slot) ≠ none ∧ s.jmpTarget slot = .code t
  nonNull : ∀ tb n, s.Live tb → (s.tbs tb).hasBranch n = true →
    (s.jump (.jmpNext (tb, n)) ≠ none ↔ ∃ t, s.PatchedTo (tb, n) t)

/-- What `tb_phys_invalidate` of `t` does to the jump graph. -/
structure Unchained (s : State) (t : TbId) (s' : State) : Prop where
  noTarget : ∀ slot, s'.Live slot.1 → ¬ s'.PatchedTo slot t
  ownExit : ∀ slot, s'.Live slot.1 → s.PatchedTo slot t → s'.jmpTarget slot = .ownExit
  otherTargets : ∀ slot, s.jmpTarget slot ≠ .code t → s'.jmpTarget slot = s.jmpTarget slot
  ownList : s'.ChainOf t []
  ownSlots : ∀ n, s'.jump (.jmpNext (t, n)) = none
  otherLists : ∀ u, s.Linked u → u ≠ t → ∀ l, s.ChainOf u l →
    s'.ChainOf u (l.filter fun slot => slot.1 ≠ t)

section Chains

variable {T : Target} {s : State} {σ : Shape}

theorem Represents.chainOf (rep : Represents T s σ) {t : TbId} (isLinked : s.Linked t) :
    s.ChainOf t (σ.chain t) :=
  ⟨rep.graph.family.segment t isLinked, rep.graph.family.nodup t⟩

theorem Represents.chainOf_unique (rep : Represents T s σ) {t : TbId} (isLinked : s.Linked t)
    {l : List Slot} (chain : s.ChainOf t l) : l = σ.chain t :=
  Segment.unique (fun a => jumpRoots.ptr_ne_stop a t) chain.1
    (rep.graph.family.segment t isLinked)

theorem Represents.nonNull_iff (rep : Represents T s σ) {tb : TbId} {n : Fin 2}
    (live : s.Live tb) (branch : (s.tbs tb).hasBranch n = true) :
    s.jump (.jmpNext (tb, n)) ≠ none ↔ ∃ t, s.PatchedTo (tb, n) t := by
  have alive := (rep.live_iff tb).mp live
  constructor
  · intro notNull
    obtain ⟨t, onChain⟩ := rep.graph.complete (tb, n) (rep.liveLinked tb alive) notNull
    exact ⟨t, branch, rep.graph.target t _ onChain⟩
  · rintro ⟨t, -, patched⟩ isNull
    have exits := rep.unpatched tb n alive branch isNull
    rw [patched] at exits
    exact JumpTarget.noConfusion exits

theorem chainsOfLinked (rep : Represents T s σ) : ChainsOfLinked s where
  visits t isLinked := ⟨σ.chain t, rep.chainOf isLinked, rep.graph.mem_chain_iff t⟩
  nonNull _ _ live branch := rep.nonNull_iff live branch

theorem chainWithout_eq_filter (nodup : ∀ t, (σ.chain t).Nodup) {t u : TbId} (other : u ≠ t) :
    chainWithout t σ.chain u = (σ.chain u).filter fun slot => slot.1 ≠ t := by
  have both : ∀ m : Fin 2, m = 0 ∨ m = 1 := by omega
  simp only [chainWithout, other, if_false]
  rw [((nodup u).erase _).erase_eq_filter, (nodup u).erase_eq_filter, filter_filter]
  apply filter_congr
  rintro ⟨source, n⟩ _
  rcases both n with rfl | rfl <;> by_cases same : source = t <;> simp [same]

theorem unchained_of_hashed (rep : Represents T s σ) {t : TbId} (hashed : s.Hashed T t) :
    ∃ s', tbPhysInvalidate T s t none = some s' ∧ Unchained s t s' := by
  have member := (rep.mem_bucket_iff t).mp ((rep.hashed_iff t).mp hashed)
  obtain ⟨s', done, rep', effect⟩ := tbPhysInvalidate_of_mem rep member
  have isLinked : s'.Linked t := by
    rw [effect.linked]
    exact rep.liveLinked t (rep.bucketLive _ t member)
  have emptyChain : (σ.without t).chain t = [] := if_pos rfl
  have ownSlots : ∀ n, s'.jump (.jmpNext (t, n)) = none := by
    intro n
    by_contra notNull
    obtain ⟨u, onChain⟩ := rep'.graph.complete (t, n) isLinked notNull
    exact ((mem_chainWithout rep.graph.family.nodup u (t, n)).mp onChain).2.2 rfl
  have reset : ∀ slot, s'.Live slot.1 → s.PatchedTo slot t → s'.jmpTarget slot = .ownExit := by
    rintro ⟨source, n⟩ live patched
    obtain ⟨alive, other⟩ := (σ.live_without t source).mp ((rep'.live_iff source).mp live)
    have stateLive := (rep.live_iff source).mpr alive
    have notNull := (rep.nonNull_iff stateLive patched.1).mpr ⟨t, patched⟩
    have onChain := (rep.graph.mem_chain_iff t (source, n)).mpr
      ⟨rep.liveLinked source alive, notNull, patched.2⟩
    rw [effect.target, unpatch,
      if_pos ((mem_incoming (rep.graph.family.nodup t) _).mpr ⟨onChain, other⟩)]
  refine ⟨s', done, ?_, reset, ?_, ?_, ownSlots, ?_⟩
  · rintro slot live ⟨branch, patched⟩
    rw [effect.target, unpatch] at patched
    by_cases inIncoming : slot ∈ incoming t σ.chain
    · rw [if_pos inIncoming] at patched
      exact JumpTarget.noConfusion patched
    · rw [if_neg inIncoming] at patched
      rw [effect.same.tbs] at branch
      have exits := reset slot live ⟨branch, patched⟩
      rw [effect.target, unpatch, if_neg inIncoming, patched] at exits
      exact JumpTarget.noConfusion exits
  · intro slot notPatched
    rw [effect.target, unpatch, if_neg]
    intro inIncoming
    exact notPatched (rep.graph.target t slot
      ((mem_incoming (rep.graph.family.nodup t) slot).mp inIncoming).1)
  · have chain := rep'.chainOf isLinked
    rwa [emptyChain] at chain
  · intro u uLinked other l chain
    rw [rep.chainOf_unique uLinked chain, ← chainWithout_eq_filter rep.graph.family.nodup other]
    apply rep'.chainOf
    rwa [effect.linked]

/-- `tb_add_jump` is given an exit of a valid block. -/
def LiveSource (s : State) : Event → Prop
  | .addJump tb n _ => s.Live tb ∧ (s.tbs tb).hasBranch n = true
  | _ => True

def LiveChains (s : State) (σ : Shape) : Prop :=
  ∀ t, ∀ slot ∈ σ.chain t, σ.Live slot.1 ∧ (s.tbs slot.1).hasBranch slot.2 = true

theorem liveChains_of_generated {pages : PageMap} {pc csBase flags : Nat} {gen : Generation}
    {s' : State} {tb : TbId} {σ' : Shape} (chains : LiveChains s σ)
    (made : Generated T s σ pages pc csBase flags gen s' tb σ') : LiveChains s' σ' := by
  intro t slot onChain
  obtain ⟨room, before, kept⟩ := made.chain t slot onChain
  obtain ⟨live, branch⟩ := chains t slot before
  have alive := (made.live slot.1).mpr (Or.inr ⟨room, live, kept⟩)
  have old : slot.1 ≠ tb := fun equal => made.isNew room (equal ▸ live)
  rw [made.others slot.1 alive old]
  exact ⟨alive, branch⟩

theorem Step.liveChains {s' : State} {event : Event} (rep : Represents T s σ)
    (chains : LiveChains s σ) (source : LiveSource s event) (step : Step T s event s') :
    ∃ σ', Represents T s' σ' ∧ LiveChains s' σ' := by
  cases step with
  | findSlow req done =>
    by_cases hit : Hit T s σ req
    · obtain ⟨s₁, tb, σ₁, done₁, result⟩ := tbFindSlow_hit rep hit
      rw [done] at done₁
      cases done₁
      refine ⟨σ₁, result.rep, fun t slot onChain => ?_⟩
      rw [result.chain] at onChain
      rw [Shape.Live, result.pageList, result.same.tbs]
      exact chains t slot onChain
    · obtain ⟨s₂, tb, σ₂, s₁, σ₁, done₁, result⟩ := tbFindSlow_miss rep hit
      rw [done] at done₁
      cases done₁
      refine ⟨σ₂, result.rep, fun t slot onChain => ?_⟩
      rw [result.chain] at onChain
      rw [Shape.Live, result.pageList, result.tbs]
      exact liveChains_of_generated (s := s.clearFlag) chains result.generated t slot onChain
  | link pages pc csBase flags gen done =>
    obtain ⟨s₁, tb, σ₁, done₁, made⟩ := tbGenCode_eq rep pages pc csBase flags gen
    rw [done] at done₁
    cases done₁
    exact ⟨σ₁, made.rep, liveChains_of_generated chains made⟩
  | insert pages pc csBase flags gen done =>
    obtain ⟨s₂, tb, σ₂, s₁, σ₁, done₁, made, rep₂, pageList, chain, tbs, -⟩ :=
      insert_represents rep pages pc csBase flags gen
    rw [done] at done₁
    cases done₁
    refine ⟨σ₂, rep₂, fun t slot onChain => ?_⟩
    rw [chain] at onChain
    rw [Shape.Live, pageList, tbs]
    exact liveChains_of_generated chains made t slot onChain
  | addJump tb n tbNext _ target =>
    refine ⟨_, addJump_represents rep ‹_› target, fun t slot onChain => ?_⟩
    obtain ⟨jump, jmpTarget, same⟩ := tbAddJump_same s tb n tbNext
    rw [same]
    by_cases unchained : s.jump (.jmpNext (tb, n)) = none
    · simp only [unchained, if_true] at onChain
      by_cases isTarget : t = tbNext
      · rw [isTarget, Function.update_self, mem_cons] at onChain
        rcases onChain with isNew | before
        · rw [isNew]
          exact ⟨(rep.live_iff tb).mp source.1, source.2⟩
        · exact chains tbNext slot before
      · rw [Function.update_of_ne isTarget] at onChain
        exact chains t slot onChain
    · simp only [unchained, if_false] at onChain
      exact chains t slot onChain
  | invalidate tb done =>
    obtain ⟨s₁, σ₁, done₁, effect⟩ := tbPhysInvalidate_after rep tb
    rw [done] at done₁
    cases done₁
    refine ⟨σ₁, effect.rep, fun t slot onChain => ?_⟩
    obtain ⟨before, kept⟩ := effect.chain t slot onChain
    obtain ⟨live, branch⟩ := chains t slot before
    rw [effect.same.tbs]
    exact ⟨(effect.live slot.1).mpr ⟨live, kept⟩, branch⟩
  | flush =>
    exact ⟨_, flush_represents rep, fun t slot onChain => absurd onChain not_mem_nil⟩
  | markDirty tb =>
    refine ⟨σ, markDirty_represents rep tb, fun t slot onChain => ?_⟩
    obtain ⟨live, branch⟩ := chains t slot onChain
    refine ⟨live, ?_⟩
    by_cases isTb : slot.1 = tb
    · rw [isTb, s.setTb_self]
      rw [isTb] at branch
      exact branch
    · rwa [s.setTb_of_ne _ isTb]
  | forget tbJmpCache _ =>
    exact ⟨σ, ⟨rep.buckets, rep.bucketHome, rep.bucketLive, rep.pages, rep.graph,
      rep.liveLinked, rep.unpatched⟩, chains⟩

theorem chainsOfLive (rep : Represents T s σ) (chains : LiveChains s σ) : ChainsOfLive s where
  visits t live := by
    refine ⟨σ.chain t, rep.chainOf (rep.liveLinked t ((rep.live_iff t).mp live)), fun slot => ?_⟩
    constructor
    · intro onChain
      obtain ⟨alive, branch⟩ := chains t slot onChain
      exact ⟨(rep.live_iff slot.1).mpr alive, branch, rep.graph.target t slot onChain⟩
    · rintro ⟨alive, patched⟩
      have notNull := (rep.nonNull_iff alive patched.1).mpr ⟨t, patched⟩
      exact (rep.graph.mem_chain_iff t slot).mpr
        ⟨rep.liveLinked slot.1 ((rep.live_iff slot.1).mp alive), notNull, patched.2⟩
  nonNull _ _ live branch := rep.nonNull_iff live branch

/-- In every reachable state the circular lists visit exactly the patched slots
with a non-null `jmp_next`, and `tb_phys_invalidate` ends and unchains the
block; when only exits of valid blocks are chained, the lists visit exactly the
patched slots of valid blocks. -/
theorem jumpChains_of_reachable (reachable : Reachable T s) : ChainsOfLinked s ∧
    (∀ t, s.Hashed T t → ∃ s', tbPhysInvalidate T s t none = some s' ∧ Unchained s t s') ∧
    (ReachableBy T (fun s event => LiveSource s event) s → ChainsOfLive s) := by
  obtain ⟨σ, rep⟩ := reachable.represents
  refine ⟨chainsOfLinked rep, fun t hashed => unchained_of_hashed rep hashed, fun live => ?_⟩
  obtain ⟨σ', rep', chains⟩ := live.invariant (P := LiveChains)
    (fun _ _ _ _ onChain => absurd onChain not_mem_nil)
    fun _ _ _ _ rep chains source step => step.liveChains rep chains source
  exact chainsOfLive rep' chains

end Chains

theorem exists_two_blocks : ∃ s₁ s tb₁ tb₂,
    tbFindSlow sampleTarget (emptyCache sampleBuffer) (sampleRequest 0x1000 false) =
        some (s₁, tb₁) ∧
      tbFindSlow sampleTarget s₁ (sampleRequest 0x2000 false) = some (s, tb₂) ∧
      (s.tbs 0).hasBranch 0 = true ∧ s.page (.firstTb 1) = some (0, 0) ∧
      s.hash (.bucket ((s.tbs 0).hashIndex sampleTarget)) = some 0 ∧ s.Linked 0 ∧ s.Linked 1 ∧
      (tbAddJump s 0 0 1).hash (.bucket (((tbAddJump s 0 0 1).tbs 1).hashIndex sampleTarget)) =
        some 1 ∧
      ∃ s', tbPhysInvalidate sampleTarget s 0 none = some s' ∧ s'.Linked 0 ∧ s'.Linked 1 ∧
        (tbAddJump s' 0 0 1).page (.firstTb 2) = some (1, 0) ∧
        (tbAddJump s' 0 0 1).jump (.jmpFirst 1) = some (.branch (0, 0)) :=
  ⟨_, _, _, _, rfl, rfl, by decide, by decide, by decide, by decide, by decide, by decide,
    _, rfl, by decide, by decide, by decide, by decide⟩

/-- Two blocks that are chained, of which the second is invalidated. -/
theorem jumpChains_of_two_blocks : ∃ s, s.Hashed sampleTarget 1 ∧
    ChainsOfLinked s ∧ ChainsOfLive s ∧
    ∃ s', tbPhysInvalidate sampleTarget s 1 none = some s' ∧ Unchained s 1 s' := by
  obtain ⟨s₁, s, tb₁, tb₂, first, second, branch, onPage, -, linked₀, linked₁, head, -⟩ :=
    exists_two_blocks
  have live : s.Live 0 := ⟨1, 0, Reaches.here onPage⟩
  have start := emptyCache_reachable sampleTarget (fun s event => LiveSource s event) sampleBuffer
  have free : ∀ s req, LiveSource s (.findSlow req) := fun _ _ => trivial
  have liveRun := ((start.step (free _ _) (.findSlow _ first)).step (free _ _)
    (.findSlow _ second)).step (show LiveSource s (.addJump 0 0 1) from ⟨live, branch⟩)
    (.addJump 0 0 1 linked₀ linked₁)
  have anyStart := emptyCache_reachable sampleTarget (fun _ _ => True) sampleBuffer
  have run := ((anyStart.step trivial (.findSlow _ first)).step trivial
    (.findSlow _ second)).step trivial (.addJump 0 0 1 linked₀ linked₁)
  have hashed : (tbAddJump s 0 0 1).Hashed sampleTarget 1 := Reaches.here head
  obtain ⟨ofLinked, invalidate, ofLive⟩ := jumpChains_of_reachable run
  exact ⟨tbAddJump s 0 0 1, hashed, ofLinked, ofLive liveRun, invalidate 1 hashed⟩

/-- Block 0 is invalidated and then chained to block 1: the list of block 1
visits a branch of a block that is not valid. -/
theorem jumpChains_of_invalid_source : ∃ s, Reachable sampleTarget s ∧ ¬ ChainsOfLive s := by
  obtain ⟨s₁, s, tb₁, tb₂, first, second, -, -, inBucket, -, -, -, s', invalidated, linked₀,
    linked₁, onPage, chained⟩ := exists_two_blocks
  have start := emptyCache_reachable sampleTarget (fun _ _ => True) sampleBuffer
  have twoBlocks := (start.step trivial (.findSlow _ first)).step trivial (.findSlow _ second)
  obtain ⟨σ, rep⟩ := twoBlocks.represents
  obtain ⟨s'', invalidated', gone⟩ :=
    tbPhysInvalidate_gone rep (show s.Hashed sampleTarget 0 from Reaches.here inBucket)
  rw [invalidated] at invalidated'
  cases invalidated'
  have run := (twoBlocks.step trivial (.invalidate 0 invalidated)).step trivial
    (.addJump 0 0 1 linked₀ linked₁)
  refine ⟨tbAddJump s' 0 0 1, run, fun chains => ?_⟩
  obtain ⟨l, chain, visits⟩ := chains.visits 1 ⟨2, 0, Reaches.here onPage⟩
  have onChain : (0, 0) ∈ l := by
    cases l with
    | nil =>
      have ends := chain.1
      rw [segment_nil, chained] at ends
      exact JumpPtr.noConfusion (Option.some.inj ends)
    | cons slot rest =>
      have starts := chain.1.1
      rw [chained] at starts
      have isSlot : (0, 0) = slot := JumpPtr.branch.inj (Option.some.inj starts)
      rw [isSlot]
      exact mem_cons_self
  have alive := ((visits (0, 0)).mp onChain).1
  obtain ⟨jump, jmpTarget, same⟩ := tbAddJump_same s' 0 0 1
  rw [same] at alive
  exact gone.dead alive

end Tlib.TranslationCache
