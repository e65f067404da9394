import Tlib.TranslationCache.HashTable
import Tlib.TranslationCache.JumpChains
import Tlib.TranslationCache.PageLists

/-!
Contract: what the pointer memories of a cache represent, and `tb_phys_invalidate`.

Owns: `Shape` (buckets, page lists and chains as lists), and which of its lists an invalidation
changes.
-/

namespace Tlib.TranslationCache

open Tlib.Library.Linked Option

/-- The lists a cache stands for. -/
structure Shape where
  bucket : Nat → List TbId
  pageList : Nat → List Slot
  chain : TbId → List Slot

namespace Shape

/-- A live block was linked, and not removed by a completed invalidation since. -/
def Live (σ : Shape) (tb : TbId) : Prop := ∃ p n, (tb, n) ∈ σ.pageList p

/-- The shape after `tb` was invalidated. -/
def without (σ : Shape) (tb : TbId) : Shape where
  bucket h := (σ.bucket h).erase tb
  pageList p := withoutTb tb (σ.pageList p)
  chain := chainWithout tb σ.chain

theorem live_without (σ : Shape) (tb u : TbId) : (σ.without tb).Live u ↔ σ.Live u ∧ u ≠ tb := by
  simp only [Live, without, mem_withoutTb]
  constructor
  · rintro ⟨p, n, member, different⟩
    exact ⟨⟨p, n, member⟩, different⟩
  · rintro ⟨⟨p, n, member⟩, different⟩
    exact ⟨p, n, member, different⟩

end Shape

structure Represents (T : Target) (s : State) (σ : Shape) : Prop where
  buckets : Buckets s.hash σ.bucket
  bucketHome : ∀ h, ∀ t ∈ σ.bucket h, (s.tbs t).hashIndex T = h
  bucketLive : ∀ h, ∀ t ∈ σ.bucket h, σ.Live t
  pages : PageTable T s.tbs s.page s.leafAllocated σ.pageList
  graph : JumpGraph s.jump s.jmpTarget s.nbTbs s.Linked σ.chain
  liveLinked : ∀ t, σ.Live t → s.Linked t
  unpatched : ∀ t n, σ.Live t → (s.tbs t).hasBranch n = true →
    s.jump (.jmpNext (t, n)) = none → s.jmpTarget (t, n) = .ownExit

/-- What no list operation touches. -/
structure SameBlocks (s s' : State) : Prop where
  tbs : s'.tbs = s.tbs
  nbTbs : s'.nbTbs = s.nbTbs
  codeBuffer : s'.codeBuffer = s.codeBuffer
  codeGenPtr : s'.codeGenPtr = s.codeGenPtr
  leafAllocated : s'.leafAllocated = s.leafAllocated

namespace SameBlocks

theorem refl (s : State) : SameBlocks s s := ⟨rfl, rfl, rfl, rfl, rfl⟩

theorem trans {s₁ s₂ s₃ : State} (first : SameBlocks s₁ s₂) (second : SameBlocks s₂ s₃) :
    SameBlocks s₁ s₃ :=
  ⟨second.tbs.trans first.tbs, second.nbTbs.trans first.nbTbs,
    second.codeBuffer.trans first.codeBuffer, second.codeGenPtr.trans first.codeGenPtr,
    second.leafAllocated.trans first.leafAllocated⟩

theorem full {s s' : State} (same : SameBlocks s s') : s'.full = s.full := by
  rw [State.full, State.full, same.codeBuffer, same.nbTbs, same.codeGenPtr]

end SameBlocks

namespace Represents

variable {T : Target} {s : State} {σ : Shape}

theorem lt_of_live (rep : Represents T s σ) {t : TbId} (live : σ.Live t) : t < s.nbTbs :=
  (rep.liveLinked t live).1

theorem bucket_length_le (rep : Represents T s σ) (h : Nat) : (σ.bucket h).length ≤ s.nbTbs :=
  length_le_of_nodup_lt (rep.buckets.nodup h)
    fun t member => rep.lt_of_live (rep.bucketLive h t member)

theorem pageList_length_le (rep : Represents T s σ) (p : Nat) :
    (σ.pageList p).length ≤ 2 * s.nbTbs :=
  slots_length_le (rep.pages.family.nodup p)
    fun entry member => rep.lt_of_live ⟨p, entry.2, member⟩

theorem mem_bucket_iff (rep : Represents T s σ) (t : TbId) :
    (∃ h, t ∈ σ.bucket h) ↔ t ∈ σ.bucket ((s.tbs t).hashIndex T) := by
  constructor
  · rintro ⟨h, member⟩
    rwa [rep.bucketHome h t member]
  · exact fun member => ⟨_, member⟩

end Represents

theorem JumpGraph.linked_eq {jump : JumpMemory} {jmpTarget : TargetMemory} {nbTbs : Nat}
    {linked : TbId → Prop} {chain : TbId → List Slot}
    (graph : JumpGraph jump jmpTarget nbTbs linked chain) (s' : State) (sameJump : s'.jump = jump)
    (sameNb : s'.nbTbs = nbTbs) : s'.Linked = linked := by
  funext t
  apply propext
  rw [State.Linked, sameJump, sameNb]
  exact (graph.linkedIff t).symm

def tbJmpCacheRemove (T : Target) (s : State) (tb : TbId) : State :=
  let h := tbJmpCacheHashFunc T (s.tbs tb).pc
  if s.tbJmpCache h = some tb then { s with tbJmpCache := Function.update s.tbJmpCache h none }
  else s

/-- `tb_phys_invalidate`; `none` when a loop does not end or a null pointer is followed. -/
def tbPhysInvalidate (T : Target) (s : State) (tb : TbId) (pageAddr : Option Address) :
    Option State := do
  let (hash, found) ← tbRemove s.hash (s.nbTbs + 1) (.bucket ((s.tbs tb).hashIndex T)) tb
  if found then
    let s ← removeFromPages T { s with hash := hash } tb pageAddr
    let s := tbJmpCacheRemove T { s with tbInvalidatedFlag := true } tb
    let (jump, jmpTarget) ← tbUnchain s.jump s.jmpTarget (2 * s.nbTbs + 2) tb
    some { s with jump := jump, jmpTarget := jmpTarget }
  else
    -- the block has already been invalidated
    some { s with hash := hash }

section Invalidate

variable {T : Target} {s : State} {σ : Shape} {tb : TbId}

theorem tbJmpCacheRemove_same (T : Target) (s : State) (tb : TbId) :
    ∃ tbJmpCache, tbJmpCacheRemove T s tb = { s with tbJmpCache := tbJmpCache } ∧
      (∀ h u, tbJmpCache h = some u → s.tbJmpCache h = some u) ∧
      tbJmpCache (tbJmpCacheHashFunc T (s.tbs tb).pc) ≠ some tb := by
  by_cases cached : s.tbJmpCache (tbJmpCacheHashFunc T (s.tbs tb).pc) = some tb
  · refine ⟨_, by rw [tbJmpCacheRemove, if_pos cached], ?_, by simp⟩
    intro h u entry
    by_cases isSlot : h = tbJmpCacheHashFunc T (s.tbs tb).pc
    · rw [isSlot, Function.update_self] at entry
      exact absurd entry (by simp)
    · rwa [Function.update_of_ne isSlot] at entry
  · exact ⟨s.tbJmpCache, by rw [tbJmpCacheRemove, if_neg cached], fun _ _ entry => entry, cached⟩

theorem tbPhysInvalidate_of_absent (rep : Represents T s σ)
    (absent : tb ∉ σ.bucket ((s.tbs tb).hashIndex T)) (pageAddr : Option Address) :
    tbPhysInvalidate T s tb pageAddr = some s := by
  have removed := tbRemove_of_notMem rep.buckets absent
    (Nat.lt_succ_of_le (rep.bucket_length_le ((s.tbs tb).hashIndex T)))
  rw [tbPhysInvalidate, removed]
  rfl

structure Invalidated (T : Target) (s : State) (σ : Shape) (tb : TbId) (s' : State) : Prop where
  same : SameBlocks s s'
  flag : s'.tbInvalidatedFlag = true
  target : s'.jmpTarget = unpatch (incoming tb σ.chain) s.jmpTarget
  jmpCache : ∀ h u, s'.tbJmpCache h = some u → s.tbJmpCache h = some u
  uncached : s'.tbJmpCache (tbJmpCacheHashFunc T (s.tbs tb).pc) ≠ some tb
  hashNext : ∀ u, (∀ h, u ∉ σ.bucket h) → s'.hash (.physHashNext u) = s.hash (.physHashNext u)
  linked : s'.Linked = s.Linked

theorem tbPhysInvalidate_of_mem (rep : Represents T s σ)
    (member : tb ∈ σ.bucket ((s.tbs tb).hashIndex T)) :
    ∃ s', tbPhysInvalidate T s tb none = some s' ∧ Represents T s' (σ.without tb) ∧
      Invalidated T s σ tb s' := by
  have live := rep.bucketLive _ tb member
  have isLinked := rep.liveLinked tb live
  obtain ⟨hash, removedHash, buckets, hashNext⟩ :=
    tbRemove_of_mem rep.buckets member
      (Nat.lt_succ_of_le (rep.bucket_length_le ((s.tbs tb).hashIndex T)))
  obtain ⟨s₁, removedPages, samePages, pages⟩ :=
    removeFromPages_eq (s := { s with hash := hash }) rep.pages live rep.pageList_length_le
  obtain ⟨jump, unchained, graph, null, others⟩ :=
    tbUnchain_eq rep.graph isLinked (le_refl (2 * s.nbTbs + 2))
  obtain ⟨tbJmpCache, removedCache, cacheLe, uncached⟩ :=
    tbJmpCacheRemove_same T { s₁ with tbInvalidatedFlag := true } tb
  have erased : Function.update σ.bucket ((s.tbs tb).hashIndex T)
      ((σ.bucket ((s.tbs tb).hashIndex T)).erase tb) = (σ.without tb).bucket := by
    funext h
    by_cases isHome : h = (s.tbs tb).hashIndex T
    · rw [isHome, Function.update_self]
      rfl
    · rw [Function.update_of_ne isHome]
      refine (List.erase_of_not_mem fun inBucket => isHome ?_).symm
      exact (rep.bucketHome h tb inBucket).symm
  rw [erased] at buckets
  refine ⟨{ s₁ with
    tbInvalidatedFlag := true
    tbJmpCache := tbJmpCache
    jump := jump
    jmpTarget := unpatch (incoming tb σ.chain) s.jmpTarget }, ?_, ?_, ?_⟩
  · simp only [tbPhysInvalidate, removedHash, bind_eq_bind, bind_some, if_true,
      removedPages, removedCache]
    simp [samePages.jump, samePages.jmpTarget, samePages.nbTbs, unchained]
  · have linkedSame := graph.linked_eq { s₁ with
      tbInvalidatedFlag := true
      tbJmpCache := tbJmpCache
      jump := jump
      jmpTarget := unpatch (incoming tb σ.chain) s.jmpTarget } rfl samePages.nbTbs
    constructor
    · rw [samePages.hash]
      exact buckets
    · intro h t inBucket
      rw [samePages.tbs]
      exact rep.bucketHome h t (List.mem_of_mem_erase inBucket)
    · intro h t inBucket
      have before := List.mem_of_mem_erase inBucket
      rw [Shape.live_without]
      refine ⟨rep.bucketLive h t before, fun isTb => ?_⟩
      subst isTb
      exact (List.Nodup.not_mem_erase (rep.buckets.nodup h)) inBucket
    · constructor
      · exact pages
      · intro p entry inList
        rw [samePages.tbs]
        exact rep.pages.home p entry (mem_withoutTb.mp inList).1
      · intro p entry inList n q home
        rw [samePages.tbs] at home
        obtain ⟨before, other⟩ := mem_withoutTb.mp inList
        exact mem_withoutTb.mpr ⟨rep.pages.both p entry before n q home, other⟩
      · intro p nonempty
        rw [samePages.leafAllocated]
        apply rep.pages.leaf p
        intro isEmpty
        apply nonempty
        change withoutTb tb (σ.pageList p) = []
        rw [isEmpty]
        rfl
    · rw [linkedSame]
      rw [samePages.nbTbs]
      exact graph
    · intro t tLive
      rw [linkedSame]
      exact rep.liveLinked t ((σ.live_without tb t).mp tLive).1
    · intro t n tLive branch isNull
      obtain ⟨before, other⟩ := (σ.live_without tb t).mp tLive
      by_cases reset : (t, n) ∈ incoming tb σ.chain
      · exact if_pos reset
      · change unpatch (incoming tb σ.chain) s.jmpTarget (t, n) = .ownExit
        rw [unpatch, if_neg reset]
        rw [samePages.tbs] at branch
        exact rep.unpatched t n before branch ((others (t, n) other reset).mp isNull)
  · constructor
    · exact ⟨samePages.tbs, samePages.nbTbs, samePages.codeBuffer, samePages.codeGenPtr,
        samePages.leafAllocated⟩
    · rfl
    · rfl
    · intro h u entry
      have before := cacheLe h u entry
      rwa [show ({ s₁ with tbInvalidatedFlag := true } : State).tbJmpCache = s.tbJmpCache from
        samePages.tbJmpCache] at before
    · rw [show ({ s₁ with tbInvalidatedFlag := true } : State).tbs = s.tbs from samePages.tbs]
        at uncached
      exact uncached
    · intro u fresh
      rw [samePages.hash]
      exact hashNext u fresh
    · exact graph.linked_eq _ rfl samePages.nbTbs

theorem tbPhysInvalidate_pageNext {s' : State} {pageAddr : Option Address}
    (done : tbPhysInvalidate T s tb pageAddr = some s') (n : Fin 2) :
    s'.page (.pageNext (tb, n)) = s.page (.pageNext (tb, n)) := by
  rw [tbPhysInvalidate, bind_eq_bind, bind_eq_some_iff] at done
  obtain ⟨⟨hash, found⟩, -, rest⟩ := done
  cases found with
  | false =>
    cases rest
    rfl
  | true =>
    simp only [if_true, bind_eq_bind, bind_eq_some_iff] at rest
    obtain ⟨s₁, removed, unchained, -, equal⟩ := rest
    cases equal
    obtain ⟨tbJmpCache, same, -, -⟩ :=
      tbJmpCacheRemove_same T { s₁ with tbInvalidatedFlag := true } tb
    rw [same]
    exact removeFromPages_pageNext removed n

theorem tbPhysInvalidate_total (rep : Represents T s σ) (tb : TbId) :
    ∃ s' σ', tbPhysInvalidate T s tb none = some s' ∧ Represents T s' σ' := by
  by_cases member : tb ∈ σ.bucket ((s.tbs tb).hashIndex T)
  · obtain ⟨s', done, rep', -⟩ := tbPhysInvalidate_of_mem rep member
    exact ⟨s', σ.without tb, done, rep'⟩
  · exact ⟨s, σ, tbPhysInvalidate_of_absent rep member none, rep⟩

end Invalidate

end Tlib.TranslationCache
