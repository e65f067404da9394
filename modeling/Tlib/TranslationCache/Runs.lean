import Mathlib.Logic.Relation
import Tlib.TranslationCache.Lookup

/-!
Contract: runs of the translation cache.

Owns: the steps the code takes on the cache and reachable states. Does not own: the order in which
`cpu_exec` takes the steps. Every order is a run here, so what is proved of all runs holds of its
runs.
-/

namespace Tlib.TranslationCache

open Tlib.Library.Linked

def tbPhysHashInsert (T : Target) (s : State) (pages : PageMap) (tb : TbId) : Option State :=
  let pc := (s.tbs tb).pc
  let h := tbPhysHashFunc (getPageAddrCode T pages pc ||| T.pageOffset pc)
  (hashInsert s.hash s.tbs (s.nbTbs + 1) h tb).map fun hash => { s with hash := hash }

/-- `tb_gen_code` followed by `tb_phys_hash_insert`. -/
def tbGenAndInsert (T : Target) (s : State) (pages : PageMap) (pc csBase flags : Nat)
    (gen : Generation) : Option (State × TbId) := do
  let (s, tb) ← tbGenCode T s pages pc csBase flags gen
  let s ← tbPhysHashInsert T s pages tb
  some (s, tb)

/-- A cache before the first block. -/
structure Initial (s : State) : Prop where
  noBlocks : s.nbTbs = 0
  noBuckets : ∀ h, s.hash (.bucket h) = none
  noPages : ∀ p, s.page (.firstTb p) = none
  noCached : ∀ h, s.tbJmpCache h = none

/-- The cache as static storage and `cpu_exec_init_all` leave it. -/
def emptyCache (codeBuffer : CodeBuffer) : State where
  tbs := fun _ => .allocated 0
  nbTbs := 0
  codeBuffer := codeBuffer
  codeGenPtr := 0
  hash := fun _ => none
  page := fun _ => none
  leafAllocated := fun _ => false
  codeBitmap := fun _ => none
  codeWriteCount := fun _ => 0
  jump := fun _ => none
  jmpTarget := fun _ => .ownExit
  tbJmpCache := fun _ => none
  tbInvalidatedFlag := false

theorem emptyCache_initial (codeBuffer : CodeBuffer) : Initial (emptyCache codeBuffer) :=
  ⟨rfl, fun _ => rfl, fun _ => rfl, fun _ => rfl⟩

/-- What the code does to the cache. -/
inductive Event where
  | findSlow (req : FindRequest)
  | link (pages : PageMap) (pc csBase flags : Nat) (gen : Generation)
  | insert (pages : PageMap) (pc csBase flags : Nat) (gen : Generation)
  | addJump (tb : TbId) (n : Fin 2) (tbNext : TbId)
  | invalidate (tb : TbId)
  | flush
  | markDirty (tb : TbId)
  | forget (tbJmpCache : Nat → Option TbId)

/-- One step on the cache; source and target of a jump need not be valid any more. -/
inductive Step (T : Target) (s : State) : Event → State → Prop
  | findSlow (req : FindRequest) {s' : State} {tb : TbId}
      (done : tbFindSlow T s req = some (s', tb)) : Step T s (.findSlow req) s'
  | link (pages : PageMap) (pc csBase flags : Nat) (gen : Generation) {s' : State} {tb : TbId}
      (done : tbGenCode T s pages pc csBase flags gen = some (s', tb)) :
      Step T s (.link pages pc csBase flags gen) s'
  | insert (pages : PageMap) (pc csBase flags : Nat) (gen : Generation) {s' : State} {tb : TbId}
      (done : tbGenAndInsert T s pages pc csBase flags gen = some (s', tb)) :
      Step T s (.insert pages pc csBase flags gen) s'
  | addJump (tb : TbId) (n : Fin 2) (tbNext : TbId) (source : s.Linked tb)
      (target : s.Linked tbNext) : Step T s (.addJump tb n tbNext) (tbAddJump s tb n tbNext)
  | invalidate (tb : TbId) {s' : State} (done : tbPhysInvalidate T s tb none = some s') :
      Step T s (.invalidate tb) s'
  | flush : Step T s .flush (tbFlush s)
  | markDirty (tb : TbId) :
      Step T s (.markDirty tb) (s.setTb tb { s.tbs tb with dirtyFlag := true })
  | forget (tbJmpCache : Nat → Option TbId)
      (fewer : ∀ h t, tbJmpCache h = some t → s.tbJmpCache h = some t) :
      Step T s (.forget tbJmpCache) { s with tbJmpCache := tbJmpCache }

def ReachableBy (T : Target) (allowed : State → Event → Prop) (s : State) : Prop :=
  ∃ start, Initial start ∧
    Relation.ReflTransGen (fun s s' => ∃ event, allowed s event ∧ Step T s event s') start s

def Reachable (T : Target) : State → Prop := ReachableBy T fun _ _ => True

theorem ReachableBy.step {T : Target} {allowed : State → Event → Prop} {s s' : State}
    {event : Event} (reachable : ReachableBy T allowed s) (isAllowed : allowed s event)
    (step : Step T s event s') : ReachableBy T allowed s' := by
  obtain ⟨start, initial, run⟩ := reachable
  exact ⟨start, initial, run.tail ⟨event, isAllowed, step⟩⟩

theorem emptyCache_reachable (T : Target) (allowed : State → Event → Prop)
    (codeBuffer : CodeBuffer) : ReachableBy T allowed (emptyCache codeBuffer) :=
  ⟨_, emptyCache_initial codeBuffer, .refl⟩

theorem ReachableBy.invariant {T : Target} {allowed : State → Event → Prop}
    {P : State → Shape → Prop} (atStart : ∀ start, Initial start → P start Shape.empty)
    (preserved : ∀ s σ event s', Represents T s σ → P s σ → allowed s event →
      Step T s event s' → ∃ σ', Represents T s' σ' ∧ P s' σ')
    {s : State} (reachable : ReachableBy T allowed s) : ∃ σ, Represents T s σ ∧ P s σ := by
  obtain ⟨start, initial, run⟩ := reachable
  induction run with
  | refl =>
    exact ⟨_, represents_empty T start initial.noBlocks initial.noBuckets initial.noPages,
      atStart start initial⟩
  | tail _ step ih =>
    obtain ⟨σ, rep, holds⟩ := ih
    obtain ⟨event, isAllowed, taken⟩ := step
    exact preserved _ σ event _ rep holds isAllowed taken

section Steps

variable {T : Target} {s s' : State} {σ : Shape}

theorem Represents.of_records (rep : Represents T s σ) {tbs : TbId → TranslationBlock}
    (home : ∀ t, (tbs t).hashIndex T = (s.tbs t).hashIndex T)
    (pages : ∀ t n, (tbs t).pageOf T n = (s.tbs t).pageOf T n)
    (branches : ∀ t n, (tbs t).hasBranch n = (s.tbs t).hasBranch n) :
    Represents T { s with tbs := tbs } σ := by
  constructor
  · exact rep.buckets
  · intro h t member
    rw [home t]
    exact rep.bucketHome h t member
  · exact rep.bucketLive
  · constructor
    · exact rep.pages.family
    · intro p entry member
      rw [pages]
      exact rep.pages.home p entry member
    · intro p entry member n q
      rw [pages]
      exact rep.pages.both p entry member n q
    · exact rep.pages.leaf
  · exact rep.graph
  · exact rep.liveLinked
  · intro t n live branch
    rw [branches] at branch
    exact rep.unpatched t n live branch

theorem markDirty_represents (rep : Represents T s σ) (tb : TbId) :
    Represents T (s.setTb tb { s.tbs tb with dirtyFlag := true }) σ := by
  have record : ∀ t, (s.setTb tb { s.tbs tb with dirtyFlag := true }).tbs t = s.tbs t ∨
      (t = tb ∧ (s.setTb tb { s.tbs tb with dirtyFlag := true }).tbs t =
        { s.tbs tb with dirtyFlag := true }) := by
    intro t
    by_cases isTb : t = tb
    · right
      rw [isTb]
      exact ⟨rfl, s.setTb_self tb _⟩
    · exact Or.inl (s.setTb_of_ne _ isTb)
  apply rep.of_records
  · intro t
    rcases record t with same | ⟨rfl, dirty⟩
    · exact congrArg (TranslationBlock.hashIndex T) same
    · exact (congrArg (TranslationBlock.hashIndex T) dirty).trans rfl
  · intro t n
    rcases record t with same | ⟨rfl, dirty⟩
    · exact congrArg (TranslationBlock.pageOf T · n) same
    · exact (congrArg (TranslationBlock.pageOf T · n) dirty).trans rfl
  · intro t n
    rcases record t with same | ⟨rfl, dirty⟩
    · exact congrArg (TranslationBlock.hasBranch · n) same
    · exact (congrArg (TranslationBlock.hasBranch · n) dirty).trans rfl

theorem addJump_represents (rep : Represents T s σ) {tb tbNext : TbId} {n : Fin 2}
    (source : s.Linked tb) (target : s.Linked tbNext) :
    Represents T (tbAddJump s tb n tbNext)
      { σ with chain :=
          if s.jump (.jmpNext (tb, n)) = none then
            Function.update σ.chain tbNext ((tb, n) :: σ.chain tbNext)
          else σ.chain } := by
  have graph := tbAddJump_graph (n := n) rep.graph source target
  obtain ⟨jump, jmpTarget, same⟩ := tbAddJump_same s tb n tbNext
  have linkedSame := graph.linked_eq (tbAddJump s tb n tbNext) rfl (by rw [same])
  have unpatched : ∀ t m, σ.Live t → (s.tbs t).hasBranch m = true →
      (tbAddJump s tb n tbNext).jump (.jmpNext (t, m)) = none →
        (tbAddJump s tb n tbNext).jmpTarget (t, m) = .ownExit := by
    intro t m live branch isNull
    by_cases isSlot : (t, m) = (tb, n)
    · rw [isSlot] at isNull
      by_cases unchained : s.jump (.jmpNext (tb, n)) = none
      · rw [if_pos unchained] at graph
        have patched : (tb, n) ∈
            Function.update σ.chain tbNext ((tb, n) :: σ.chain tbNext) tbNext := by
          rw [Function.update_self]
          exact List.mem_cons_self
        exact absurd isNull (graph.jmpNext_ne_none patched)
      · rw [tbAddJump, if_neg unchained] at isNull
        exact absurd isNull unchained
    · obtain ⟨sameNext, sameTarget⟩ := tbAddJump_other tbNext isSlot
      rw [sameNext] at isNull
      rw [sameTarget]
      exact rep.unpatched t m live branch isNull
  constructor
  · rw [same]
    exact rep.buckets
  · rw [same]
    exact rep.bucketHome
  · exact rep.bucketLive
  · rw [same]
    exact rep.pages
  · rw [linkedSame, show (tbAddJump s tb n tbNext).nbTbs = s.nbTbs by rw [same]]
    exact graph
  · rw [linkedSame]
    exact rep.liveLinked
  · intro t m live branch
    refine unpatched t m live ?_
    rwa [same] at branch

theorem flush_represents (rep : Represents T s σ) : Represents T (tbFlush s) Shape.empty :=
  tbFlush_represents rep s.codeBuffer

/-- A bucket with a block where `tb_phys_hash_insert` places it. -/
def insertInto (tbs : TbId → TranslationBlock) (tb : TbId) (l : List TbId) : List TbId :=
  l.takeWhile (fun act => !insertBefore tbs tb act) ++
    tb :: l.dropWhile (fun act => !insertBefore tbs tb act)

theorem mem_insertInto (tbs : TbId → TranslationBlock) (tb t : TbId) (l : List TbId) :
    t ∈ insertInto tbs tb l ↔ t ∈ l ∨ t = tb := by
  have parts := List.takeWhile_append_dropWhile (p := fun act => !insertBefore tbs tb act) (l := l)
  have inParts := congrArg (t ∈ ·) parts
  simp only [List.mem_append, eq_iff_iff] at inParts
  rw [insertInto, List.mem_append, List.mem_cons, or_left_comm, inParts, or_comm]

theorem tbGenAndInsert_eq (rep : Represents T s σ) (pages : PageMap) (pc csBase flags : Nat)
    (gen : Generation) :
    ∃ s₁ tb σ₁ hash, tbGenAndInsert T s pages pc csBase flags gen =
        some ({ s₁ with hash := hash }, tb) ∧
      Generated T s σ pages pc csBase flags gen s₁ tb σ₁ ∧
      Represents T { s₁ with hash := hash }
        { σ₁ with
          bucket := Function.update σ₁.bucket ((s₁.tbs tb).hashIndex T)
            (insertInto s₁.tbs tb (σ₁.bucket ((s₁.tbs tb).hashIndex T))) } := by
  obtain ⟨s₁, tb, σ₁, done, made⟩ := tbGenCode_eq rep pages pc csBase flags gen
  have recordPc : (s₁.tbs tb).pc = pc := by rw [made.record]
  have home : (s₁.tbs tb).hashIndex T =
      tbPhysHashFunc (getPageAddrCode T pages pc ||| T.pageOffset pc) := by
    rw [TranslationBlock.hashIndex, TranslationBlock.physPc, made.record, getPageAddrCode,
      or_pageOffset]
  obtain ⟨hash, inserted, buckets⟩ := hashInsert_eq made.rep.buckets s₁.tbs
    made.unhashed (Nat.lt_succ_of_le (made.rep.bucket_length_le ((s₁.tbs tb).hashIndex T)))
  rw [home] at inserted
  refine ⟨s₁, tb, σ₁, hash, ?_, made, made.rep.rehash buckets s₁.tbJmpCache ?_⟩
  · simp [tbGenAndInsert, done, tbPhysHashInsert, recordPc, inserted]
  · intro h t member
    rcases mem_update_iff.mp member with ⟨-, before⟩ | ⟨isHome, inList⟩
    · exact Or.inl before
    · rw [isHome]
      rcases (mem_insertInto s₁.tbs tb t _).mp inList with before | isNew
      · exact Or.inl before
      · rw [isNew]
        exact Or.inr ⟨rfl, (made.live tb).mpr (Or.inl rfl)⟩

theorem insert_represents (rep : Represents T s σ) (pages : PageMap) (pc csBase flags : Nat)
    (gen : Generation) :
    ∃ s' tb σ' s₁ σ₁, tbGenAndInsert T s pages pc csBase flags gen = some (s', tb) ∧
      Generated T s σ pages pc csBase flags gen s₁ tb σ₁ ∧ Represents T s' σ' ∧
      σ'.pageList = σ₁.pageList ∧ σ'.chain = σ₁.chain ∧ s'.tbs = s₁.tbs ∧
      ∀ h t, t ∈ σ'.bucket h ↔ t ∈ σ₁.bucket h ∨ (h = (s₁.tbs tb).hashIndex T ∧ t = tb) := by
  obtain ⟨s₁, tb, σ₁, hash, done, made, rep'⟩ := tbGenAndInsert_eq rep pages pc csBase flags gen
  refine ⟨_, tb, _, s₁, σ₁, done, made, rep', rfl, rfl, rfl, fun h t => ?_⟩
  rw [mem_update_iff, mem_insertInto]
  by_cases isHome : h = (s₁.tbs tb).hashIndex T <;> simp [isHome]

theorem findSlow_represents (rep : Represents T s σ) (req : FindRequest) :
    ∃ s' tb σ', tbFindSlow T s req = some (s', tb) ∧ Represents T s' σ' := by
  by_cases hit : Hit T s σ req
  · obtain ⟨s', tb, σ', done, result⟩ := tbFindSlow_hit rep hit
    exact ⟨s', tb, σ', done, result.rep⟩
  · obtain ⟨s', tb, σ', s₁, σ₁, done, result⟩ := tbFindSlow_miss rep hit
    exact ⟨s', tb, σ', done, result.rep⟩

theorem Step.represents {event : Event} (step : Step T s event s') (rep : Represents T s σ) :
    ∃ σ', Represents T s' σ' := by
  cases step with
  | findSlow req done =>
    obtain ⟨s₁, tb, σ₁, done₁, rep₁⟩ := findSlow_represents rep req
    rw [done] at done₁
    cases done₁
    exact ⟨σ₁, rep₁⟩
  | link pages pc csBase flags gen done =>
    obtain ⟨s₁, tb, σ₁, done₁, made⟩ := tbGenCode_eq rep pages pc csBase flags gen
    rw [done] at done₁
    cases done₁
    exact ⟨σ₁, made.rep⟩
  | insert pages pc csBase flags gen done =>
    obtain ⟨s₁, tb, σ₁, _, _, done₁, -, rep₁, -⟩ :=
      insert_represents rep pages pc csBase flags gen
    rw [done] at done₁
    cases done₁
    exact ⟨σ₁, rep₁⟩
  | addJump tb n tbNext source target => exact ⟨_, addJump_represents rep source target⟩
  | invalidate tb done =>
    obtain ⟨s₁, σ₁, done₁, rep₁⟩ := tbPhysInvalidate_total rep tb
    rw [done] at done₁
    cases done₁
    exact ⟨σ₁, rep₁⟩
  | flush => exact ⟨_, flush_represents rep⟩
  | markDirty tb => exact ⟨σ, markDirty_represents rep tb⟩
  | forget tbJmpCache _ =>
    exact ⟨σ, rep.buckets, rep.bucketHome, rep.bucketLive, rep.pages, rep.graph,
      rep.liveLinked, rep.unpatched⟩

theorem ReachableBy.represents {allowed : State → Event → Prop}
    (reachable : ReachableBy T allowed s) : ∃ σ, Represents T s σ := by
  obtain ⟨σ, rep, -⟩ := reachable.invariant (P := fun _ _ => True) (fun _ _ => trivial)
    fun s σ event s' rep _ _ step => by
      obtain ⟨σ', rep'⟩ := step.represents rep
      exact ⟨σ', rep', trivial⟩
  exact ⟨σ, rep⟩

end Steps

/-- The block is found from the head of its bucket. -/
def State.Hashed (T : Target) (s : State) (tb : TbId) : Prop :=
  Reaches hashRoots.toThreading s.hash (.bucket ((s.tbs tb).hashIndex T)) tb

/-- The block is on a page list: it is valid. -/
def State.Live (s : State) (tb : TbId) : Prop :=
  ∃ p n, Reaches pageRoots.toThreading s.page (.firstTb p) (tb, n)

section Notions

variable {T : Target} {s : State} {σ : Shape}

theorem Represents.reaches_bucket (rep : Represents T s σ) (h : Nat) (tb : TbId) :
    Reaches hashRoots.toThreading s.hash (.bucket h) tb ↔ tb ∈ σ.bucket h :=
  (rep.buckets.segment h trivial).reaches_iff (fun a => hashRoots.ptr_ne_stop a h) tb

theorem Represents.hashed_iff (rep : Represents T s σ) (tb : TbId) :
    s.Hashed T tb ↔ ∃ h, tb ∈ σ.bucket h := by
  rw [State.Hashed, rep.reaches_bucket, rep.mem_bucket_iff]

theorem Represents.live_iff (rep : Represents T s σ) (tb : TbId) : s.Live tb ↔ σ.Live tb := by
  have onList : ∀ p n, Reaches pageRoots.toThreading s.page (.firstTb p) (tb, n) ↔
      (tb, n) ∈ σ.pageList p := fun p n =>
    (rep.pages.family.segment p trivial).reaches_iff (fun a => pageRoots.ptr_ne_stop a p) (tb, n)
  simp [State.Live, Shape.Live, onList]

/-- What a completed invalidation leaves of a block: it is on no list. -/
structure State.Gone (T : Target) (s : State) (tb : TbId) : Prop where
  unhashed : ¬ s.Hashed T tb
  dead : ¬ s.Live tb
  unchained : ∀ n, s.jump (.jmpNext (tb, n)) = none
  noChain : s.jump (.jmpFirst tb) = some (.owner tb)
  uncached : s.tbJmpCache (tbJmpCacheHashFunc T (s.tbs tb).pc) ≠ some tb

theorem tbPhysInvalidate_gone (rep : Represents T s σ) {tb : TbId} (hashed : s.Hashed T tb) :
    ∃ s', tbPhysInvalidate T s tb none = some s' ∧ s'.Gone T tb := by
  have member := (rep.mem_bucket_iff tb).mp ((rep.hashed_iff tb).mp hashed)
  obtain ⟨s', done, rep', effect⟩ := tbPhysInvalidate_of_mem rep member
  have isLinked : s'.Linked tb := by
    rw [effect.linked]
    exact rep.liveLinked tb (rep.bucketLive _ tb member)
  refine ⟨s', done, ?_, ?_, ?_, ?_, ?_⟩
  · rw [rep'.hashed_iff]
    rintro ⟨h, still⟩
    exact (rep.buckets.nodup h).not_mem_erase still
  · rw [rep'.live_iff, Shape.live_without]
    exact fun live => live.2 rfl
  · intro n
    by_contra notNull
    obtain ⟨t, onChain⟩ := rep'.graph.complete (tb, n) isLinked notNull
    exact ((mem_chainWithout rep.graph.family.nodup t (tb, n)).mp onChain).2.2 rfl
  · have head := rep'.graph.family.segment tb isLinked
    rw [show (σ.without tb).chain tb = [] from if_pos rfl] at head
    exact head
  · rw [effect.same.tbs]
    exact effect.uncached

end Notions

/-- The record that `tb_gen_code` leaves for a block, with its later dirty flag. -/
def generatedRecord (T : Target) (pages : PageMap) (pc csBase flags : Nat) (gen : Generation)
    (dirtyFlag : Bool) : TranslationBlock where
  pc := pc
  csBase := csBase
  flags := flags
  dirtyFlag := dirtyFlag
  size := gen.size
  icount := gen.icount
  wasCut := gen.wasCut
  pageAddr0 := getPageAddrCode T pages pc
  pageAddr1 := secondPage T pages pc gen.size
  tbNextOffset := gen.tbNextOffset

def IsGenerated (T : Target) (block : TranslationBlock) : Prop :=
  ∃ pages pc csBase flags gen dirtyFlag,
    block = generatedRecord T pages pc csBase flags gen dirtyFlag

section Records

variable {T : Target} {s s' : State} {σ : Shape}

theorem isGenerated_of_generated {pages : PageMap} {pc csBase flags : Nat} {gen : Generation}
    {tb : TbId} {σ' : Shape} (records : ∀ t, σ.Live t → IsGenerated T (s.tbs t))
    (made : Generated T s σ pages pc csBase flags gen s' tb σ') :
    ∀ t, σ'.Live t → IsGenerated T (s'.tbs t) := by
  intro t live
  by_cases isNew : t = tb
  · rw [isNew, made.record]
    exact ⟨pages, pc, csBase, flags, gen, false, rfl⟩
  · rw [made.others t live isNew]
    rcases (made.live t).mp live with equal | ⟨-, before, -⟩
    · exact absurd equal isNew
    · exact records t before

theorem Step.isGenerated {event : Event} (rep : Represents T s σ)
    (records : ∀ t, σ.Live t → IsGenerated T (s.tbs t)) (step : Step T s event s') :
    ∃ σ', Represents T s' σ' ∧ ∀ t, σ'.Live t → IsGenerated T (s'.tbs t) := by
  cases step with
  | findSlow req done =>
    by_cases hit : Hit T s σ req
    · obtain ⟨s₁, tb, σ₁, done₁, result⟩ := tbFindSlow_hit rep hit
      rw [done] at done₁
      cases done₁
      refine ⟨σ₁, result.rep, fun t live => ?_⟩
      rw [Shape.Live, result.pageList] at live
      rw [result.same.tbs]
      exact records t live
    · obtain ⟨s₂, tb, σ₂, s₁, σ₁, done₁, result⟩ := tbFindSlow_miss rep hit
      rw [done] at done₁
      cases done₁
      refine ⟨σ₂, result.rep, fun t live => ?_⟩
      rw [Shape.Live, result.pageList] at live
      rw [result.tbs]
      exact isGenerated_of_generated (s := s.clearFlag) records result.generated t live
  | link pages pc csBase flags gen done =>
    obtain ⟨s₁, tb, σ₁, done₁, made⟩ := tbGenCode_eq rep pages pc csBase flags gen
    rw [done] at done₁
    cases done₁
    exact ⟨σ₁, made.rep, isGenerated_of_generated records made⟩
  | insert pages pc csBase flags gen done =>
    obtain ⟨s₂, tb, σ₂, s₁, σ₁, done₁, made, rep₂, pageList, -, tbs, -⟩ :=
      insert_represents rep pages pc csBase flags gen
    rw [done] at done₁
    cases done₁
    refine ⟨σ₂, rep₂, fun t live => ?_⟩
    rw [Shape.Live, pageList] at live
    rw [tbs]
    exact isGenerated_of_generated records made t live
  | addJump tb n tbNext source target =>
    obtain ⟨jump, jmpTarget, same⟩ := tbAddJump_same s tb n tbNext
    refine ⟨_, addJump_represents rep source target, fun t live => ?_⟩
    rw [same]
    exact records t live
  | invalidate tb done =>
    obtain ⟨s₁, σ₁, done₁, effect⟩ := tbPhysInvalidate_after rep tb
    rw [done] at done₁
    cases done₁
    refine ⟨σ₁, effect.rep, fun t live => ?_⟩
    rw [effect.same.tbs]
    exact records t ((effect.live t).mp live).1
  | flush => exact ⟨_, flush_represents rep, fun t live => (Shape.empty_not_live t live).elim⟩
  | markDirty tb =>
    refine ⟨σ, markDirty_represents rep tb, fun t live => ?_⟩
    by_cases isTb : t = tb
    · rw [isTb, s.setTb_self]
      rw [isTb] at live
      obtain ⟨pages, pc, csBase, flags, gen, dirtyFlag, record⟩ := records tb live
      rw [record]
      exact ⟨pages, pc, csBase, flags, gen, true, rfl⟩
    · rw [s.setTb_of_ne _ isTb]
      exact records t live
  | forget tbJmpCache _ =>
    exact ⟨σ, ⟨rep.buckets, rep.bucketHome, rep.bucketLive, rep.pages, rep.graph,
      rep.liveLinked, rep.unpatched⟩, records⟩

theorem ReachableBy.isGenerated {allowed : State → Event → Prop}
    (reachable : ReachableBy T allowed s) {t : TbId} (live : s.Live t) :
    IsGenerated T (s.tbs t) := by
  obtain ⟨σ, rep, records⟩ := reachable.invariant
    (P := fun s σ => ∀ t, σ.Live t → IsGenerated T (s.tbs t))
    (fun _ _ t live => (Shape.empty_not_live t live).elim)
    fun _ _ _ _ rep records _ step => step.isGenerated rep records
  exact records t ((rep.live_iff t).mp live)

theorem IsGenerated.aligned {block : TranslationBlock} (isGenerated : IsGenerated T block) :
    T.pageBase block.pageAddr0 = block.pageAddr0 := by
  obtain ⟨pages, pc, csBase, flags, gen, dirtyFlag, record⟩ := isGenerated
  rw [record]
  exact T.pageBase_pageBase _

end Records

def sampleTarget : Target where
  pageBits := 12
  longBits := 32
  physAddrBits := 32
  pageBits_ge := Target.pages4K_ge
  pageBits_le := Target.pages4K_le

def sampleBuffer : CodeBuffer where
  maxBlocks := 1000
  maxSize := 100000
  maxBlocks_pos := by decide
  maxSize_pos := by decide

def sampleGeneration : Generation where
  beforeAlloc := []
  duringTranslation := []
  expanded := sampleBuffer
  codeSize := 64
  size := 4
  icount := 1
  wasCut := false
  tbNextOffset := fun _ => 16

/-- A request for the code at `pc`, mapped one to one. -/
def sampleRequest (pc : Address) (cacheDisabled : Bool) : FindRequest where
  pc := pc
  csBase := 0
  flags := 0
  maxIcount := 100
  cacheDisabled := cacheDisabled
  pages := id
  generation := sampleGeneration

end Tlib.TranslationCache
