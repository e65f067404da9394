import Tlib.TranslationCache.Runs

/-!
Contract: which blocks `tb_find_slow` keeps in their bucket.

Owns: the exact condition under which no block is dropped.

Does not own: the relinking itself. `*ptb1 = tb->phys_hash_next` unlinks `tb`
only if `ptb1` points to it; with the cache disabled, and after an invalidation
during generation, `ptb1` is the head of the bucket instead.
-/

namespace Tlib.TranslationCache

open Tlib.Library.Linked Or

/-- The bucket that a call of `tb_find_slow` handles holds the block. -/
def FindRequest.InBucket (T : Target) (req : FindRequest) (s : State) (tb : TbId) : Prop :=
  Reaches hashRoots.toThreading s.hash (.bucket (req.hashIndex T)) tb

def FindRequest.Answered (T : Target) (req : FindRequest) (s : State) : Prop :=
  req.cacheDisabled = false ∧ ∃ tb, req.InBucket T s tb ∧ req.suits T (s.tbs tb) = true

/-- `tb_gen_code` flushes the whole table. -/
def FindRequest.Flushes (T : Target) (req : FindRequest) (s : State) : Prop :=
  ¬ req.Answered T s ∧ s.full = true

/-- `tb_phys_invalidate` is called on the block during the call. -/
def FindRequest.Removes (T : Target) (req : FindRequest) (s : State) (tb : TbId) : Prop :=
  ¬ req.Answered T s ∧ tb ∈ req.generation.invalidated

/-- The bucket keeps what was not invalidated, and a listed block stays findable. -/
structure KeepsBlocks (T : Target) (s : State) (req : FindRequest) (s' : State) (tb : TbId) :
    Prop where
  bucket : ∀ t, req.InBucket T s' t ↔ (req.InBucket T s t ∧ ¬ req.Removes T s t) ∨ t = tb
  paged : ∀ t, s.Hashed T t → s'.Live t → s'.Hashed T t ∧
    ∃ s'', tbPhysInvalidate T s' t none = some s'' ∧ s''.Gone T t

/-- The block is found, or the bucket has no other block to lose. -/
def FindRequest.Safe (T : Target) (req : FindRequest) (s : State) : Prop :=
  req.Answered T s ∨ s.full = true ∨
    (req.cacheDisabled = false ∧ ∀ tb ∈ req.generation.invalidated, ¬ s.Hashed T tb) ∨
    ∀ tb, req.InBucket T s tb → tb ∈ req.generation.invalidated

section Loss

variable {T : Target} {s : State} {σ : Shape} {req : FindRequest}

theorem inBucket_iff (rep : Represents T s σ) (req : FindRequest) (tb : TbId) :
    req.InBucket T s tb ↔ tb ∈ σ.bucket (req.hashIndex T) :=
  rep.reaches_bucket _ tb

theorem answered_iff (rep : Represents T s σ) (req : FindRequest) :
    req.Answered T s ↔ Hit T s σ req := by
  simp [FindRequest.Answered, Hit, inBucket_iff rep]

theorem paged_of_hashed {s' : State} {σ' : Shape} (rep' : Represents T s' σ') {t : TbId}
    (hashed : ∃ h, t ∈ σ'.bucket h) :
    s'.Hashed T t ∧ ∃ s'', tbPhysInvalidate T s' t none = some s'' ∧ s''.Gone T t := by
  have found := (rep'.hashed_iff t).mpr hashed
  exact ⟨found, tbPhysInvalidate_gone rep' found⟩

theorem keepsBlocks_of_hit {s' : State} {tb : TbId} {σ' : Shape} (rep : Represents T s σ)
    (hit : Hit T s σ req) (result : HitResult T s σ req s' tb σ') :
    KeepsBlocks T s req s' tb := by
  have answered := (answered_iff rep req).mpr hit
  constructor
  · intro t
    rw [inBucket_iff result.rep, inBucket_iff rep, result.bucket]
    constructor
    · exact fun member => inl ⟨member, fun removed => removed.1 answered⟩
    · rintro (⟨member, -⟩ | rfl)
      · exact member
      · exact result.returned
  · intro t hashed _
    obtain ⟨h, member⟩ := (rep.hashed_iff t).mp hashed
    exact paged_of_hashed result.rep ⟨h, (result.bucket h t).mpr member⟩

theorem keepsBlocks_iff_of_miss {s' s₁ : State} {tb : TbId} {σ' σ₁ : Shape}
    (rep : Represents T s σ) (miss : ¬ Hit T s σ req) (room : s.full = false)
    (result : MissResult T s σ req s' tb σ' s₁ σ₁) :
    KeepsBlocks T s req s' tb ↔
      (req.cacheDisabled = false ∧ ∀ t ∈ req.generation.invalidated, ¬ s.Hashed T t) ∨
      ∀ t, req.InBucket T s t → t ∈ req.generation.invalidated := by
  have notAnswered : ¬ req.Answered T s := fun answered => miss ((answered_iff rep req).mp answered)
  have survivors : ∀ h t, t ∈ σ₁.bucket h ↔ t ∈ σ.bucket h ∧ t ∉ req.generation.invalidated := by
    intro h t
    rw [result.generated.bucket, show s.clearFlag.full = s.full from rfl, room,
      if_neg Bool.false_ne_true]
    simp
  have flag : s₁.tbInvalidatedFlag = true ↔ ∃ t ∈ req.generation.invalidated, s.Hashed T t := by
    rw [result.generated.flag, show s.clearFlag.full = s.full from rfl, room,
      show s.clearFlag.tbInvalidatedFlag = false from rfl]
    simp [rep.hashed_iff]
  have quiet : (req.cacheDisabled = false ∧ ∀ t ∈ req.generation.invalidated, ¬ s.Hashed T t) ↔
      ¬ (req.cacheDisabled = true ∨ s₁.tbInvalidatedFlag = true) := by
    rw [not_or, flag, Bool.not_eq_true]
    simp
  rw [quiet]
  constructor
  · intro keeps
    by_contra neither
    rw [not_or, not_not] at neither
    obtain ⟨lost, some_left⟩ := neither
    simp only [not_forall] at some_left
    obtain ⟨t, inBucket, outside⟩ := some_left
    have still := (keeps.bucket t).mpr (inl ⟨inBucket, fun removed => outside removed.2⟩)
    rw [inBucket_iff result.rep, result.bucket] at still
    rcases still with ⟨-, notLost⟩ | ⟨-, isNew⟩
    · exact notLost ⟨rfl, lost⟩
    · apply result.generated.unhashed (req.hashIndex T)
      rw [← isNew, survivors]
      exact ⟨(inBucket_iff rep req t).mp inBucket, outside⟩
  · intro safe
    constructor
    · intro t
      rw [inBucket_iff result.rep, result.bucket, survivors, inBucket_iff rep]
      constructor
      · rintro (⟨⟨member, outside⟩, -⟩ | ⟨-, isNew⟩)
        · exact inl ⟨member, fun removed => outside removed.2⟩
        · exact inr isNew
      · rintro (⟨member, kept⟩ | isNew)
        · have outside : t ∉ req.generation.invalidated := fun inList =>
            kept ⟨notAnswered, inList⟩
          refine inl ⟨⟨member, outside⟩, fun here => ?_⟩
          rcases safe with notLost | empty
          · exact notLost here.2
          · exact outside (empty t ((inBucket_iff rep req t).mpr member))
        · exact inr ⟨rfl, isNew⟩
    · intro t hashed live
      apply paged_of_hashed result.rep
      have alive : σ₁.Live t := by
        rw [result.rep.live_iff, Shape.Live, result.pageList] at live
        exact live
      rcases (result.generated.live t).mp alive with isNew | ⟨-, -, kept⟩
      · exact ⟨req.hashIndex T, (result.bucket _ t).mpr (inr ⟨rfl, isNew⟩)⟩
      · obtain ⟨h, member⟩ := (rep.hashed_iff t).mp hashed
        have outside : t ∉ req.generation.invalidated := fun inList => kept ⟨inList, h, member⟩
        refine ⟨h, (result.bucket h t).mpr (inl ⟨(survivors h t).mpr ⟨member, outside⟩, ?_⟩)⟩
        rintro ⟨isHere, lost⟩
        rcases safe with notLost | empty
        · exact notLost lost
        · rw [isHere] at member
          exact outside (empty t ((inBucket_iff rep req t).mpr member))

theorem keepsBlocks_iff (rep : Represents T s σ) (req : FindRequest) :
    ∃ s' tb, tbFindSlow T s req = some (s', tb) ∧
      ((req.Flushes T s ∨ KeepsBlocks T s req s' tb) ↔ req.Safe T s) := by
  by_cases hit : Hit T s σ req
  · obtain ⟨s', tb, σ', done, result⟩ := tbFindSlow_hit rep hit
    refine ⟨s', tb, done, fun _ => inl ((answered_iff rep req).mpr hit), fun _ => ?_⟩
    exact inr (keepsBlocks_of_hit rep hit result)
  · have notAnswered : ¬ req.Answered T s := fun answered =>
      hit ((answered_iff rep req).mp answered)
    obtain ⟨s', tb, σ', s₁, σ₁, done, result⟩ := tbFindSlow_miss rep hit
    refine ⟨s', tb, done, ?_⟩
    cases full : s.full with
    | true =>
      have flushes : req.Flushes T s := ⟨notAnswered, full⟩
      exact ⟨fun _ => inr (inl full), fun _ => inl flushes⟩
    | false =>
      have noFlush : ¬ req.Flushes T s := fun flushes => by
        rw [FindRequest.Flushes, full] at flushes
        exact Bool.false_ne_true flushes.2
      have exactly_when := keepsBlocks_iff_of_miss rep hit full result
      simp [FindRequest.Safe, noFlush, notAnswered, full, exactly_when]

/-- Calls of `tb_find_slow` are safe, and every generated block is put into its bucket. -/
def SafeEvent (T : Target) (s : State) : Event → Prop
  | .findSlow req => req.Safe T s
  | .link _ _ _ _ _ => False
  | _ => True

def Shape.AllHashed (σ : Shape) : Prop := ∀ t, σ.Live t → ∃ h, t ∈ σ.bucket h

theorem allHashed_of_miss {s' s₁ : State} {tb : TbId} {σ' σ₁ : Shape} (rep : Represents T s σ)
    (miss : ¬ Hit T s σ req) (safe : req.Safe T s) (hashed : σ.AllHashed)
    (result : MissResult T s σ req s' tb σ' s₁ σ₁) : σ'.AllHashed := by
  intro t live
  have alive : σ₁.Live t := by
    rw [Shape.Live, result.pageList] at live
    exact live
  rcases (result.generated.live t).mp alive with isNew | ⟨room, before, kept⟩
  · exact ⟨req.hashIndex T, (result.bucket _ t).mpr (inr ⟨rfl, isNew⟩)⟩
  · have room' : s.full = false := room
    have keeps : KeepsBlocks T s req s' tb := by
      rw [keepsBlocks_iff_of_miss rep miss room' result]
      rcases safe with answered | full | others
      · exact absurd ((answered_iff rep req).mp answered) miss
      · rw [room'] at full
        exact absurd full Bool.false_ne_true
      · exact others
    have stateHashed : s.Hashed T t := (rep.hashed_iff t).mpr (hashed t before)
    have stateLive : s'.Live t := (result.rep.live_iff t).mpr live
    exact (result.rep.hashed_iff t).mp (keeps.paged t stateHashed stateLive).1

theorem Step.allHashed {s' : State} {event : Event} (rep : Represents T s σ)
    (hashed : σ.AllHashed) (safe : SafeEvent T s event) (step : Step T s event s') :
    ∃ σ', Represents T s' σ' ∧ σ'.AllHashed := by
  cases step with
  | findSlow req done =>
    by_cases hit : Hit T s σ req
    · obtain ⟨s₁, tb, σ₁, done₁, result⟩ := tbFindSlow_hit rep hit
      rw [done] at done₁
      cases done₁
      refine ⟨σ₁, result.rep, fun t live => ?_⟩
      rw [Shape.Live, result.pageList] at live
      obtain ⟨h, member⟩ := hashed t live
      exact ⟨h, (result.bucket h t).mpr member⟩
    · obtain ⟨s₂, tb, σ₂, s₁, σ₁, done₁, result⟩ := tbFindSlow_miss rep hit
      rw [done] at done₁
      cases done₁
      exact ⟨σ₂, result.rep, allHashed_of_miss rep hit safe hashed result⟩
  | link pages pc csBase flags gen done => exact safe.elim
  | insert pages pc csBase flags gen done =>
    obtain ⟨s₂, tb, σ₂, s₁, σ₁, done₁, made, rep₂, pageList, -, -, bucket⟩ :=
      insert_represents rep pages pc csBase flags gen
    rw [done] at done₁
    cases done₁
    refine ⟨σ₂, rep₂, fun t live => ?_⟩
    rw [Shape.Live, pageList] at live
    rcases (made.live t).mp live with isNew | ⟨room, before, kept⟩
    · exact ⟨_, (bucket _ t).mpr (inr ⟨rfl, isNew⟩)⟩
    · obtain ⟨h, member⟩ := hashed t before
      have outside : t ∉ gen.invalidated := fun inList => kept ⟨inList, h, member⟩
      refine ⟨h, (bucket h t).mpr (inl ?_)⟩
      rw [made.bucket, room, if_neg Bool.false_ne_true]
      simp [member, outside]
  | addJump tb n tbNext source target => exact ⟨_, addJump_represents rep source target, hashed⟩
  | invalidate tb done =>
    obtain ⟨s₁, σ₁, done₁, effect⟩ := tbPhysInvalidate_after rep tb
    rw [done] at done₁
    cases done₁
    refine ⟨σ₁, effect.rep, fun t live => ?_⟩
    obtain ⟨before, kept⟩ := (effect.live t).mp live
    obtain ⟨h, member⟩ := hashed t before
    have outside : t ∉ [tb] := fun inList => kept ⟨inList, h, member⟩
    refine ⟨h, ?_⟩
    rw [effect.bucket]
    simp only [List.mem_filter, member, outside, not_false_eq_true, decide_true, and_self]
  | flush =>
    exact ⟨_, flush_represents rep, fun t live => (Shape.empty_not_live t live).elim⟩
  | markDirty tb => exact ⟨σ, markDirty_represents rep tb, hashed⟩
  | forget tbJmpCache _ =>
    exact ⟨σ, ⟨rep.buckets, rep.bucketHome, rep.bucketLive, rep.pages, rep.graph,
      rep.liveLinked, rep.unpatched⟩, hashed⟩

theorem allHashed_of_safe (reachable : ReachableBy T (SafeEvent T) s) :
    ∃ σ, Represents T s σ ∧ σ.AllHashed :=
  reachable.invariant (P := fun _ σ => σ.AllHashed)
    (fun _ _ t live => (Shape.empty_not_live t live).elim)
    fun _ _ _ _ rep hashed safe step => step.allHashed rep hashed safe

/-- `tb_find_slow` keeps every block in its bucket exactly when it finds the block
in the cache, flushes everything, generates for an enabled cache without any
invalidation of a hashed block, or has no other block to lose. In a run of such
calls every valid block can be invalidated completely. -/
theorem tbFindSlow_keepsBlocks_iff (reachable : Reachable T s) (req : FindRequest) :
    (∃ s' tb, tbFindSlow T s req = some (s', tb) ∧
      ((req.Flushes T s ∨ KeepsBlocks T s req s' tb) ↔ req.Safe T s)) ∧
    (ReachableBy T (SafeEvent T) s → ∀ t, s.Live t → s.Hashed T t ∧
      ∃ s', tbPhysInvalidate T s t none = some s' ∧ s'.Gone T t) := by
  constructor
  · obtain ⟨σ, rep⟩ := reachable.represents
    exact keepsBlocks_iff rep req
  · intro safe t live
    obtain ⟨σ, rep, hashed⟩ := allHashed_of_safe safe
    exact paged_of_hashed rep (hashed t ((rep.live_iff t).mp live))

end Loss

theorem exists_sample_cache : ∃ s tb,
    tbFindSlow sampleTarget (emptyCache sampleBuffer) (sampleRequest 0x1000 false) = some (s, tb) ∧
      s.hash (.bucket ((sampleRequest 0x1000 true).hashIndex sampleTarget)) = some 0 ∧
      s.page (.firstTb 1) = some (0, 0) ∧ s.full = false :=
  ⟨_, _, rfl, by decide, by decide, by decide⟩

/-- A request for the only block of a cache; later the block is invalidated. -/
theorem tbFindSlow_keepsBlocks_iff_sample : ∃ s, s.Live 0 ∧
    (∃ s' tb, tbFindSlow sampleTarget s (sampleRequest 0x1000 true) = some (s', tb) ∧
      (((sampleRequest 0x1000 true).Flushes sampleTarget s ∨
        KeepsBlocks sampleTarget s (sampleRequest 0x1000 true) s' tb) ↔
        (sampleRequest 0x1000 true).Safe sampleTarget s)) ∧
    ∃ s', tbPhysInvalidate sampleTarget s 0 none = some s' ∧ s'.Gone sampleTarget 0 := by
  obtain ⟨s, tb₀, first, -, onPage, -⟩ := exists_sample_cache
  have live : s.Live 0 := ⟨1, 0, Reaches.here onPage⟩
  have safe : SafeEvent sampleTarget (emptyCache sampleBuffer)
      (.findSlow (sampleRequest 0x1000 false)) :=
    inr (inr (inl ⟨rfl, fun tb member => absurd member List.not_mem_nil⟩))
  have reachable : Reachable sampleTarget s :=
    (emptyCache_reachable _ _ _).step trivial (.findSlow (sampleRequest 0x1000 false) first)
  have safeReachable : ReachableBy sampleTarget (SafeEvent sampleTarget) s :=
    (emptyCache_reachable _ _ _).step safe (.findSlow (sampleRequest 0x1000 false) first)
  have both := tbFindSlow_keepsBlocks_iff reachable (sampleRequest 0x1000 true)
  exact ⟨s, live, both.1, (both.2 safeReachable 0 live).2⟩

/-- The block at `0x1000` is generated with the cache enabled and then requested
again with the cache disabled: the second block replaces the whole bucket. -/
theorem tbFindSlow_loses_block : ∃ s s' tb, Reachable sampleTarget s ∧
      tbFindSlow sampleTarget s (sampleRequest 0x1000 true) = some (s', tb) ∧
      ¬ ((sampleRequest 0x1000 true).Flushes sampleTarget s ∨
        KeepsBlocks sampleTarget s (sampleRequest 0x1000 true) s' tb) := by
  obtain ⟨s, tb₀, first, head, -, room⟩ := exists_sample_cache
  have reachable : Reachable sampleTarget s :=
    (emptyCache_reachable _ _ _).step trivial (.findSlow (sampleRequest 0x1000 false) first)
  obtain ⟨σ, rep⟩ := reachable.represents
  obtain ⟨s', tb, second, exactly_when⟩ := keepsBlocks_iff rep (sampleRequest 0x1000 true)
  refine ⟨s, s', tb, reachable, second, ?_⟩
  rw [exactly_when]
  rintro (answered | full | quiet | empty)
  · exact absurd answered.1 (by decide)
  · rw [room] at full
    exact absurd full (by decide)
  · exact absurd quiet.1 (by decide)
  · have inBucket : (sampleRequest 0x1000 true).InBucket sampleTarget s 0 := Reaches.here head
    exact absurd (empty 0 inBucket) (by decide)

end Tlib.TranslationCache
