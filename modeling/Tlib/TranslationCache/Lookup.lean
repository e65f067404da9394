import Tlib.TranslationCache.Generation

/-!
Contract: `tb_find_slow`.

Owns: the search of a bucket. Does not own: `tb_find_fast`, or the translation of page addresses.
The pages of the request are those the code TLB maps during the call.
-/

namespace Tlib.TranslationCache

open Tlib.Library.Linked Function List

/-- A call of `tb_find_slow`, and what happens if a block has to be generated. -/
structure FindRequest where
  pc : Address
  (csBase flags maxIcount : Nat)
  cacheDisabled : Bool
  pages : PageMap
  generation : Generation

namespace FindRequest

variable (T : Target) (req : FindRequest)

def physPage1 : Address := getPageAddrCode T req.pages req.pc

/-- `tb_phys_hash_func(phys_page1 | (pc & ~TARGET_PAGE_MASK))` -/
def hashIndex : Nat := tbPhysHashFunc (req.physPage1 T ||| T.pageOffset req.pc)

def sameCode (tb : TranslationBlock) : Bool :=
  tb.pc = req.pc && tb.pageAddr0 = req.physPage1 T && tb.csBase = req.csBase && tb.flags = req.flags

def nextPageMatches (tb : TranslationBlock) : Bool :=
  match tb.pageAddr1 with
  | none => true
  | some pageAddr1 =>
    pageAddr1 = getPageAddrCode T req.pages (T.toUlong (T.pageBase req.pc + T.pageSize))

/-- The block is found: `goto found`. -/
def suits (tb : TranslationBlock) : Bool :=
  req.sameCode T tb && tb.icount ≤ req.maxIcount && req.nextPageMatches T tb

/-- The block becomes `prev_related_tb`. -/
def tooLarge (tb : TranslationBlock) : Bool := req.sameCode T tb && req.maxIcount < tb.icount

end FindRequest

/-- The search loop: the final `ptb1` and `prev_related_tb`, and the block found. -/
def searchBucket (T : Target) (s : State) (req : FindRequest) :
    Nat → HashCell → Option TbId → Option (HashCell × Option TbId × Option TbId)
  | 0, _, _ => none
  | fuel + 1, ptb1, prevRelatedTb =>
    match s.hash ptb1 with
    | none => some (ptb1, prevRelatedTb, none)
    | some tb =>
      if req.suits T (s.tbs tb) then some (ptb1, prevRelatedTb, some tb)
      else
        searchBucket T s req fuel (.physHashNext tb)
          (if req.tooLarge T (s.tbs tb) then some tb else prevRelatedTb)

/-- The relinking stores at `found`. -/
def relink (s : State) (h : Nat) (ptb1 : HashCell) (prevRelatedTb : Option TbId) (tb : TbId) :
    HashMemory :=
  match prevRelatedTb with
  | none => moveToFront s.hash h ptb1 tb
  | some prev =>
    if (s.tbs tb).wasCut then moveBehind s.hash prev ptb1 tb else moveToFront s.hash h ptb1 tb

/-- `tb_invalidated_flag = 0` -/
def State.clearFlag (s : State) : State := { s with tbInvalidatedFlag := false }

/-- From the label `found` on. -/
def returnFound (T : Target) (s : State) (req : FindRequest) (ptb1 : HashCell)
    (prevRelatedTb : Option TbId) (tb : TbId) : State :=
  { s with
    hash := relink s (req.hashIndex T) ptb1 prevRelatedTb tb
    tbJmpCache := update s.tbJmpCache (tbJmpCacheHashFunc T req.pc) (some tb) }

/-- From the label `not_found` on; both pointers of the search may be stale. -/
def generateFound (T : Target) (s : State) (req : FindRequest) (ptb1 : HashCell)
    (prevRelatedTb : Option TbId) : Option (State × TbId) := do
  let (s, tb) ← tbGenCode T s req.pages req.pc req.csBase req.flags req.generation
  if s.tbInvalidatedFlag then
    some (returnFound T s req (.bucket (req.hashIndex T)) none tb, tb)
  else some (returnFound T s req ptb1 prevRelatedTb tb, tb)

def tbFindSlow (T : Target) (s : State) (req : FindRequest) : Option (State × TbId) := do
  let s := s.clearFlag
  if req.cacheDisabled then generateFound T s req (.bucket (req.hashIndex T)) none
  else
    let (ptb1, prevRelatedTb, found) ←
      searchBucket T s req (s.nbTbs + 1) (.bucket (req.hashIndex T)) none
    match found with
    | some tb => some (returnFound T s req ptb1 prevRelatedTb tb, tb)
    | none => generateFound T s req ptb1 prevRelatedTb

theorem or_pageOffset (T : Target) (page address : Address) :
    T.pageBase page ||| T.pageOffset address = T.pageBase page + T.pageOffset address := by
  have small := T.pageOffset_lt address
  rw [Target.pageBase, Target.pageSize, Nat.mul_comm]
  exact (Nat.two_pow_add_eq_or_of_lt small _).symm

theorem FindRequest.hashIndex_of_record {T : Target} {req : FindRequest} {tb : TranslationBlock}
    (page : tb.pageAddr0 = req.physPage1 T) (pc : tb.pc = req.pc) :
    tb.hashIndex T = req.hashIndex T := by
  rw [TranslationBlock.hashIndex, TranslationBlock.physPc, page, pc, FindRequest.hashIndex,
    FindRequest.physPage1, getPageAddrCode, or_pageOffset]

section Search

variable {T : Target} {s : State} {bucket : Nat → List TbId} {req : FindRequest} {h : Nat}

/-- Where the search ends: in front of the block it found, or behind the last one. -/
inductive SearchEnds (T : Target) (s : State) (req : FindRequest) (h : Nat) (l : List TbId) :
    HashCell × Option TbId × Option TbId → Prop
  | miss (prev : Option TbId) (passed : ∀ p, prev = some p → p ∈ l)
      (none_suits : ∀ t ∈ l, req.suits T (s.tbs t) = false) :
      SearchEnds T s req h l (cellAfter h l, prev, none)
  | hit (front back : List TbId) (tb : TbId) (prev : Option TbId) (shape : l = front ++ tb :: back)
      (passed : ∀ p, prev = some p → p ∈ front) (suits : req.suits T (s.tbs tb) = true) :
      SearchEnds T s req h l (cellAfter h front, prev, some tb)

theorem searchBucket_ends (buckets : Buckets s.hash bucket) (front : List TbId) {rest : List TbId}
    (shape : bucket h = front ++ rest) {prev : Option TbId}
    (passed : ∀ p, prev = some p → p ∈ front)
    (skipped : ∀ t ∈ front, req.suits T (s.tbs t) = false)
    {fuel : Nat} (enough : rest.length < fuel) :
    ∃ result, searchBucket T s req fuel (cellAfter h front) prev = some result ∧
      SearchEnds T s req h (bucket h) result := by
  induction rest generalizing front prev fuel with
  | nil =>
    obtain ⟨less, rfl⟩ : ∃ less, fuel = less + 1 := ⟨fuel - 1, by simp at enough; omega⟩
    rw [append_nil] at shape
    have final : s.hash (cellAfter h front) = none := by
      rw [← shape]
      exact (buckets.segment_bucket h).lastCell_eq
    refine ⟨(cellAfter h front, prev, none), by rw [searchBucket, final], ?_⟩
    rw [shape]
    exact .miss prev passed skipped
  | cons tb rest ih =>
    obtain ⟨less, rfl⟩ : ∃ less, fuel = less + 1 := ⟨fuel - 1, by simp at enough; omega⟩
    have next : s.hash (cellAfter h front) = some tb := by
      have segment := buckets.segment_bucket h
      rw [shape, segment_append] at segment
      exact segment.1.lastCell_eq
    by_cases found : req.suits T (s.tbs tb) = true
    · refine ⟨(cellAfter h front, prev, some tb), by simp [searchBucket, next, found], ?_⟩
      rw [shape]
      exact .hit front rest tb prev rfl passed found
    · have continues : req.suits T (s.tbs tb) = false := by simpa using found
      rw [searchBucket, next]
      simp only [continues, Bool.false_eq_true, if_false]
      rw [← cellAfter_append h front tb]
      apply ih (front ++ [tb])
      · rw [shape, append_assoc, singleton_append]
      · intro p isPrev
        by_cases large : req.tooLarge T (s.tbs tb) = true
        · rw [if_pos large] at isPrev
          simp [Option.some.inj isPrev]
        · rw [if_neg large] at isPrev
          exact mem_append_left _ (passed p isPrev)
      · intro t member
        rcases mem_append.mp member with inFront | isTb
        · exact skipped t inFront
        · rwa [mem_singleton.mp isTb]
      · simp only [length_cons] at enough
        omega

end Search

section Relink

variable {T : Target} {s : State} {σ : Shape} {req : FindRequest}

theorem Represents.rehash (rep : Represents T s σ) {hash : HashMemory}
    {bucket : Nat → List TbId} (buckets : Buckets hash bucket) (tbJmpCache : Nat → Option TbId)
    (members : ∀ h, ∀ t ∈ bucket h, t ∈ σ.bucket h ∨ ((s.tbs t).hashIndex T = h ∧ σ.Live t)) :
    Represents T { s with hash := hash, tbJmpCache := tbJmpCache } { σ with bucket := bucket } where
  buckets := buckets
  bucketHome h t member := by
    rcases members h t member with before | ⟨home, -⟩
    · exact rep.bucketHome h t before
    · exact home
  bucketLive h t member := by
    rcases members h t member with before | ⟨-, live⟩
    · exact rep.bucketLive h t before
    · exact live
  pages := rep.pages
  graph := rep.graph
  liveLinked := rep.liveLinked
  unpatched := rep.unpatched

theorem relink_hit (rep : Represents T s σ) {h : Nat} {front back : List TbId} {tb : TbId}
    {prev : Option TbId} (shape : σ.bucket h = front ++ tb :: back)
    (passed : ∀ p, prev = some p → p ∈ front) :
    ∃ l, Buckets (relink s h (cellAfter h front) prev tb) (update σ.bucket h l) ∧
      ∀ t, t ∈ l ↔ t ∈ σ.bucket h := by
  have toFront := moveToFront_of_mem rep.buckets shape
  have sameFront : ∀ t, t ∈ tb :: (front ++ back) ↔ t ∈ σ.bucket h := by
    rw [shape]
    simp only [mem_cons, mem_append]
    tauto
  cases prev with
  | none => exact ⟨_, toFront, sameFront⟩
  | some prev =>
    by_cases cut : (s.tbs tb).wasCut = true
    · obtain ⟨first, middle, rfl⟩ := append_of_mem (passed prev rfl)
      refine ⟨first ++ prev :: tb :: (middle ++ back), ?_, ?_⟩
      · rw [relink, if_pos cut]
        apply moveBehind_of_mem rep.buckets
        rw [shape, append_assoc, cons_append]
      · intro t
        rw [shape]
        simp only [mem_cons, mem_append]
        tauto
    · refine ⟨_, ?_, sameFront⟩
      rw [relink, if_neg cut]
      exact toFront

theorem relink_miss (rep : Represents T s σ) {h : Nat} {tb : TbId} {prev : Option TbId}
    (passed : ∀ p, prev = some p → p ∈ σ.bucket h) (fresh : ∀ h, tb ∉ σ.bucket h)
    (next : s.hash (.physHashNext tb) = none) :
    ∃ l, Buckets (relink s h (cellAfter h (σ.bucket h)) prev tb)
        (update σ.bucket h l) ∧ ∀ t, t ∈ l ↔ t ∈ σ.bucket h ∨ t = tb := by
  have toFront := moveToFront_of_fresh (h := h) rep.buckets fresh next
  have sameFront : ∀ t, t ∈ tb :: σ.bucket h ↔ t ∈ σ.bucket h ∨ t = tb := by
    intro t
    rw [mem_cons, or_comm]
  cases prev with
  | none => exact ⟨_, toFront, sameFront⟩
  | some prev =>
    by_cases cut : (s.tbs tb).wasCut = true
    · obtain ⟨first, back, shape⟩ := append_of_mem (passed prev rfl)
      refine ⟨first ++ prev :: tb :: back, ?_, ?_⟩
      · rw [relink, if_pos cut]
        exact moveBehind_of_fresh rep.buckets shape fresh next
      · intro t
        rw [shape]
        simp only [mem_cons, mem_append]
        tauto
    · refine ⟨_, ?_, sameFront⟩
      rw [relink, if_neg cut]
      exact toFront

def Hit (T : Target) (s : State) (σ : Shape) (req : FindRequest) : Prop :=
  req.cacheDisabled = false ∧ ∃ t ∈ σ.bucket (req.hashIndex T), req.suits T (s.tbs t) = true

/-- A hit returns a suitable block of the bucket and keeps the members of every bucket. -/
structure HitResult (T : Target) (s : State) (σ : Shape) (req : FindRequest) (s' : State)
    (tb : TbId) (σ' : Shape) : Prop where
  rep : Represents T s' σ'
  same : SameBlocks s s'
  suits : req.suits T (s.tbs tb) = true
  returned : tb ∈ σ.bucket (req.hashIndex T)
  bucket : ∀ h t, t ∈ σ'.bucket h ↔ t ∈ σ.bucket h
  pageList : σ'.pageList = σ.pageList
  chain : σ'.chain = σ.chain

/-- A miss keeps the bucket unless `ptb1` was its head. -/
structure MissResult (T : Target) (s : State) (σ : Shape) (req : FindRequest) (s' : State)
    (tb : TbId) (σ' : Shape) (s₁ : State) (σ₁ : Shape) : Prop where
  generated : Generated T s.clearFlag σ req.pages req.pc req.csBase
    req.flags req.generation s₁ tb σ₁
  rep : Represents T s' σ'
  tbs : s'.tbs = s₁.tbs
  pageList : σ'.pageList = σ₁.pageList
  chain : σ'.chain = σ₁.chain
  bucket : ∀ h t, t ∈ σ'.bucket h ↔ (t ∈ σ₁.bucket h ∧ ¬ (h = req.hashIndex T ∧
      (req.cacheDisabled = true ∨ s₁.tbInvalidatedFlag = true))) ∨
    (h = req.hashIndex T ∧ t = tb)

theorem Represents.clearFlag (rep : Represents T s σ) : Represents T s.clearFlag σ :=
  ⟨rep.buckets, rep.bucketHome, rep.bucketLive, rep.pages, rep.graph, rep.liveLinked, rep.unpatched⟩

theorem returnFound_represents (rep : Represents T s σ) {l : List TbId} {ptb1 : HashCell}
    {prev : Option TbId} {tb : TbId}
    (buckets : Buckets (relink s (req.hashIndex T) ptb1 prev tb)
      (update σ.bucket (req.hashIndex T) l))
    (members : ∀ t ∈ l, t ∈ σ.bucket (req.hashIndex T) ∨
      ((s.tbs t).hashIndex T = req.hashIndex T ∧ σ.Live t)) :
    Represents T (returnFound T s req ptb1 prev tb)
      { σ with bucket := update σ.bucket (req.hashIndex T) l } := by
  apply rep.rehash buckets
  intro j t member
  by_cases isH : j = req.hashIndex T
  · rw [isH, update_self] at member
    rw [isH]
    exact members t member
  · rw [update_of_ne isH] at member
    exact Or.inl member

theorem mem_update_iff {f : Nat → List TbId} {h : Nat} {l : List TbId} {j : Nat} {t : TbId} :
    t ∈ update f h l j ↔ (j ≠ h ∧ t ∈ f j) ∨ (j = h ∧ t ∈ l) := by
  by_cases isH : j = h
  · rw [isH, update_self]
    simp
  · rw [update_of_ne isH]
    simp [isH]

theorem search_ends (rep : Represents T s σ) (req : FindRequest) :
    ∃ result, searchBucket T s.clearFlag req (s.clearFlag.nbTbs + 1)
        (.bucket (req.hashIndex T)) none = some result ∧
      SearchEnds T s.clearFlag req (req.hashIndex T) (σ.bucket (req.hashIndex T)) result :=
  searchBucket_ends (s := s.clearFlag) rep.buckets [] (nil_append _).symm
    (by simp) (by simp) (Nat.lt_succ_of_le (rep.bucket_length_le _))

theorem tbFindSlow_hit (rep : Represents T s σ) (hit : Hit T s σ req) :
    ∃ s' tb σ', tbFindSlow T s req = some (s', tb) ∧ HitResult T s σ req s' tb σ' := by
  obtain ⟨enabled, t, inBucket, answers⟩ := hit
  obtain ⟨result, searched, ends⟩ := search_ends rep req
  cases ends with
  | miss prev passed noneSuits =>
    have refused : req.suits T (s.tbs t) = false := noneSuits t inBucket
    rw [refused] at answers
    exact absurd answers Bool.false_ne_true
  | hit front back tb prev shape passed suits =>
    obtain ⟨l, buckets, members⟩ := relink_hit rep.clearFlag shape passed
    refine ⟨returnFound T s.clearFlag req (cellAfter (req.hashIndex T) front) prev tb, tb,
      { σ with bucket := update σ.bucket (req.hashIndex T) l }, ?_, ?_⟩
    · simp [tbFindSlow, enabled, searched]
    · constructor
      · exact returnFound_represents rep.clearFlag buckets
          fun u member => Or.inl ((members u).mp member)
      · exact ⟨rfl, rfl, rfl, rfl, rfl⟩
      · exact suits
      · rw [shape]
        simp
      · intro j u
        rw [mem_update_iff, members u]
        by_cases isH : j = req.hashIndex T <;> simp [isH]
      · rfl
      · rfl

theorem Generated.hashIndex {s' : State} {tb : TbId} {σ' : Shape}
    (made : Generated T s σ req.pages req.pc req.csBase req.flags req.generation s' tb σ') :
    (s'.tbs tb).hashIndex T = req.hashIndex T := by
  apply FindRequest.hashIndex_of_record
  · rw [made.record]
    rfl
  · rw [made.record]

theorem generateFound_eq (rep : Represents T s σ) (req : FindRequest) {ptb1 : HashCell}
    {prev : Option TbId}
    (start : (req.cacheDisabled = true ∧ ptb1 = .bucket (req.hashIndex T) ∧ prev = none) ∨
      (req.cacheDisabled = false ∧ ptb1 = cellAfter (req.hashIndex T) (σ.bucket (req.hashIndex T)) ∧
        ∀ p, prev = some p → p ∈ σ.bucket (req.hashIndex T))) :
    ∃ s' tb σ' s₁ σ₁, generateFound T s req ptb1 prev = some (s', tb) ∧
      Generated T s σ req.pages req.pc req.csBase req.flags req.generation s₁ tb σ₁ ∧
      Represents T s' σ' ∧ s'.tbs = s₁.tbs ∧ σ'.pageList = σ₁.pageList ∧ σ'.chain = σ₁.chain ∧
      ∀ h t, t ∈ σ'.bucket h ↔ (t ∈ σ₁.bucket h ∧ ¬ (h = req.hashIndex T ∧
          (req.cacheDisabled = true ∨ s₁.tbInvalidatedFlag = true))) ∨
        (h = req.hashIndex T ∧ t = tb) := by
  obtain ⟨s₁, tb, σ₁, done, gen⟩ :=
    tbGenCode_eq rep req.pages req.pc req.csBase req.flags req.generation
  have home := gen.hashIndex
  have alive : σ₁.Live tb := (gen.live tb).mpr (Or.inl rfl)
  by_cases lost : req.cacheDisabled = true ∨ s₁.tbInvalidatedFlag = true
  · -- the unlinking store hits the head of the bucket, which is not `tb`
    have alone : Buckets (relink s₁ (req.hashIndex T) (.bucket (req.hashIndex T)) none tb)
        (update σ₁.bucket (req.hashIndex T) [tb]) :=
      moveToFront_of_head gen.rep.buckets gen.unhashed gen.nextNull
    refine ⟨returnFound T s₁ req (.bucket (req.hashIndex T)) none tb, tb,
      { σ₁ with bucket := update σ₁.bucket (req.hashIndex T) [tb] }, s₁, σ₁,
      ?_, gen, ?_, rfl, rfl, rfl, ?_⟩
    · simp only [generateFound, done, Option.bind_eq_bind, Option.bind_some]
      rcases start with ⟨-, rfl, rfl⟩ | ⟨enabled, -, -⟩
      · rw [ite_self]
      · rw [enabled] at lost
        rw [if_pos (lost.resolve_left Bool.false_ne_true)]
    · apply returnFound_represents gen.rep alone
      intro t isTb
      rw [mem_singleton.mp isTb]
      exact Or.inr ⟨home, alive⟩
    · intro h t
      rw [mem_update_iff, mem_singleton]
      tauto
  · rw [not_or] at lost
    have enabled : req.cacheDisabled = false := by simpa using lost.1
    have flag : s₁.tbInvalidatedFlag = false := by simpa using lost.2
    -- nothing was invalidated, so the bucket is the one that was searched
    have quiet : s.full = false ∧ ∀ t ∈ req.generation.invalidated, ¬ ∃ h, t ∈ σ.bucket h := by
      have notSet := mt gen.flag.mpr lost.2
      rw [not_or, not_or] at notSet
      refine ⟨by simpa using notSet.2.1, fun t inList hashed => notSet.2.2 ⟨t, inList, hashed⟩⟩
    have sameBucket : σ₁.bucket (req.hashIndex T) = σ.bucket (req.hashIndex T) := by
      rw [gen.bucket, quiet.1, if_neg Bool.false_ne_true, filter_eq_self]
      intro t member
      have outside : t ∉ req.generation.invalidated := fun inList =>
        quiet.2 t inList ⟨_, member⟩
      simpa using outside
    rcases start with ⟨disabled, -, -⟩ | ⟨-, rfl, passed⟩
    · exact absurd disabled lost.1
    · rw [← sameBucket] at passed ⊢
      obtain ⟨l, buckets, members⟩ := relink_miss gen.rep passed gen.unhashed gen.nextNull
      refine ⟨returnFound T s₁ req
          (cellAfter (req.hashIndex T) (σ₁.bucket (req.hashIndex T))) prev tb, tb,
        { σ₁ with bucket := update σ₁.bucket (req.hashIndex T) l }, s₁, σ₁,
        ?_, gen, ?_, rfl, rfl, rfl, ?_⟩
      · simp [generateFound, done, flag]
      · apply returnFound_represents gen.rep buckets
        intro t member
        rcases (members t).mp member with before | isTb
        · exact Or.inl before
        · rw [isTb]
          exact Or.inr ⟨home, alive⟩
      · intro h t
        rw [mem_update_iff, members]
        by_cases isH : h = req.hashIndex T <;> simp [isH, enabled, flag]

theorem tbFindSlow_miss (rep : Represents T s σ) (miss : ¬ Hit T s σ req) :
    ∃ s' tb σ' s₁ σ₁, tbFindSlow T s req = some (s', tb) ∧ MissResult T s σ req s' tb σ' s₁ σ₁ := by
  cases disabled : req.cacheDisabled with
  | true =>
    obtain ⟨s', tb, σ', s₁, σ₁, done, gen, rep', tbs, pageList, chain, bucket⟩ :=
      generateFound_eq rep.clearFlag req (Or.inl ⟨disabled, rfl, rfl⟩)
    refine ⟨s', tb, σ', s₁, σ₁, ?_, gen, rep', tbs, pageList, chain, bucket⟩
    simp [tbFindSlow, disabled, done]
  | false =>
    obtain ⟨result, searched, ends⟩ := search_ends rep req
    cases ends with
    | hit front back tb prev shape passed suits =>
      exact absurd ⟨disabled, tb, by rw [shape]; simp, suits⟩ miss
    | miss prev passed noneSuits =>
      obtain ⟨s', tb, σ', s₁, σ₁, done, gen, rep', tbs, pageList, chain, bucket⟩ :=
        generateFound_eq rep.clearFlag req (Or.inr ⟨disabled, rfl, passed⟩)
      refine ⟨s', tb, σ', s₁, σ₁, ?_, gen, rep', tbs, pageList, chain, bucket⟩
      simp [tbFindSlow, disabled, searched, done]

end Relink

end Tlib.TranslationCache
