import Tlib.TranslationCache.Invalidation

/-!
Contract: creation of blocks.

Owns: `tb_link_page` and `tb_gen_code`, with the flush of a full cache. Does not own: the
generated code itself. Size, instruction count and cut of a new block are inputs; a generation that
is given up for lack of room is part of `CodePointers`, and no step of a run here.
-/

namespace Tlib.TranslationCache

open Tlib.Library.Linked Function List Or

/-! ### The code -/

abbrev PageMap := Address → Address

/-- `get_page_addr_code` with mapping on demand. -/
def getPageAddrCode (T : Target) (pages : PageMap) (address : Address) : Address :=
  T.pageBase (pages (T.pageBase address))

/-- `tb_link_page`; `none` for the second page stands for `-1`. -/
def tbLinkPage (T : Target) (s : State) (tb : TbId) (physPage1 : Address)
    (physPage2 : Option Address) : State :=
  let s := tbAllocPage T s tb 0 physPage1
  let s :=
    match physPage2 with
    | some physPage2 => tbAllocPage T s tb 1 physPage2
    | none => { s with tbs := update s.tbs tb { s.tbs tb with pageAddr1 := none } }
  let jump : JumpMemory := update s.jump (.jmpFirst tb) (some (.owner tb))
  let jump : JumpMemory := update jump (.jmpNext (tb, 0)) none
  let jump : JumpMemory := update jump (.jmpNext (tb, 1)) none
  -- init original jump addresses
  let jmpTarget := if (s.tbs tb).hasBranch 0 then tbResetJump s.jmpTarget (tb, 0) else s.jmpTarget
  let jmpTarget := if (s.tbs tb).hasBranch 1 then tbResetJump jmpTarget (tb, 1) else jmpTarget
  { s with jump := jump, jmpTarget := jmpTarget }

/-- What happens while a block is generated, page faults and device accesses included. -/
structure Generation where
  (beforeAlloc duringTranslation : List TbId)
  expanded : CodeBuffer
  (codeSize size icount : Nat)
  wasCut : Bool
  tbNextOffset : Fin 2 → Nat

def invalidateAll (T : Target) (s : State) : List TbId → Option State
  | [] => some s
  | tb :: rest => (tbPhysInvalidate T s tb none).bind fun s => invalidateAll T s rest

def State.setTb (s : State) (tb : TbId) (block : TranslationBlock) : State :=
  { s with tbs := update s.tbs tb block }

/-- `tb_alloc`, after `tb_flush` and `code_gen_try_expand` if there is no room. -/
def allocOrFlush (s : State) (pc : Address) (expanded : CodeBuffer) : Option (State × TbId) :=
  match tbAlloc s pc with
  | some allocated => some allocated
  | none => do
    let (s, tb) ← tbAlloc { tbFlush s with codeBuffer := expanded } pc
    some ({ s with tbInvalidatedFlag := true }, tb)

/-- The second page of a block, as `tb_gen_code` computes it. -/
def secondPage (T : Target) (pages : PageMap) (pc : Address) (size : Nat) : Option Address :=
  let virtPage2 := T.pageBase (T.toUlong (pc + size - 1))
  if 0 < size ∧ T.pageBase pc ≠ virtPage2 then some (getPageAddrCode T pages virtPage2) else none

/-- What `cpu_gen_code` leaves in the record and in the code buffer. -/
def finishTranslation (s : State) (tb : TbId) (gen : Generation) : State :=
  { s.setTb tb { s.tbs tb with
      size := gen.size, icount := gen.icount, wasCut := gen.wasCut
      tbNextOffset := gen.tbNextOffset } with
    codeGenPtr := s.codeGenPtr + gen.codeSize }

def tbGenCode (T : Target) (s : State) (pages : PageMap) (pc csBase flags : Nat)
    (gen : Generation) : Option (State × TbId) := do
  let s ← invalidateAll T s gen.beforeAlloc
  let (s, tb) ← allocOrFlush s pc gen.expanded
  let s := s.setTb tb { s.tbs tb with csBase := csBase, flags := flags }
  let s ← invalidateAll T s gen.duringTranslation
  let s := finishTranslation s tb gen
  some (tbLinkPage T s tb (getPageAddrCode T pages pc) (secondPage T pages pc gen.size), tb)

/-! ### Invalidations while a block is generated -/

structure AfterInvalidations (T : Target) (s : State) (σ : Shape) (l : List TbId) (s' : State)
    (σ' : Shape) : Prop where
  rep : Represents T s' σ'
  same : SameBlocks s s'
  bucket : ∀ h, σ'.bucket h = (σ.bucket h).filter fun t => t ∉ l
  live : ∀ t, σ'.Live t ↔ σ.Live t ∧ ¬ (t ∈ l ∧ ∃ h, t ∈ σ.bucket h)
  chain : ∀ t, ∀ slot ∈ σ'.chain t, slot ∈ σ.chain t ∧ ¬ (slot.1 ∈ l ∧ ∃ h, slot.1 ∈ σ.bucket h)
  flag : s'.tbInvalidatedFlag = true ↔ s.tbInvalidatedFlag = true ∨ ∃ t ∈ l, ∃ h, t ∈ σ.bucket h
  hashNext : ∀ u, (∀ h, u ∉ σ.bucket h) → s'.hash (.physHashNext u) = s.hash (.physHashNext u)
  linked : s'.Linked = s.Linked

section Invalidations

variable {T : Target} {s : State} {σ : Shape}

theorem Invalidated.after {s' : State} {tb : TbId} (rep : Represents T s σ)
    (member : tb ∈ σ.bucket ((s.tbs tb).hashIndex T)) (rep' : Represents T s' (σ.without tb))
    (effect : Invalidated T s σ tb s') : AfterInvalidations T s σ [tb] s' (σ.without tb) := by
  refine ⟨rep', effect.same, ?_, ?_, ?_, ?_, effect.hashNext, effect.linked⟩
  · intro h
    change (σ.bucket h).erase tb = _
    rw [(rep.buckets.nodup h).erase_eq_filter]
    simp [bne, BEq.beq]
  · intro t
    rw [Shape.live_without]
    constructor
    · rintro ⟨live, other⟩
      exact ⟨live, fun removed => other (mem_singleton.mp removed.1)⟩
    · rintro ⟨live, kept⟩
      refine ⟨live, fun isTb => kept ⟨mem_singleton.mpr isTb, ?_⟩⟩
      rw [isTb]
      exact ⟨_, member⟩
  · intro t slot onChain
    obtain ⟨-, before, other⟩ := (mem_chainWithout rep.graph.family.nodup t slot).mp onChain
    exact ⟨before, fun removed => other (mem_singleton.mp removed.1)⟩
  · simp only [effect.flag, true_iff]
    exact inr ⟨tb, mem_singleton_self tb, _, member⟩

theorem AfterInvalidations.of_absent {tb : TbId} (rep : Represents T s σ)
    (absent : tb ∉ σ.bucket ((s.tbs tb).hashIndex T)) : AfterInvalidations T s σ [tb] s σ := by
  have nowhere : ¬ ∃ h, tb ∈ σ.bucket h := fun hashed =>
    absent ((rep.mem_bucket_iff tb).mp hashed)
  refine ⟨rep, SameBlocks.refl s, ?_, ?_, ?_, ?_, fun _ _ => rfl, rfl⟩
  · intro h
    refine (filter_eq_self.mpr fun t inBucket => ?_).symm
    have different : t ≠ tb := fun equal => nowhere ⟨h, equal ▸ inBucket⟩
    simpa using different
  · intro t
    refine ⟨fun live => ⟨live, fun removed => nowhere ?_⟩, And.left⟩
    rw [← mem_singleton.mp removed.1]
    exact removed.2
  · intro t slot onChain
    refine ⟨onChain, fun removed => nowhere ?_⟩
    rw [← mem_singleton.mp removed.1]
    exact removed.2
  · refine ⟨inl, fun either => either.resolve_right ?_⟩
    rintro ⟨t, isTb, hashed⟩
    rw [mem_singleton.mp isTb] at hashed
    exact nowhere hashed

theorem tbPhysInvalidate_after (rep : Represents T s σ) (tb : TbId) :
    ∃ s' σ', tbPhysInvalidate T s tb none = some s' ∧ AfterInvalidations T s σ [tb] s' σ' := by
  by_cases member : tb ∈ σ.bucket ((s.tbs tb).hashIndex T)
  · obtain ⟨s', done, rep', effect⟩ := tbPhysInvalidate_of_mem rep member
    exact ⟨s', σ.without tb, done, effect.after rep member rep'⟩
  · exact ⟨s, σ, tbPhysInvalidate_of_absent rep member none, .of_absent rep member⟩

theorem AfterInvalidations.refl (rep : Represents T s σ) : AfterInvalidations T s σ [] s σ := by
  refine ⟨rep, SameBlocks.refl s, ?_, ?_, ?_, ?_, fun _ _ => rfl, rfl⟩
  · intro h
    simp
  · intro t
    simp
  · intro t slot onChain
    exact ⟨onChain, fun removed => absurd removed.1 not_mem_nil⟩
  · simp

theorem AfterInvalidations.trans {s₁ s₂ : State} {σ₁ σ₂ : Shape} {l₁ l₂ : List TbId}
    (first : AfterInvalidations T s σ l₁ s₁ σ₁) (second : AfterInvalidations T s₁ σ₁ l₂ s₂ σ₂) :
    AfterInvalidations T s σ (l₁ ++ l₂) s₂ σ₂ := by
  have hashed₁ : ∀ t, (∃ h, t ∈ σ₁.bucket h) ↔ (∃ h, t ∈ σ.bucket h) ∧ t ∉ l₁ := by
    simp only [first.bucket, mem_filter, decide_eq_true_eq]
    tauto
  refine ⟨second.rep, first.same.trans second.same, ?_, ?_, ?_, ?_, ?_,
    second.linked.trans first.linked⟩
  · intro h
    rw [second.bucket, first.bucket, filter_filter]
    apply filter_congr
    intro t _
    by_cases inFirst : t ∈ l₁ <;> by_cases inSecond : t ∈ l₂ <;> simp [inSecond]
  · intro t
    rw [second.live, first.live, hashed₁, mem_append]
    by_cases inFirst : t ∈ l₁ <;> simp [inFirst]
  · intro t slot onChain
    obtain ⟨onChain₁, kept₂⟩ := second.chain t slot onChain
    obtain ⟨onChain₀, kept₁⟩ := first.chain t slot onChain₁
    refine ⟨onChain₀, fun removed => ?_⟩
    by_cases inFirst : slot.1 ∈ l₁
    · exact kept₁ ⟨inFirst, removed.2⟩
    · have inSecond := (mem_append.mp removed.1).resolve_left inFirst
      exact kept₂ ⟨inSecond, (hashed₁ slot.1).mpr ⟨removed.2, inFirst⟩⟩
  · rw [second.flag, first.flag]
    constructor
    · rintro ((before | ⟨t, inFirst, hashed⟩) | ⟨t, inSecond, hashed⟩)
      · exact inl before
      · exact inr ⟨t, mem_append_left _ inFirst, hashed⟩
      · exact inr ⟨t, mem_append_right _ inSecond, ((hashed₁ t).mp hashed).1⟩
    · rintro (before | ⟨t, inEither, hashed⟩)
      · exact inl (inl before)
      · by_cases inFirst : t ∈ l₁
        · exact inl (inr ⟨t, inFirst, hashed⟩)
        · have inSecond := (mem_append.mp inEither).resolve_left inFirst
          exact inr ⟨t, inSecond, (hashed₁ t).mpr ⟨hashed, inFirst⟩⟩
  · intro u fresh
    rw [second.hashNext u, first.hashNext u fresh]
    intro h inBucket
    exact ((hashed₁ u).mp ⟨h, inBucket⟩).1.elim fresh

theorem invalidateAll_after (rep : Represents T s σ) (l : List TbId) :
    ∃ s' σ', invalidateAll T s l = some s' ∧ AfterInvalidations T s σ l s' σ' := by
  induction l generalizing s σ with
  | nil => exact ⟨s, σ, rfl, AfterInvalidations.refl rep⟩
  | cons tb rest ih =>
    obtain ⟨s₁, σ₁, first, effect₁⟩ := tbPhysInvalidate_after rep tb
    obtain ⟨s₂, σ₂, others, effect₂⟩ := ih effect₁.rep
    refine ⟨s₂, σ₂, ?_, effect₁.trans effect₂⟩
    rw [invalidateAll, first, Option.bind_some, others]

end Invalidations

/-! ### Records of blocks on no list -/

section Records

variable {T : Target} {s : State} {σ : Shape}

@[simp] theorem State.setTb_self (s : State) (tb : TbId) (block : TranslationBlock) :
    (s.setTb tb block).tbs tb = block := by simp [State.setTb]

theorem State.setTb_of_ne (s : State) {tb t : TbId} (block : TranslationBlock)
    (different : t ≠ tb) : (s.setTb tb block).tbs t = s.tbs t := by
  simp [State.setTb, different]

theorem Represents.setTb (rep : Represents T s σ) {tb : TbId} (dead : ¬ σ.Live tb)
    (block : TranslationBlock) : Represents T (s.setTb tb block) σ := by
  have same : ∀ t, σ.Live t → (s.setTb tb block).tbs t = s.tbs t := by
    intro t live
    have different : t ≠ tb := fun equal => dead (equal ▸ live)
    exact s.setTb_of_ne block different
  constructor
  · exact rep.buckets
  · intro h t member
    rw [same t (rep.bucketLive h t member)]
    exact rep.bucketHome h t member
  · exact rep.bucketLive
  · constructor
    · exact rep.pages.family
    · intro p entry member
      rw [same entry.1 ⟨p, entry.2, member⟩]
      exact rep.pages.home p entry member
    · intro p entry member n q home
      rw [same entry.1 ⟨p, entry.2, member⟩] at home
      exact rep.pages.both p entry member n q home
    · exact rep.pages.leaf
  · exact rep.graph
  · exact rep.liveLinked
  · intro t n live branch isNull
    rw [same t live] at branch
    exact rep.unpatched t n live branch isNull

/-- A block as `tb_alloc` leaves it. -/
structure Fresh (s : State) (σ : Shape) (tb : TbId) : Prop where
  allocated : tb < s.nbTbs
  unlinked : ¬ s.Linked tb
  nextNull : s.hash (.physHashNext tb) = none

theorem Fresh.dead (rep : Represents T s σ) {tb : TbId} (fresh : Fresh s σ tb) : ¬ σ.Live tb :=
  fun live => fresh.unlinked (rep.liveLinked tb live)

theorem Fresh.notMem_bucket (rep : Represents T s σ) {tb : TbId} (fresh : Fresh s σ tb)
    (h : Nat) : tb ∉ σ.bucket h :=
  fun member => fresh.dead rep (rep.bucketLive h tb member)

/-! ### Allocation -/

theorem takeTb_represents (rep : Represents T s σ) (pc : Address) :
    Represents T (takeTb s pc) σ ∧ Fresh (takeTb s pc) σ s.nbTbs := by
  have unused : ∀ t, σ.Live t → t ≠ s.nbTbs := fun t live =>
    Nat.ne_of_lt (rep.lt_of_live live)
  have unlinked : ¬ s.Linked s.nbTbs := fun isLinked => Nat.lt_irrefl _ isLinked.1
  have offPages : ∀ n p, (s.nbTbs, n) ∉ σ.pageList p := fun n p member =>
    unused s.nbTbs ⟨p, n, member⟩ rfl
  have offChains : ∀ n t, (s.nbTbs, n) ∉ σ.chain t := fun n t member =>
    unlinked (rep.graph.source t _ member)
  have buckets := rep.buckets.store (k := .physHashNext s.nbTbs) none fun h _ => by
    rw [show HashCell.physHashNext s.nbTbs = hashRoots.field s.nbTbs from rfl,
      Family.field_mem_cells_iff]
    exact fun member => unused _ (rep.bucketLive h _ member) rfl
  have pages₀ := rep.pages.family.store (k := .pageNext (s.nbTbs, 0)) none fun p _ => by
    rw [show PageCell.pageNext (s.nbTbs, 0) = pageRoots.field (s.nbTbs, 0) from rfl,
      Family.field_mem_cells_iff]
    exact offPages 0 p
  have pages₁ := pages₀.store (k := .pageNext (s.nbTbs, 1)) none fun p _ => by
    rw [show PageCell.pageNext (s.nbTbs, 1) = pageRoots.field (s.nbTbs, 1) from rfl,
      Family.field_mem_cells_iff]
    exact offPages 1 p
  have chains₀ := rep.graph.family.store (k := .jmpFirst s.nbTbs) none fun t active => by
    have different : s.nbTbs ≠ t := fun equal => unlinked (equal ▸ active)
    exact Family.head_notMem_cells (R := jumpRoots) different
  have chains₁ := chains₀.store (k := .jmpNext (s.nbTbs, 0)) none fun t _ => by
    rw [show JumpCell.jmpNext (s.nbTbs, 0) = jumpRoots.field (s.nbTbs, 0) from rfl,
      Family.field_mem_cells_iff]
    exact offChains 0 t
  have chains₂ := chains₁.store (k := .jmpNext (s.nbTbs, 1)) none fun t _ => by
    rw [show JumpCell.jmpNext (s.nbTbs, 1) = jumpRoots.field (s.nbTbs, 1) from rfl,
      Family.field_mem_cells_iff]
    exact offChains 1 t
  have sameBlock : ∀ t, σ.Live t → (takeTb s pc).tbs t = s.tbs t := fun t live =>
    update_of_ne (unused t live) _ s.tbs
  have sameNext : ∀ slot : Slot, slot.1 ≠ s.nbTbs →
      (takeTb s pc).jump (.jmpNext slot) = s.jump (.jmpNext slot) := by
    intro slot different
    have notFirst : slot ≠ (s.nbTbs, 0) := fun equal => different (by rw [equal])
    have notSecond : slot ≠ (s.nbTbs, 1) := fun equal => different (by rw [equal])
    simp only [takeTb]
    rw [update_of_ne (by simpa using notSecond),
      update_of_ne (by simpa using notFirst), update_of_ne (by simp)]
  have linkedIff : ∀ t, s.Linked t ↔ t < s.nbTbs + 1 ∧ (takeTb s pc).jump (.jmpFirst t) ≠ none := by
    intro t
    simp only [takeTb]
    rw [update_of_ne (by simp), update_of_ne (by simp)]
    by_cases isNew : t = s.nbTbs
    · rw [isNew, update_self]
      simp [unlinked]
    · rw [update_of_ne (by simpa using isNew), State.Linked]
      have below : t < s.nbTbs + 1 ↔ t < s.nbTbs :=
        ⟨fun less => (Nat.lt_succ_iff_lt_or_eq.mp less).resolve_right isNew, Nat.lt_succ_of_lt⟩
      rw [below]
  have graph : JumpGraph (takeTb s pc).jump s.jmpTarget (s.nbTbs + 1) s.Linked σ.chain := by
    refine ⟨chains₂, rep.graph.target, rep.graph.source, ?_, linkedIff⟩
    intro slot sourceLinked notNull
    have different : slot.1 ≠ s.nbTbs := fun equal => unlinked (equal ▸ sourceLinked)
    rw [sameNext slot different] at notNull
    exact rep.graph.complete slot sourceLinked notNull
  have linkedSame := graph.linked_eq (takeTb s pc) rfl rfl
  constructor
  · constructor
    · exact buckets
    · intro h t member
      rw [sameBlock t (rep.bucketLive h t member)]
      exact rep.bucketHome h t member
    · exact rep.bucketLive
    · constructor
      · exact pages₁
      · intro p entry member
        rw [sameBlock entry.1 ⟨p, entry.2, member⟩]
        exact rep.pages.home p entry member
      · intro p entry member n q home
        rw [sameBlock entry.1 ⟨p, entry.2, member⟩] at home
        exact rep.pages.both p entry member n q home
      · exact rep.pages.leaf
    · rw [linkedSame]
      exact graph
    · rw [linkedSame]
      exact rep.liveLinked
    · intro t n live branch isNull
      rw [sameBlock t live] at branch
      rw [sameNext (t, n) (unused t live)] at isNull
      exact rep.unpatched t n live branch isNull
  · constructor
    · exact Nat.lt_succ_self s.nbTbs
    · rw [linkedSame]
      exact unlinked
    · exact update_self _ _ _

/-! ### Flush -/

def Shape.empty : Shape where
  bucket _ := []
  pageList _ := []
  chain _ := []

theorem Shape.empty_not_live (tb : TbId) : ¬ Shape.empty.Live tb := by
  rintro ⟨p, n, member⟩
  exact absurd member not_mem_nil

theorem represents_empty (T : Target) (s : State) (noBlocks : s.nbTbs = 0)
    (buckets : ∀ h, s.hash (.bucket h) = none) (pages : ∀ p, s.page (.firstTb p) = none) :
    Represents T s Shape.empty := by
  have unlinked : ∀ t, ¬ s.Linked t := by
    intro t isLinked
    have below := isLinked.1
    rw [noBlocks] at below
    exact Nat.not_lt_zero t below
  have noMember : ∀ {α : Type} {a : α}, a ∉ ([] : List α) := not_mem_nil
  constructor
  · exact ⟨fun h _ => buckets h, fun _ => nodup_nil, fun _ _ _ member => (noMember member).elim,
      fun _ _ => rfl⟩
  · exact fun _ _ member => (noMember member).elim
  · exact fun _ _ member => (noMember member).elim
  · constructor
    · exact ⟨fun p _ => pages p, fun _ => nodup_nil,
        fun _ _ _ member => (noMember member).elim, fun _ _ => rfl⟩
    · exact fun _ _ member => (noMember member).elim
    · exact fun _ _ member => (noMember member).elim
    · exact fun _ nonempty => absurd rfl nonempty
  · constructor
    · exact ⟨fun t active => (unlinked t active).elim, fun _ => nodup_nil,
        fun _ _ _ member => (noMember member).elim, fun _ _ => rfl⟩
    · exact fun _ _ member => (noMember member).elim
    · exact fun _ _ member => (noMember member).elim
    · exact fun slot isLinked => (unlinked slot.1 isLinked).elim
    · exact fun _ => Iff.rfl
  · exact fun t live => (Shape.empty_not_live t live).elim
  · exact fun t _ live => (Shape.empty_not_live t live).elim

theorem tbFlush_represents (rep : Represents T s σ) (expanded : CodeBuffer) :
    Represents T { tbFlush s with codeBuffer := expanded } Shape.empty := by
  apply represents_empty
  · rfl
  · intro h
    rfl
  · intro p
    by_cases leaf : s.leafAllocated (leafOf p) = true
    · simp [tbFlush, pageFlushTb, leaf]
    · have isEmpty : σ.pageList p = [] := by
        by_contra nonempty
        exact leaf (rep.pages.leaf p nonempty)
      have head := rep.pages.family.segment p trivial
      rw [isEmpty] at head
      have skipped : (tbFlush s).page (.firstTb p) = s.page (.firstTb p) := by
        simp [tbFlush, pageFlushTb, leaf]
      exact skipped.trans head

/-! ### Linking -/

def linkPages (tb : TbId) (p₀ : Nat) (p₁ : Option Nat) (pageList : Nat → List Slot) :
    Nat → List Slot :=
  let first := update pageList p₀ ((tb, 0) :: pageList p₀)
  match p₁ with
  | none => first
  | some p₁ => update first p₁ ((tb, 1) :: first p₁)

def Shape.link (σ : Shape) (tb : TbId) (p₀ : Nat) (p₁ : Option Nat) : Shape :=
  { σ with pageList := linkPages tb p₀ p₁ σ.pageList }

theorem mem_update_cons {α : Type} {f : Nat → List α} {q : Nat} {a b : α} {p : Nat} :
    b ∈ update f q (a :: f q) p ↔ b ∈ f p ∨ (b = a ∧ p = q) := by
  by_cases equal : p = q
  · rw [equal, update_self, mem_cons]
    tauto
  · rw [update_of_ne equal]
    tauto

theorem mem_linkPages {tb : TbId} {p₀ : Nat} {p₁ : Option Nat} {pageList : Nat → List Slot}
    {entry : Slot} {p : Nat} :
    entry ∈ linkPages tb p₀ p₁ pageList p ↔
      entry ∈ pageList p ∨ (entry = (tb, 0) ∧ p = p₀) ∨ (entry = (tb, 1) ∧ p₁ = some p) := by
  cases p₁ with
  | none =>
    rw [linkPages, mem_update_cons]
    simp
  | some q =>
    rw [linkPages, mem_update_cons, mem_update_cons, Option.some.injEq, eq_comm (a := q), or_assoc]

theorem Shape.live_link (σ : Shape) (tb : TbId) (p₀ : Nat) (p₁ : Option Nat) (t : TbId) :
    (σ.link tb p₀ p₁).Live t ↔ σ.Live t ∨ t = tb := by
  simp only [Shape.Live, Shape.link, mem_linkPages]
  constructor
  · rintro ⟨p, n, before | ⟨isFirst, -⟩ | ⟨isSecond, -⟩⟩
    · exact inl ⟨p, n, before⟩
    · exact inr (Prod.mk.inj isFirst).1
    · exact inr (Prod.mk.inj isSecond).1
  · rintro (⟨p, n, before⟩ | rfl)
    · exact ⟨p, n, inl before⟩
    · exact ⟨p₀, 0, inr (inl ⟨rfl, rfl⟩)⟩

/-- The record of a block after `tb_link_page`. -/
def TranslationBlock.linked (block : TranslationBlock) (physPage1 : Address)
    (physPage2 : Option Address) : TranslationBlock :=
  { block with
    pageAddr0 := clearExecutableIo physPage1
    pageAddr1 := physPage2.map clearExecutableIo }

theorem TranslationBlock.pageOf_linked (block : TranslationBlock) (physPage1 : Address)
    (physPage2 : Option Address) (n : Fin 2) :
    (block.linked physPage1 physPage2).pageOf T n =
      if n = 0 then some (T.pageIndex (clearExecutableIo physPage1))
      else physPage2.map fun page => T.pageIndex (clearExecutableIo page) := by
  simp only [TranslationBlock.pageOf, TranslationBlock.linked, Option.map_map]
  rfl

section Link

variable {tb : TbId} {physPage1 : Address} {physPage2 : Option Address}

theorem tbLinkPage_tbs : (tbLinkPage T s tb physPage1 physPage2).tbs =
    update s.tbs tb ((s.tbs tb).linked physPage1 physPage2) := by
  have notFirst : ¬ (1 : Fin 2) = 0 := by decide
  cases physPage2 <;>
    simp [tbLinkPage, tbAllocPage, invalidatePageBitmap, pageFindAlloc, TranslationBlock.linked]

theorem linkPages_table {pageList : Nat → List Slot}
    (table : PageTable T s.tbs s.page s.leafAllocated pageList)
    (absent : ∀ p n, (tb, n) ∉ pageList p) :
    PageTable T (tbLinkPage T s tb physPage1 physPage2).tbs
      (tbLinkPage T s tb physPage1 physPage2).page
      (tbLinkPage T s tb physPage1 physPage2).leafAllocated
      (linkPages tb (T.pageIndex (clearExecutableIo physPage1))
        (physPage2.map fun page => T.pageIndex (clearExecutableIo page)) pageList) := by
  have other : ∀ p, ∀ entry ∈ pageList p, entry.1 ≠ tb := fun p entry member equal =>
    absent p entry.2 (equal ▸ member)
  have kept : ∀ p, ∀ entry ∈ pageList p,
      (tbLinkPage T s tb physPage1 physPage2).tbs entry.1 = s.tbs entry.1 := by
    intro p entry member
    rw [tbLinkPage_tbs]
    exact update_of_ne (other p entry member) _ s.tbs
  have own : (tbLinkPage T s tb physPage1 physPage2).tbs tb =
      (s.tbs tb).linked physPage1 physPage2 := by
    rw [tbLinkPage_tbs]
    exact update_self _ _ _
  constructor
  · have first := pages_push (p := T.pageIndex (clearExecutableIo physPage1)) table.family
      fun p => absent p 0
    cases physPage2 with
    | none => exact first
    | some page =>
      refine pages_push (p := T.pageIndex (clearExecutableIo page)) first fun p member => ?_
      rcases mem_update_cons.mp member with before | ⟨equal, -⟩
      · exact absent p 1 before
      · exact absurd (Prod.mk.inj equal).2 (by decide)
  · intro p entry member
    rcases mem_linkPages.mp member with before | ⟨rfl, rfl⟩ | ⟨rfl, second⟩
    · rw [kept p entry before]
      exact table.home p entry before
    · rw [own, TranslationBlock.pageOf_linked, if_pos rfl]
    · rw [own, TranslationBlock.pageOf_linked, if_neg (show (1 : Fin 2) ≠ 0 by decide)]
      exact second
  · intro p entry member n q home
    rw [mem_linkPages] at member ⊢
    by_cases isTb : entry.1 = tb
    · rw [isTb, own, TranslationBlock.pageOf_linked] at home
      rw [isTb]
      by_cases isFirst : n = 0
      · rw [if_pos isFirst, Option.some.injEq] at home
        exact inr (inl ⟨by rw [isFirst], home.symm⟩)
      · rw [if_neg isFirst] at home
        have isSecond : n = 1 := by omega
        exact inr (inr ⟨by rw [isSecond], home⟩)
    · rcases member with before | ⟨equal, -⟩ | ⟨equal, -⟩
      · rw [kept p entry before] at home
        exact inl (table.both p entry before n q home)
      · exact absurd (congrArg Prod.fst equal) isTb
      · exact absurd (congrArg Prod.fst equal) isTb
  · intro p nonempty
    obtain ⟨entry, member⟩ := exists_mem_of_ne_nil _ nonempty
    have grown : ∀ q, (q = p ∨ s.leafAllocated (leafOf p) = true) →
        update s.leafAllocated (leafOf q) true (leafOf p) = true := by
      rintro q (rfl | before)
      · exact update_self _ _ _
      · by_cases same : leafOf p = leafOf q
        · rw [same]
          exact update_self _ _ _
        · rwa [update_of_ne same]
    cases physPage2 with
    | none =>
      apply grown
      rcases mem_linkPages.mp member with before | ⟨-, equal⟩ | ⟨-, second⟩
      · exact inr (table.leaf p (ne_nil_of_mem before))
      · exact inl equal.symm
      · exact absurd second (by simp)
    | some page =>
      change update (update s.leafAllocated _ true) _ true (leafOf p) = true
      rcases mem_linkPages.mp member with before | ⟨-, equal⟩ | ⟨-, second⟩
      · have old := table.leaf p (ne_nil_of_mem before)
        rw [update_apply, grown _ (inr old), ite_self]
      · rw [update_apply, grown _ (inl equal.symm), ite_self]
      · simp only [Option.map_some, Option.some.injEq] at second
        rw [second]
        exact update_self _ _ _

theorem tbLinkPage_hash : (tbLinkPage T s tb physPage1 physPage2).hash = s.hash := by
  cases physPage2 <;> rfl

theorem tbLinkPage_nbTbs : (tbLinkPage T s tb physPage1 physPage2).nbTbs = s.nbTbs := by
  cases physPage2 <;> rfl

theorem tbLinkPage_flag :
    (tbLinkPage T s tb physPage1 physPage2).tbInvalidatedFlag = s.tbInvalidatedFlag := by
  cases physPage2 <;> rfl

theorem tbLinkPage_jump : (tbLinkPage T s tb physPage1 physPage2).jump = update (update
      (update s.jump (.jmpFirst tb) (some (.owner tb)))
      (.jmpNext (tb, 0)) none) (.jmpNext (tb, 1)) none := by
  cases physPage2 <;> rfl

theorem tbLinkPage_jmpTarget : (∀ slot : Slot, slot.1 ≠ tb →
      (tbLinkPage T s tb physPage1 physPage2).jmpTarget slot = s.jmpTarget slot) ∧
    ∀ n, (s.tbs tb).hasBranch n = true →
      (tbLinkPage T s tb physPage1 physPage2).jmpTarget (tb, n) = .ownExit := by
  have shape : (tbLinkPage T s tb physPage1 physPage2).jmpTarget = (if (s.tbs tb).hasBranch 1 then
        tbResetJump (if (s.tbs tb).hasBranch 0 then tbResetJump s.jmpTarget (tb, 0)
          else s.jmpTarget) (tb, 1)
      else if (s.tbs tb).hasBranch 0 then tbResetJump s.jmpTarget (tb, 0) else s.jmpTarget) := by
    have branch : ∀ n, ((tbLinkPage T s tb physPage1 physPage2).tbs tb).hasBranch n =
        (s.tbs tb).hasBranch n := by
      intro n
      rw [tbLinkPage_tbs, update_self]
      rfl
    rw [← branch 0, ← branch 1]
    cases physPage2 <;> rfl
  rw [shape]
  constructor
  · intro slot different
    have notFirst : slot ≠ (tb, 0) := fun equal => different (by rw [equal])
    have notSecond : slot ≠ (tb, 1) := fun equal => different (by rw [equal])
    split_ifs <;> simp [tbResetJump, notFirst, notSecond]
  · intro n branch
    have cases : n = 0 ∨ n = 1 := by omega
    rcases cases with rfl | rfl
    · by_cases second : (s.tbs tb).hasBranch 1 = true <;> simp [tbResetJump, branch, second]
    · simp [tbResetJump, branch]

theorem tbLinkPage_represents (rep : Represents T s σ) (fresh : Fresh s σ tb)
    (physPage1 : Address) (physPage2 : Option Address) :
    Represents T (tbLinkPage T s tb physPage1 physPage2)
        (σ.link tb (T.pageIndex (clearExecutableIo physPage1))
          (physPage2.map fun page => T.pageIndex (clearExecutableIo page))) ∧
      (tbLinkPage T s tb physPage1 physPage2).Linked = fun t => s.Linked t ∨ t = tb := by
  have dead := fresh.dead rep
  have offChains : ∀ n t, (tb, n) ∉ σ.chain t := fun n t member =>
    fresh.unlinked (rep.graph.source t _ member)
  have other : ∀ t, σ.Live t → t ≠ tb := fun t live equal => dead (equal ▸ live)
  have sameBlock : ∀ t, σ.Live t → (tbLinkPage T s tb physPage1 physPage2).tbs t = s.tbs t := by
    intro t live
    rw [tbLinkPage_tbs]
    exact update_of_ne (other t live) _ s.tbs
  have chains₀ := rep.graph.family.activate fresh.unlinked
  have chains₁ := chains₀.store (k := .jmpNext (tb, 0)) none fun t _ => by
    rw [show JumpCell.jmpNext (tb, 0) = jumpRoots.field (tb, 0) from rfl,
      Family.field_mem_cells_iff]
    exact offChains 0 t
  have chains₂ := chains₁.store (k := .jmpNext (tb, 1)) none fun t _ => by
    rw [show JumpCell.jmpNext (tb, 1) = jumpRoots.field (tb, 1) from rfl,
      Family.field_mem_cells_iff]
    exact offChains 1 t
  have sameNext : ∀ slot : Slot, slot.1 ≠ tb →
      (tbLinkPage T s tb physPage1 physPage2).jump (.jmpNext slot) = s.jump (.jmpNext slot) := by
    intro slot different
    have notFirst : slot ≠ (tb, 0) := fun equal => different (by rw [equal])
    have notSecond : slot ≠ (tb, 1) := fun equal => different (by rw [equal])
    rw [tbLinkPage_jump, update_of_ne (by simpa using notSecond),
      update_of_ne (by simpa using notFirst), update_of_ne (by simp)]
  have graph : JumpGraph (tbLinkPage T s tb physPage1 physPage2).jump
      (tbLinkPage T s tb physPage1 physPage2).jmpTarget s.nbTbs (fun t => s.Linked t ∨ t = tb)
      σ.chain := by
    constructor
    · rw [tbLinkPage_jump]
      exact chains₂
    · intro t slot member
      have different : slot.1 ≠ tb := fun equal =>
        offChains slot.2 t (equal ▸ member)
      rw [tbLinkPage_jmpTarget.1 slot different]
      exact rep.graph.target t slot member
    · exact fun t slot member => inl (rep.graph.source t slot member)
    · intro slot sourceLinked notNull
      by_cases isTb : slot.1 = tb
      · obtain ⟨source, n⟩ := slot
        have cases : n = 0 ∨ n = 1 := by omega
        have sameSource : source = tb := isTb
        rw [sameSource, tbLinkPage_jump] at notNull
        rcases cases with rfl | rfl
        · simp at notNull
        · simp at notNull
      · rw [sameNext slot isTb] at notNull
        exact rep.graph.complete slot (sourceLinked.resolve_right isTb) notNull
    · intro t
      rw [tbLinkPage_jump, update_of_ne (by simp), update_of_ne (by simp)]
      by_cases isTb : t = tb
      · rw [isTb, update_self]
        simp [fresh.allocated]
      · rw [update_of_ne (by simpa using isTb)]
        simp only [isTb, or_false]
        exact Iff.rfl
  have linkedSame := graph.linked_eq (tbLinkPage T s tb physPage1 physPage2) rfl
    tbLinkPage_nbTbs
  refine ⟨?_, linkedSame⟩
  constructor
  · rw [tbLinkPage_hash]
    exact rep.buckets
  · intro h t member
    rw [sameBlock t (rep.bucketLive h t member)]
    exact rep.bucketHome h t member
  · intro h t member
    exact (σ.live_link tb _ _ t).mpr (inl (rep.bucketLive h t member))
  · exact linkPages_table rep.pages fun p n member => dead ⟨p, n, member⟩
  · rw [linkedSame, tbLinkPage_nbTbs]
    exact graph
  · intro t live
    rw [linkedSame]
    exact ((σ.live_link tb _ _ t).mp live).imp_left (rep.liveLinked t)
  · intro t n live branch isNull
    by_cases isTb : t = tb
    · subst isTb
      apply tbLinkPage_jmpTarget.2 n
      rw [tbLinkPage_tbs, update_self] at branch
      exact branch
    · have before := ((σ.live_link tb _ _ t).mp live).resolve_right isTb
      rw [sameBlock t before] at branch
      rw [sameNext (t, n) isTb] at isNull
      rw [tbLinkPage_jmpTarget.1 (t, n) isTb]
      exact rep.unpatched t n before branch isNull

end Link

/-! ### `tb_gen_code` -/

theorem CodeBuffer.room (s : State) (expanded : CodeBuffer) :
    State.full { tbFlush s with codeBuffer := expanded } = false := by
  have blocks := expanded.maxBlocks_pos
  have bytes := expanded.maxSize_pos
  simp only [State.full, tbFlush, pageFlushTb, Bool.or_eq_false_iff, decide_eq_false_iff_not]
  omega

/-- The lists that survive the allocation of a block. -/
def Shape.unlessFull (σ : Shape) (full : Bool) : Shape := if full then Shape.empty else σ

theorem allocOrFlush_eq (rep : Represents T s σ) (pc : Address) (expanded : CodeBuffer) :
    ∃ s' tb, allocOrFlush s pc expanded = some (s', tb) ∧
      Represents T s' (σ.unlessFull s.full) ∧ Fresh s' (σ.unlessFull s.full) tb ∧
      s'.tbs tb = .allocated pc ∧ (s.full = false → tb = s.nbTbs) ∧
      (∀ t, (σ.unlessFull s.full).Live t → s'.tbs t = s.tbs t) ∧
      (s'.tbInvalidatedFlag = true ↔ s.tbInvalidatedFlag = true ∨ s.full = true) := by
  cases full : s.full with
  | false =>
    obtain ⟨rep', fresh⟩ := takeTb_represents rep pc
    have taken : tbAlloc s pc = some (takeTb s pc, s.nbTbs) := by simp [tbAlloc, full]
    refine ⟨takeTb s pc, s.nbTbs, by rw [allocOrFlush, taken], rep', fresh, ?_, fun _ => rfl,
      ?_, ?_⟩
    · exact update_self s.nbTbs (TranslationBlock.allocated pc) s.tbs
    · intro t live
      exact update_of_ne (Nat.ne_of_lt (rep.lt_of_live live)) _ s.tbs
    · simp [takeTb]
  | true =>
    have room := CodeBuffer.room s expanded
    obtain ⟨rep', fresh⟩ := takeTb_represents (tbFlush_represents rep expanded) pc
    have none₁ : tbAlloc s pc = none := by simp [tbAlloc, full]
    have taken : tbAlloc { tbFlush s with codeBuffer := expanded } pc =
        some (takeTb { tbFlush s with codeBuffer := expanded } pc, 0) := by
      rw [tbAlloc, if_neg (by simp [room])]
      rfl
    refine ⟨{ takeTb { tbFlush s with codeBuffer := expanded } pc with
      tbInvalidatedFlag := true }, 0, ?_, ?_, ?_, ?_, by simp, ?_, ?_⟩
    · rw [allocOrFlush, none₁]
      simp [taken]
    · exact ⟨rep'.buckets, rep'.bucketHome, rep'.bucketLive, rep'.pages, rep'.graph,
        rep'.liveLinked, rep'.unpatched⟩
    · exact ⟨fresh.allocated, fresh.unlinked, fresh.nextNull⟩
    · exact update_self 0 (TranslationBlock.allocated pc) s.tbs
    · exact fun t live => (Shape.empty_not_live t live).elim
    · simp

def Generation.invalidated (gen : Generation) : List TbId :=
  gen.beforeAlloc ++ gen.duringTranslation

/-- The state in which `tb_gen_code` returns. -/
structure Generated (T : Target) (s : State) (σ : Shape) (pages : PageMap)
    (pc csBase flags : Nat) (gen : Generation) (s' : State) (tb : TbId) (σ' : Shape) : Prop where
  rep : Represents T s' σ'
  live : ∀ t, σ'.Live t ↔ t = tb ∨
    (s.full = false ∧ σ.Live t ∧ ¬ (t ∈ gen.invalidated ∧ ∃ h, t ∈ σ.bucket h))
  bucket : ∀ h, σ'.bucket h =
    if s.full then [] else (σ.bucket h).filter fun t => t ∉ gen.invalidated
  chain : ∀ t, ∀ slot ∈ σ'.chain t, s.full = false ∧ slot ∈ σ.chain t ∧
    ¬ (slot.1 ∈ gen.invalidated ∧ ∃ h, slot.1 ∈ σ.bucket h)
  isNew : s.full = false → ¬ σ.Live tb
  unhashed : ∀ h, tb ∉ σ'.bucket h
  nextNull : s'.hash (.physHashNext tb) = none
  record : s'.tbs tb = {
    pc := pc, csBase := csBase, flags := flags, dirtyFlag := false
    size := gen.size, icount := gen.icount, wasCut := gen.wasCut
    pageAddr0 := getPageAddrCode T pages pc
    pageAddr1 := secondPage T pages pc gen.size
    tbNextOffset := gen.tbNextOffset }
  others : ∀ t, σ'.Live t → t ≠ tb → s'.tbs t = s.tbs t
  flag : s'.tbInvalidatedFlag = true ↔
    s.tbInvalidatedFlag = true ∨ s.full = true ∨ ∃ t ∈ gen.invalidated, ∃ h, t ∈ σ.bucket h

theorem clearExecutableIo_getPageAddrCode (T : Target) (pages : PageMap) (pc : Address) :
    clearExecutableIo (getPageAddrCode T pages pc) = getPageAddrCode T pages pc :=
  clearExecutableIo_pageBase T _

theorem clearExecutableIo_secondPage (T : Target) (pages : PageMap) (pc : Address) (size : Nat) :
    (secondPage T pages pc size).map clearExecutableIo = secondPage T pages pc size := by
  simp only [secondPage]
  split_ifs
  · rw [Option.map_some, clearExecutableIo_getPageAddrCode]
  · rfl

theorem survives_iff {kept live first second hashed : Prop} :
    (kept ∧ live ∧ ¬(first ∧ hashed)) ∧ ¬(second ∧ kept ∧ ¬first ∧ hashed) ↔
      kept ∧ live ∧ ¬((first ∨ second) ∧ hashed) := by
  tauto

theorem tbGenCode_eq (rep : Represents T s σ) (pages : PageMap) (pc csBase flags : Nat)
    (gen : Generation) :
    ∃ s' tb σ', tbGenCode T s pages pc csBase flags gen = some (s', tb) ∧
      Generated T s σ pages pc csBase flags gen s' tb σ' := by
  obtain ⟨s₁, σ₁, before, effect₁⟩ := invalidateAll_after rep gen.beforeAlloc
  obtain ⟨s₂, tb, allocated, rep₂, fresh₂, record₂, isNext, kept₂, flag₂⟩ :=
    allocOrFlush_eq effect₁.rep pc gen.expanded
  rw [effect₁.same.full] at rep₂ fresh₂ isNext kept₂ flag₂
  have dead₂ := fresh₂.dead rep₂
  have rep₃ := rep₂.setTb dead₂ { s₂.tbs tb with csBase := csBase, flags := flags }
  obtain ⟨s₄, σ₄, during, effect₄⟩ := invalidateAll_after rep₃ gen.duringTranslation
  have fresh₄ : Fresh s₄ σ₄ tb := by
    constructor
    · rw [effect₄.same.nbTbs]
      exact fresh₂.allocated
    · rw [effect₄.linked]
      exact fresh₂.unlinked
    · rw [effect₄.hashNext tb (fresh₂.notMem_bucket rep₂)]
      exact fresh₂.nextNull
  have dead₄ := fresh₄.dead effect₄.rep
  have rep₅ := effect₄.rep.setTb dead₄ { s₄.tbs tb with
    size := gen.size, icount := gen.icount, wasCut := gen.wasCut, tbNextOffset := gen.tbNextOffset }
  have record₄ : s₄.tbs tb =
      { TranslationBlock.allocated pc with csBase := csBase, flags := flags } := by
    rw [effect₄.same.tbs, State.setTb_self, record₂]
  have hashed : ∀ t, (∃ h, t ∈ (σ₁.unlessFull s.full).bucket h) ↔
      s.full = false ∧ t ∉ gen.beforeAlloc ∧ ∃ h, t ∈ σ.bucket h := by
    intro t
    cases full : s.full
    · simp only [Shape.unlessFull, Bool.false_eq_true, if_false, effect₁.bucket, mem_filter,
        decide_eq_true_eq, true_and]
      exact ⟨fun ⟨h, inBucket, outside⟩ => ⟨outside, h, inBucket⟩,
        fun ⟨outside, h, inBucket⟩ => ⟨h, inBucket, outside⟩⟩
    · simp [Shape.unlessFull, Shape.empty]
  have alive : ∀ t, (σ₁.unlessFull s.full).Live t ↔
      s.full = false ∧ σ.Live t ∧ ¬ (t ∈ gen.beforeAlloc ∧ ∃ h, t ∈ σ.bucket h) := by
    intro t
    cases full : s.full
    · simp [Shape.unlessFull, effect₁.live]
    · simp [Shape.unlessFull, Shape.empty_not_live]
  have alive₄ : ∀ t, σ₄.Live t ↔
      s.full = false ∧ σ.Live t ∧ ¬ (t ∈ gen.invalidated ∧ ∃ h, t ∈ σ.bucket h) := by
    intro t
    rw [effect₄.live, hashed, alive, Generation.invalidated, mem_append]
    exact survives_iff
  have bucket₄ : ∀ h, σ₄.bucket h =
      if s.full then [] else (σ.bucket h).filter fun t => t ∉ gen.invalidated := by
    intro h
    rw [effect₄.bucket]
    cases full : s.full
    · rw [Shape.unlessFull, if_neg Bool.false_ne_true, if_neg Bool.false_ne_true, effect₁.bucket,
        filter_filter]
      simp [Generation.invalidated, Bool.and_comm]
    · simp [Shape.unlessFull, Shape.empty]
  have rep₆ : Represents T (finishTranslation s₄ tb gen) σ₄ :=
    ⟨rep₅.buckets, rep₅.bucketHome, rep₅.bucketLive, rep₅.pages, rep₅.graph, rep₅.liveLinked,
      rep₅.unpatched⟩
  have linked := tbLinkPage_represents rep₆ ⟨fresh₄.allocated, fresh₄.unlinked, fresh₄.nextNull⟩
    (getPageAddrCode T pages pc) (secondPage T pages pc gen.size)
  refine ⟨tbLinkPage T (finishTranslation s₄ tb gen) tb (getPageAddrCode T pages pc)
    (secondPage T pages pc gen.size), tb,
    σ₄.link tb (T.pageIndex (clearExecutableIo (getPageAddrCode T pages pc)))
      ((secondPage T pages pc gen.size).map fun page => T.pageIndex (clearExecutableIo page)),
    ?_, ?_⟩
  · simp [tbGenCode, before, allocated, during]
  · constructor
    · exact linked.1
    · intro t
      rw [Shape.live_link, alive₄, or_comm]
    · exact bucket₄
    · intro t slot onChain
      obtain ⟨onChain₂, kept⟩ := effect₄.chain t slot onChain
      rw [hashed] at kept
      cases full : s.full
      · rw [full, Shape.unlessFull, if_neg Bool.false_ne_true] at onChain₂
        obtain ⟨onChain₀, kept₁⟩ := effect₁.chain t slot onChain₂
        refine ⟨rfl, onChain₀, fun removed => ?_⟩
        rw [Generation.invalidated, mem_append] at removed
        by_cases inBefore : slot.1 ∈ gen.beforeAlloc
        · exact kept₁ ⟨inBefore, removed.2⟩
        · exact kept ⟨removed.1.resolve_left inBefore, full, inBefore, removed.2⟩
      · rw [full] at onChain₂
        exact absurd onChain₂ not_mem_nil
    · intro room live
      have below := rep.lt_of_live live
      rw [isNext room, effect₁.same.nbTbs] at below
      exact Nat.lt_irrefl _ below
    · exact fun h => fresh₄.notMem_bucket effect₄.rep h
    · rw [tbLinkPage_hash]
      exact fresh₄.nextNull
    · rw [tbLinkPage_tbs, update_self]
      simp [finishTranslation, TranslationBlock.linked, record₄, TranslationBlock.allocated,
        clearExecutableIo_getPageAddrCode, clearExecutableIo_secondPage]
    · intro t live other
      have before₄ := ((Shape.live_link _ _ _ _ t).mp live).resolve_right other
      have before₂ := ((effect₄.live t).mp before₄).1
      rw [tbLinkPage_tbs, update_of_ne other]
      exact ((s₄.setTb_of_ne _ other).trans
        ((congrFun effect₄.same.tbs t).trans (s₂.setTb_of_ne _ other))).trans
        ((kept₂ t before₂).trans (congrFun effect₁.same.tbs t))
    · rw [tbLinkPage_flag]
      change s₄.tbInvalidatedFlag = true ↔ _
      rw [effect₄.flag]
      change (s₂.tbInvalidatedFlag = true ∨ _) ↔ _
      rw [flag₂, effect₁.flag]
      constructor
      · rintro (((before | ⟨t, inBefore, inBucket⟩) | full) | ⟨t, inDuring, inBucket⟩)
        · exact inl before
        · exact inr (inr ⟨t, mem_append_left _ inBefore, inBucket⟩)
        · exact inr (inl full)
        · exact inr (inr ⟨t, mem_append_right _ inDuring, ((hashed t).mp inBucket).2.2⟩)
      · rintro (before | full | ⟨t, inEither, inBucket⟩)
        · exact inl (inl (inl before))
        · exact inl (inr full)
        · by_cases inBefore : t ∈ gen.beforeAlloc
          · exact inl (inl (inr ⟨t, inBefore, inBucket⟩))
          · have inDuring := (mem_append.mp inEither).resolve_left inBefore
            cases full : s.full
            · exact inr ⟨t, inDuring, by
                have still := (hashed t).mpr ⟨full, inBefore, inBucket⟩
                rwa [full] at still⟩
            · exact inl (inr rfl)

end Records

end Tlib.TranslationCache
