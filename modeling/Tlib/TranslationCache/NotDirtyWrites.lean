import Tlib.TranslationCache.BucketLoss
import Tlib.TranslationCache.CodeBitmap

/-!
Contract: writes to pages with translated code.

Owns: the handlers of such writes with the lookup in the code bitmap. Does not own: the way to a
handler; `io_write` calls them for an entry of `IO_MEM_NOTDIRTY`. Where the executing block changes
itself, the block of one instruction that is generated behind the invalidation is a step of its own.
-/

namespace Tlib.TranslationCache

open Tlib.Library.Linked Bool Nat Option

/-! ### The lookup -/

/-- `b & ((1 << len) - 1)` -/
def bitmapHit (bits : Nat → BitVec 8) (offset len : Nat) : Bool :=
  ((bits (offset / 8)).toNat >>> (offset % 8)) &&& (2 ^ len - 1) ≠ 0

/-- `tb_invalidate_phys_page_fast`, with its calls of the inner function. -/
def tbInvalidatePhysPageFast (T : Target) (s : State) (start : Address) (len : Nat) :
    Option (State × List SubRange) :=
  match pageFind s (T.pageIndex start) with
  | none => some (s, [])
  | some p =>
    match s.codeBitmap p with
    | some bits =>
      if bitmapHit bits (T.pageOffset start) len then
        tbInvalidatePhysPageRangeChecked T none s start (start + len) true
      else some (s, [])
    | none => tbInvalidatePhysPageRangeChecked T none s start (start + len) true

/-! ### Pages that are protected -/

structure GuardedCache where
  cache : State
  /-- `flags.dirty` of the page descriptors. -/
  dirty : Nat → Bool

/-- `tlb_protect_code` in `tb_alloc_page`: the page had no code. -/
def protects (T : Target) (s : State) (tb : TbId) (p : Nat) : Bool :=
  ((s.tbs tb).pageOf T 0 = some p && s.page (.pageNext (tb, 0)) = none) ||
    ((s.tbs tb).pageOf T 1 = some p && s.page (.pageNext (tb, 1)) = none)

/-- `tlb_unprotect_code_phys` after a call of `tb_invalidate_phys_page_range_inner` for a write. -/
def unprotects (T : Target) (s : State) (visited : List SubRange) (p : Nat) : Bool :=
  visited.any fun range => T.pageIndex range.start = p && (pageFind s p).isSome &&
    s.page (.firstTb p) = none

namespace GuardedCache

/-- After a block was linked. -/
def protect (T : Target) (m : GuardedCache) (s : State) (tb : TbId) : GuardedCache where
  cache := s
  dirty p := m.dirty p && !protects T s tb p

/-- After an invalidation by a write. -/
def unprotect (T : Target) (m : GuardedCache) (s : State) (visited : List SubRange) :
    GuardedCache where
  cache := s
  dirty p := m.dirty p || unprotects T s visited p

def notdirtyMemWrite (T : Target) (len : Nat) (m : GuardedCache) (ramAddr : Address) :
    Option GuardedCache :=
  if m.dirty (T.pageIndex ramAddr) then some m
  else (tbInvalidatePhysPageFast T m.cache ramAddr len).map fun r => m.unprotect T r.1 r.2

def notdirtyMemWriteb (T : Target) : GuardedCache → Address → Option GuardedCache :=
  notdirtyMemWrite T 1

def notdirtyMemWritew (T : Target) : GuardedCache → Address → Option GuardedCache :=
  notdirtyMemWrite T 2

def notdirtyMemWritel (T : Target) : GuardedCache → Address → Option GuardedCache :=
  notdirtyMemWrite T 2

end GuardedCache

inductive WriteSize where
  | byte
  | word
  | doubleWord
deriving DecidableEq

namespace WriteSize

def bytes : WriteSize → Nat
  | byte => 1
  | word => 2
  | doubleWord => 4

def write (T : Target) : WriteSize → GuardedCache → Address → Option GuardedCache
  | byte => GuardedCache.notdirtyMemWriteb T
  | word => GuardedCache.notdirtyMemWritew T
  | doubleWord => GuardedCache.notdirtyMemWritel T

end WriteSize

/-! ### Runs -/

/-- A step that translates the guest code at a pc into a block. -/
inductive Makes (T : Target) (s : State) : Event → Address → Generation → State → TbId → Prop
  | findSlow (req : FindRequest) {s' : State} {tb : TbId} (misses : ¬req.Answered T s)
      (done : tbFindSlow T s req = some (s', tb)) :
      Makes T s (.findSlow req) req.pc req.generation s' tb
  | link (pages : PageMap) (pc csBase flags : Nat) (gen : Generation) {s' : State} {tb : TbId}
      (done : tbGenCode T s pages pc csBase flags gen = some (s', tb)) :
      Makes T s (.link pages pc csBase flags gen) pc gen s' tb
  | insert (pages : PageMap) (pc csBase flags : Nat) (gen : Generation) {s' : State} {tb : TbId}
      (done : tbGenAndInsert T s pages pc csBase flags gen = some (s', tb)) :
      Makes T s (.insert pages pc csBase flags gen) pc gen s' tb

/-- What happens to the cache and to the protection of its pages. -/
inductive GuardedStep (T : Target) (m : GuardedCache) : GuardedCache → Prop
  /-- The block ends before its second page does. -/
  | make {event : Event} {pc : Address} {gen : Generation} {s' : State} {tb : TbId}
      (made : Makes T m.cache event pc gen s' tb) (pc_lt : pc < 2 ^ T.longBits)
      (ends : T.pageOffset pc + gen.size < 2 * T.pageSize) : GuardedStep T m (m.protect T s' tb)
  | cache {event : Event} {s' : State} (step : Step T m.cache event s')
      (other : ∀ pc gen tb, ¬Makes T m.cache event pc gen s' tb) :
      GuardedStep T m { m with cache := s' }
  | invalidate (start stop : Address) {s' : State}
      (done : tbInvalidatePhysPageRangeInner T m.cache start stop false = some s') :
      GuardedStep T m { m with cache := s' }
  /-- Of a write that does not come to the handlers. -/
  | invalidateWritten (start stop : Address) {s' : State}
      (done : tbInvalidatePhysPageRangeInner T m.cache start stop true = some s') :
      GuardedStep T m (m.unprotect T s' [⟨start, stop⟩])
  | write (size : WriteSize) (ramAddr : Address) {m' : GuardedCache}
      (aligned : ramAddr % size.bytes = 0) (done : size.write T m ramAddr = some m') :
      GuardedStep T m m'
  /-- `cpu_register_physical_memory_log` -/
  | register (pages : Nat → Bool) :
      GuardedStep T m { m with dirty := fun p => m.dirty p || pages p }

/-- The state at program start. -/
structure GuardedCache.Initial (m : GuardedCache) : Prop where
  cache : TranslationCache.Initial m.cache
  noBitmaps : ∀ p, m.cache.codeBitmap p = none

def GuardedReachable (T : Target) (m : GuardedCache) : Prop :=
  ∃ start : GuardedCache, start.Initial ∧ Relation.ReflTransGen (GuardedStep T) start m

/-! ### What every run keeps -/

/-- Valid blocks lie on two pages at most, and the bitmaps agree with them. -/
structure GuardedCache.Consistent (T : Target) (m : GuardedCache) : Prop where
  represents : ∃ σ, Represents T m.cache σ
  blocks : ∀ tb, m.cache.Live tb → (m.cache.tbs tb).OnTwoPages T
  bitmaps : BitmapsAgree T m.cache

section Runs

variable {T : Target} {m m' : GuardedCache} {s s' : State} {σ σ' : Shape}

structure NoNewEntries (T : Target) (s s' : State) : Prop where
  represents : ∃ σ, Represents T s' σ
  onPage : ∀ p entry, s'.OnPage p entry → s.OnPage p entry
  record : ∀ tb, s'.Live tb → IsGenerated T (s'.tbs tb) ∧ (s'.tbs tb).pc = (s.tbs tb).pc ∧
    (s'.tbs tb).size = (s.tbs tb).size

variable {tb : TbId}

theorem NoNewEntries.live (fewer : NoNewEntries T s s') (live : s'.Live tb) : s.Live tb := by
  obtain ⟨p, n, onPage⟩ := live
  exact ⟨p, n, fewer.onPage p (tb, n) onPage⟩

theorem GuardedCache.Consistent.fewer (consistent : m.Consistent T)
    (fewer : NoNewEntries T m.cache s') (bitmaps : BitmapsAgree T s') (dirty : Nat → Bool) :
    GuardedCache.Consistent T ⟨s', dirty⟩ := by
  refine ⟨fewer.represents, fun tb live => ?_, bitmaps⟩
  have before := consistent.blocks tb (fewer.live live)
  obtain ⟨generated, pc, size⟩ := fewer.record tb live
  refine ⟨generated, ?_, ?_⟩
  · change (s'.tbs tb).pc < _
    rw [pc]
    exact before.pc_lt
  · change T.pageOffset (s'.tbs tb).pc + (s'.tbs tb).size < _
    rw [pc, size]
    exact before.ends

theorem AfterInvalidations.noNewEntries (rep : Represents T s σ)
    (generated : ∀ tb, s.Live tb → IsGenerated T (s.tbs tb)) {l : List TbId}
    (effect : AfterInvalidations T s σ l s' σ') : NoNewEntries T s s' := by
  have onPage : ∀ p entry, s'.OnPage p entry → s.OnPage p entry := by
    intro p entry onPage
    rw [effect.rep.onPage_iff] at onPage
    rw [rep.onPage_iff]
    obtain ⟨q, n, member⟩ := ((effect.live entry.1).mp ⟨p, entry.2, onPage⟩).1
    have home := effect.rep.pages.home p entry onPage
    rw [effect.same.tbs] at home
    exact rep.pages.both q (entry.1, n) member entry.2 p home
  refine ⟨⟨σ', effect.rep⟩, onPage, fun tb live => ?_⟩
  obtain ⟨p, n, here⟩ := live
  rw [effect.same.tbs]
  exact ⟨generated tb ⟨p, n, onPage p (tb, n) here⟩, rfl, rfl⟩

structure NewBlock (T : Target) (s : State) (pc : Address) (gen : Generation) (s' : State)
    (tb : TbId) : Prop where
  represents : ∃ σ, Represents T s' σ
  pc : (s'.tbs tb).pc = pc
  size : (s'.tbs tb).size = gen.size
  generated : ∀ t, s'.Live t → IsGenerated T (s'.tbs t)
  other : ∀ p entry, s'.OnPage p entry → entry.1 ≠ tb →
    s.OnPage p entry ∧ s'.tbs entry.1 = s.tbs entry.1

theorem Generated.newBlock (rep : Represents T s σ)
    (generated : ∀ tb, s.Live tb → IsGenerated T (s.tbs tb)) {pages : PageMap} {pc csBase flags : Nat}
    {gen : Generation} {s₁ : State} {σ₁ : Shape}
    (made : Generated T s σ pages pc csBase flags gen s₁ tb σ₁) (rep' : Represents T s' σ')
    (tbs : s'.tbs = s₁.tbs) (pageList : σ'.pageList = σ₁.pageList) :
    NewBlock T s pc gen s' tb := by
  have live : ∀ t, s'.Live t ↔ σ₁.Live t := by
    intro t
    rw [rep'.live_iff, Shape.Live, pageList]
    rfl
  refine ⟨⟨σ', rep'⟩, ?_, ?_, fun t isLive => ?_, fun p entry onPage other => ?_⟩
  · rw [tbs, made.record]
  · rw [tbs, made.record]
  · rw [tbs]
    refine isGenerated_of_generated (fun u before => ?_) made t ((live t).mp isLive)
    exact generated u ((rep.live_iff u).mpr before)
  · have isLive : σ₁.Live entry.1 := (live entry.1).mp ⟨p, entry.2, onPage⟩
    obtain ⟨-, before, -⟩ := ((made.live entry.1).mp isLive).resolve_left other
    have record : s'.tbs entry.1 = s.tbs entry.1 := by
      rw [tbs]
      exact made.others entry.1 isLive other
    rw [rep'.onPage_iff] at onPage
    have home := rep'.pages.home p entry onPage
    rw [record] at home
    obtain ⟨q, n, member⟩ := before
    exact ⟨(rep.onPage_iff p entry).mpr (rep.pages.both q (entry.1, n) member entry.2 p home), record⟩

theorem Makes.newBlock (rep : Represents T s σ)
    (generated : ∀ tb, s.Live tb → IsGenerated T (s.tbs tb)) {event : Event} {pc : Address}
    {gen : Generation} (made : Makes T s event pc gen s' tb) :
    NewBlock T s pc gen s' tb := by
  cases made with
  | findSlow req misses done =>
    obtain ⟨s₂, tb₂, σ₂, s₁, σ₁, done₂, result⟩ := tbFindSlow_miss rep
      (fun hit => misses ((answered_iff rep req).mpr hit))
    rw [done] at done₂
    cases done₂
    have new := result.generated.newBlock (s := s.clearFlag) rep.clearFlag generated result.rep
      result.tbs result.pageList
    exact ⟨new.represents, new.pc, new.size, new.generated, new.other⟩
  | link pages pc csBase flags gen done =>
    obtain ⟨s₁, tb₁, σ₁, done₁, result⟩ := tbGenCode_eq rep pages pc csBase flags gen
    rw [done] at done₁
    cases done₁
    exact result.newBlock rep generated result.rep rfl rfl
  | insert pages pc csBase flags gen done =>
    obtain ⟨s₂, tb₂, σ₂, s₁, σ₁, done₂, result, rep₂, pageList, -, tbs, -⟩ :=
      insert_represents rep pages pc csBase flags gen
    rw [done] at done₂
    cases done₂
    exact result.newBlock rep generated rep₂ tbs pageList

theorem Makes.step {event : Event} {pc : Address} {gen : Generation}
    (made : Makes T s event pc gen s' tb) : Step T s event s' := by
  cases made with
  | findSlow req misses done => exact .findSlow req done
  | link pages pc csBase flags gen done => exact .link pages pc csBase flags gen done
  | insert pages pc csBase flags gen done => exact .insert pages pc csBase flags gen done

theorem GuardedCache.Consistent.protect (consistent : m.Consistent T) {event : Event} {pc : Address}
    {gen : Generation} (made : Makes T m.cache event pc gen s' tb)
    (pc_lt : pc < 2 ^ T.longBits) (ends : T.pageOffset pc + gen.size < 2 * T.pageSize) :
    (m.protect T s' tb).Consistent T := by
  obtain ⟨σ, rep⟩ := consistent.represents
  have new := made.newBlock rep fun t live => (consistent.blocks t live).generated
  refine ⟨new.represents, fun t live => ?_, made.step.bitmapsAgree rep consistent.bitmaps⟩
  by_cases isTb : t = tb
  · refine ⟨new.generated t live, ?_, ?_⟩
    · change (s'.tbs t).pc < _
      rwa [isTb, new.pc]
    · change T.pageOffset (s'.tbs t).pc + (s'.tbs t).size < _
      rwa [isTb, new.pc, new.size]
  · obtain ⟨p, n, onPage⟩ := live
    obtain ⟨before, record⟩ := new.other p (t, n) onPage isTb
    change (s'.tbs t).OnTwoPages T
    rw [show s'.tbs t = m.cache.tbs t from record]
    exact consistent.blocks t ⟨p, n, before⟩

theorem Step.noNewEntries (rep : Represents T s σ)
    (generated : ∀ tb, s.Live tb → IsGenerated T (s.tbs tb)) {event : Event} (step : Step T s event s')
    (other : ∀ pc gen tb, ¬Makes T s event pc gen s' tb) : NoNewEntries T s s' := by
  cases step with
  | findSlow req done =>
    by_cases answered : req.Answered T s
    · obtain ⟨s₁, tb₁, σ₁, done₁, result⟩ := tbFindSlow_hit rep ((answered_iff rep req).mp answered)
      rw [done] at done₁
      cases done₁
      have onPage : ∀ p entry, s'.OnPage p entry → s.OnPage p entry := by
        intro p entry onPage
        rwa [result.rep.onPage_iff, result.pageList, ← rep.onPage_iff] at onPage
      refine ⟨⟨σ₁, result.rep⟩, onPage, fun tb live => ?_⟩
      obtain ⟨p, n, here⟩ := live
      rw [result.same.tbs]
      exact ⟨generated tb ⟨p, n, onPage p (tb, n) here⟩, rfl, rfl⟩
    · exact (other _ _ _ (.findSlow req answered done)).elim
  | link pages pc csBase flags gen done =>
    exact (other _ _ _ (.link pages pc csBase flags gen done)).elim
  | insert pages pc csBase flags gen done =>
    exact (other _ _ _ (.insert pages pc csBase flags gen done)).elim
  | addJump tb n tbNext source target =>
    have represents := addJump_represents (n := n) rep source target
    obtain ⟨jump, jmpTarget, same⟩ := tbAddJump_same s tb n tbNext
    rw [same] at represents ⊢
    exact ⟨⟨_, represents⟩, fun _ _ here => here, fun t live => ⟨generated t live, rfl, rfl⟩⟩
  | invalidate tb done =>
    obtain ⟨s₁, σ₁, done₁, effect⟩ := tbPhysInvalidate_after rep tb
    rw [done] at done₁
    cases done₁
    exact effect.noNewEntries rep generated
  | flush =>
    have represents := flush_represents rep
    have nothing : ∀ p entry, ¬(tbFlush s).OnPage p entry := by
      intro p entry onPage
      rw [represents.onPage_iff] at onPage
      cases onPage
    refine ⟨⟨_, represents⟩, fun p entry onPage => (nothing p entry onPage).elim, fun tb live => ?_⟩
    obtain ⟨p, n, onPage⟩ := live
    exact (nothing p (tb, n) onPage).elim
  | markDirty tb =>
    have step : Step T s (.markDirty tb) _ := .markDirty tb
    obtain ⟨σ', rep', records⟩ := step.isGenerated rep
      (fun t live => generated t ((rep.live_iff t).mpr live))
    refine ⟨⟨σ', rep'⟩, fun _ _ here => here, fun t live => ?_⟩
    refine ⟨records t ((rep'.live_iff t).mp live), ?_⟩
    by_cases isTb : t = tb
    · rw [isTb, s.setTb_self]
      exact ⟨rfl, rfl⟩
    · rw [s.setTb_of_ne _ isTb]
      exact ⟨rfl, rfl⟩
  | forget tbJmpCache _ =>
    refine ⟨⟨σ, rep.buckets, rep.bucketHome, rep.bucketLive, rep.pages, rep.graph,
      rep.liveLinked, rep.unpatched⟩, fun _ _ here => here, fun t live => ?_⟩
    exact ⟨generated t live, rfl, rfl⟩

theorem Represents.no_entry (rep : Represents T s σ) {p : Nat} (null : s.page (.firstTb p) = none)
    (entry : Slot) : ¬s.OnPage p entry := by
  rw [rep.onPage_iff]
  intro member
  have head := page_eq_head? (rep.pages.family.segment p trivial)
  rw [show s.page (pageRoots.head p) = none from null, eq_comm, List.head?_eq_none_iff] at head
  rw [head] at member
  cases member

theorem GuardedCache.Consistent.generated (consistent : m.Consistent T) (tb : TbId)
    (live : m.cache.Live tb) : IsGenerated T (m.cache.tbs tb) :=
  (consistent.blocks tb live).generated

theorem tbInvalidatePhysPageRangeInner_fewer (consistent : m.Consistent T) {start stop : Address}
    {isCpuWriteAccess : Bool}
    (done : tbInvalidatePhysPageRangeInner T m.cache start stop isCpuWriteAccess = some s') :
    NoNewEntries T m.cache s' ∧ BitmapsAgree T s' := by
  obtain ⟨σ, rep⟩ := consistent.represents
  obtain ⟨σ', l, effect⟩ := tbInvalidatePhysPageRangeInner_after rep done
  exact ⟨effect.noNewEntries rep consistent.generated,
    tbInvalidatePhysPageRangeInner_agree rep consistent.bitmaps done⟩

/-! ### The handlers -/

/-- The page of the bytes has no bitmap, or some block has one of them. -/
def LookupHits (T : Target) (s : State) (start : Address) (len : Nat) : Prop :=
  s.codeBitmap (T.pageIndex start) = none ∨
    ∃ tb, s.Live tb ∧ ∃ i < len, (s.tbs tb).Contains T (start + i)

theorem bitmapHit_iff (bits : Nat → BitVec 8) {offset len : Nat} (inByte : offset % 8 + len ≤ 8) :
    bitmapHit bits offset len = true ↔ ∃ i < len, bitAt bits (offset + i) = true := by
  have bit : ∀ i < len, ((bits (offset / 8)).toNat >>> (offset % 8)).testBit i =
      bitAt bits (offset + i) := by
    intro i less
    rw [testBit_shiftRight, BitVec.testBit_toNat, bitAt,
      show (offset + i) / 8 = offset / 8 by omega, show (offset + i) % 8 = offset % 8 + i by omega]
  unfold bitmapHit
  rw [decide_eq_true_eq]
  constructor
  · intro nonzero
    obtain ⟨i, isSet⟩ := exists_testBit_of_ne_zero nonzero
    rw [testBit_and, testBit_two_pow_sub_one, and_eq_true, decide_eq_true_eq] at isSet
    refine ⟨i, isSet.2, ?_⟩
    rw [← bit i isSet.2]
    exact isSet.1
  · rintro ⟨i, less, isSet⟩ isZero
    have masked := congrArg (testBit · i) isZero
    simp only [testBit_and, testBit_two_pow_sub_one, zero_testBit, less, decide_true,
      Bool.and_true, bit i less, isSet] at masked
    cases masked

theorem GuardedCache.Consistent.contains_iff (consistent : m.Consistent T) {p o : Nat}
    (inPage : o < T.pageSize) :
    (∃ tb, m.cache.Live tb ∧ (m.cache.tbs tb).Contains T (p * T.pageSize + o)) ↔
      ∃ entry, m.cache.OnPage p entry ∧ (m.cache.tbs entry.1).EntryCovers T entry.2 o := by
  obtain ⟨σ, rep⟩ := consistent.represents
  constructor
  · rintro ⟨tb, live, contains⟩
    obtain ⟨n, home, covers⟩ := ((consistent.blocks tb live).entryCovers_iff inPage).mpr contains
    obtain ⟨q, k, member⟩ := (rep.live_iff tb).mp live
    exact ⟨(tb, n), (rep.onPage_iff p _).mpr (rep.pages.both q (tb, k) member n p home), covers⟩
  · rintro ⟨⟨tb, n⟩, onPage, covers⟩
    have live : m.cache.Live tb := ⟨p, n, onPage⟩
    have home := rep.pages.home p (tb, n) ((rep.onPage_iff p _).mp onPage)
    exact ⟨tb, live, ((consistent.blocks tb live).entryCovers_iff inPage).mp ⟨n, home, covers⟩⟩

theorem Target.split_add (T : Target) (address i : Nat) :
    address + i = T.pageIndex address * T.pageSize + (T.pageOffset address + i) := by
  have split := T.pageBase_add_pageOffset address
  rw [← Nat.add_assoc, show T.pageIndex address * T.pageSize = T.pageBase address from rfl, split]

theorem GuardedCache.Consistent.lookupHits_iff (consistent : m.Consistent T) {start : Address}
    {len : Nat} {bits : Nat → BitVec 8} (here : m.cache.codeBitmap (T.pageIndex start) = some bits)
    (inPage : T.pageOffset start + len ≤ T.pageSize) (inByte : T.pageOffset start % 8 + len ≤ 8) :
    LookupHits T m.cache start len ↔ bitmapHit bits (T.pageOffset start) len = true := by
  have agree : ∀ i < len, (bitAt bits (T.pageOffset start + i) = true ↔
      ∃ tb, m.cache.Live tb ∧ (m.cache.tbs tb).Contains T (start + i)) := by
    intro i less
    have inside : T.pageOffset start + i < T.pageSize := by omega
    rw [consistent.bitmaps.agree _ bits here _ inside, T.split_add start i,
      consistent.contains_iff inside]
  rw [bitmapHit_iff bits inByte, LookupHits, here, or_iff_right (some_ne_none bits)]
  constructor
  · rintro ⟨tb, live, i, less, contains⟩
    exact ⟨i, less, (agree i less).mpr ⟨tb, live, contains⟩⟩
  · rintro ⟨i, less, isSet⟩
    obtain ⟨tb, live, contains⟩ := (agree i less).mp isSet
    exact ⟨tb, live, i, less, contains⟩

structure Handled (T : Target) (m : GuardedCache) (start : Address) (len : Nat) (m' : GuardedCache) :
    Prop where
  consistent : m'.Consistent T
  tbs : m'.cache.tbs = m.cache.tbs
  hashed : ∀ tb, m'.cache.Hashed T tb ↔ m.cache.Hashed T tb ∧
    ¬(m.dirty (T.pageIndex start) = false ∧ LookupHits T m.cache start len ∧
      (m.cache.tbs tb).Met T start (start + len))

theorem Handled.untouched (consistent : m.Consistent T) {start : Address} {len : Nat}
    (missed : ∀ tb, m.cache.Hashed T tb → ¬(m.dirty (T.pageIndex start) = false ∧
      LookupHits T m.cache start len ∧ (m.cache.tbs tb).Met T start (start + len))) :
    Handled T m start len m :=
  ⟨consistent, rfl, fun tb => (and_iff_left_of_imp (missed tb)).symm⟩

theorem Met.onPage (rep : Represents T s σ) (live : s.Live tb) {start stop : Address}
    (met : (s.tbs tb).Met T start stop) : ∃ n, s.OnPage (T.pageIndex start) (tb, n) := by
  obtain ⟨n, home, -⟩ := met
  obtain ⟨q, k, member⟩ := (rep.live_iff tb).mp live
  exact ⟨n, (rep.onPage_iff _ _).mpr (rep.pages.both q (tb, k) member n _ home)⟩

theorem Represents.live_of_hashed (rep : Represents T s σ) (hashed : s.Hashed T tb) :
    s.Live tb := by
  obtain ⟨h, inBucket⟩ := (rep.hashed_iff tb).mp hashed
  exact (rep.live_iff tb).mpr (rep.bucketLive h tb inBucket)

theorem checked_onePage (s : State) {start : Address} {len : Nat}
    (inPage : T.pageOffset start + len ≤ T.pageSize) (isCpuWriteAccess : Bool) :
    tbInvalidatePhysPageRangeChecked T none s start (start + len) isCpuWriteAccess =
      (tbInvalidatePhysPageRangeInner T s start (start + len) isCpuWriteAccess).map fun s =>
        (s, [⟨start, start + len⟩]) := by
  have whole : (if len < T.pageSize - start % T.pageSize then len
      else T.pageSize - start % T.pageSize) = len := by
    have bound : start % T.pageSize + len ≤ T.pageSize := inPage
    unfold Address at *
    split_ifs <;> omega
  unfold tbInvalidatePhysPageRangeChecked invalidatePage
  simp only [Nat.add_sub_cancel_left, whole, Nat.sub_self, bind_eq_bind, invalidateFollowing,
    if_true]
  cases tbInvalidatePhysPageRangeInner T s start (start + len) isCpuWriteAccess <;> rfl

theorem checked_handled (consistent : m.Consistent T) {start : Address} {len : Nat} (pos : 0 < len)
    (inPage : T.pageOffset start + len ≤ T.pageSize) (clean : m.dirty (T.pageIndex start) = false)
    (hits : LookupHits T m.cache start len) :
    ∃ r, tbInvalidatePhysPageRangeChecked T none m.cache start (start + len) true = some r ∧
      Handled T m start len (m.unprotect T r.1 r.2) := by
  obtain ⟨σ, rep⟩ := consistent.represents
  have onePage := T.pageIndex_pred pos inPage
  obtain ⟨s', σ', l, done, effect, taken⟩ := tbInvalidatePhysPageRangeInner_eq rep onePage true
  obtain ⟨fewer, bitmaps⟩ := tbInvalidatePhysPageRangeInner_fewer consistent done
  refine ⟨(s', [⟨start, start + len⟩]), ?_, ?_⟩
  · rw [checked_onePage m.cache inPage true, done]
    rfl
  · refine ⟨consistent.fewer fewer bitmaps _, effect.same.tbs, fun tb => ?_⟩
    change s'.Hashed T tb ↔ _
    rw [effect.hashed_iff rep, taken]
    refine and_congr_right fun hashed => ?_
    rw [← rep.live_iff, and_iff_right (rep.live_of_hashed hashed), and_iff_right clean,
      and_iff_right hits]

theorem unprotect_nil : m.unprotect T m.cache [] = m := by
  have same : (fun p => m.dirty p || unprotects T m.cache [] p) = m.dirty :=
    funext fun p => Bool.or_false (m.dirty p)
  unfold GuardedCache.unprotect
  rw [same]

theorem notdirtyMemWrite_handled (consistent : m.Consistent T) {start : Address} {len : Nat}
    (pos : 0 < len) (inPage : T.pageOffset start + len ≤ T.pageSize)
    (inByte : T.pageOffset start % 8 + len ≤ 8) :
    ∃ m', m.notdirtyMemWrite T len start = some m' ∧ Handled T m start len m' := by
  obtain ⟨σ, rep⟩ := consistent.represents
  unfold GuardedCache.notdirtyMemWrite
  by_cases dirty : m.dirty (T.pageIndex start) = true
  · rw [if_pos dirty]
    refine ⟨m, rfl, .untouched consistent fun tb _ taken => ?_⟩
    exact absurd (dirty.symm.trans taken.1) (by decide)
  · rw [if_neg dirty]
    have clean : m.dirty (T.pageIndex start) = false := eq_false_iff.mpr dirty
    unfold tbInvalidatePhysPageFast pageFind
    by_cases leaf : m.cache.leafAllocated (leafOf (T.pageIndex start)) = true
    · rw [if_pos leaf]
      dsimp only
      cases here : m.cache.codeBitmap (T.pageIndex start) with
      | none =>
        obtain ⟨r, done, handled⟩ := checked_handled consistent pos inPage clean (.inl here)
        rw [done]
        exact ⟨_, rfl, handled⟩
      | some bits =>
        have hits := consistent.lookupHits_iff here inPage inByte
        dsimp only
        by_cases hit : bitmapHit bits (T.pageOffset start) len = true
        · obtain ⟨r, done, handled⟩ := checked_handled consistent pos inPage clean (hits.mpr hit)
          rw [if_pos hit, done]
          exact ⟨_, rfl, handled⟩
        · rw [if_neg hit]
          refine ⟨m, congrArg some unprotect_nil, .untouched consistent fun tb _ taken => ?_⟩
          exact hit (hits.mp taken.2.1)
    · rw [if_neg leaf]
      refine ⟨m, congrArg some unprotect_nil, .untouched consistent fun tb hashed taken => ?_⟩
      obtain ⟨n, onPage⟩ := Met.onPage rep (rep.live_of_hashed hashed) taken.2.2
      rw [rep.onPage_iff] at onPage
      exact leaf (rep.pages.leaf _ (List.ne_nil_of_mem onPage))

/-! ### Every run -/

def WriteSize.looked : WriteSize → Nat
  | .byte => 1
  | .word => 2
  | .doubleWord => 2

theorem WriteSize.write_eq (size : WriteSize) :
    size.write T m = m.notdirtyMemWrite T size.looked := by
  cases size <;> rfl

theorem WriteSize.aligned_bounds (size : WriteSize) {start : Address}
    (aligned : start % size.bytes = 0) :
    T.pageOffset start + size.bytes ≤ T.pageSize ∧ T.pageOffset start % 8 + size.looked ≤ 8 := by
  have eights : T.pageSize % 8 = 0 :=
    mod_eq_zero_of_dvd (Nat.pow_dvd_pow 2 (Nat.le_trans (by decide : 3 ≤ 7) T.pageBits_ge))
  have inPage := T.pageOffset_lt start
  have low : T.pageOffset start % 8 = start % 8 :=
    mod_mod_of_dvd start (dvd_of_mod_eq_zero eights)
  unfold Address at *
  cases size <;> simp only [WriteSize.bytes, WriteSize.looked] at aligned ⊢ <;> omega

theorem WriteSize.write_handled (consistent : m.Consistent T) (size : WriteSize) {start : Address}
    (aligned : start % size.bytes = 0) :
    ∃ m', size.write T m start = some m' ∧ Handled T m start size.looked m' := by
  obtain ⟨inPage, inByte⟩ := size.aligned_bounds (T := T) aligned
  have bounds : 0 < size.looked ∧ size.looked ≤ size.bytes := by cases size <;> decide
  rw [size.write_eq]
  exact notdirtyMemWrite_handled consistent bounds.1 (by omega) inByte

theorem GuardedStep.consistent (step : GuardedStep T m m') (consistent : m.Consistent T) :
    m'.Consistent T := by
  obtain ⟨σ, rep⟩ := consistent.represents
  cases step with
  | make made pc_lt ends => exact consistent.protect made pc_lt ends
  | cache step other =>
    exact consistent.fewer (step.noNewEntries rep consistent.generated other)
      (step.bitmapsAgree rep consistent.bitmaps) _
  | invalidate start stop done | invalidateWritten start stop done =>
    obtain ⟨fewer, bitmaps⟩ := tbInvalidatePhysPageRangeInner_fewer consistent done
    exact consistent.fewer fewer bitmaps _
  | write size ramAddr aligned done =>
    obtain ⟨m₁, done₁, result⟩ := size.write_handled consistent aligned
    rw [done, some.injEq] at done₁
    rw [done₁]
    exact result.consistent
  | register pages => exact ⟨consistent.represents, consistent.blocks, consistent.bitmaps⟩

theorem GuardedReachable.consistent (reachable : GuardedReachable T m) : m.Consistent T := by
  obtain ⟨start, initial, run⟩ := reachable
  induction run with
  | refl =>
    have rep := represents_empty T start.cache initial.cache.noBlocks initial.cache.noBuckets
      initial.cache.noPages
    have nothing : ∀ p entry, ¬start.cache.OnPage p entry :=
      fun p => rep.no_entry (initial.cache.noPages p)
    refine ⟨⟨_, rep⟩, fun tb live => ?_, ?_, ?_⟩
    · obtain ⟨p, n, onPage⟩ := live
      exact (nothing p (tb, n) onPage).elim
    · intro p bits here
      rw [initial.noBitmaps] at here
      cases here
    · intro p bits here
      rw [initial.noBitmaps] at here
      cases here
  | tail _ step ih => exact step.consistent ih

/-! ### What is left after a write -/

end Runs

/-! ### Two small runs -/

end Tlib.TranslationCache
