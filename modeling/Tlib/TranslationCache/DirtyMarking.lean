import Tlib.Execution.BlockHeader

/-!
Contract: marking translated code dirty after a guest store.

Owns: `get_page_addr_code` without mapping on demand. Does not own: the mapping of data accesses
and `cpu_get_phys_page_debug`, which are parameters, or the delivery of broadcast addresses.
-/

namespace Tlib.TranslationCache

open Tlib.Library.Linked Nat Or
open Tlib.Execution

/-- An entry of `tlb_table` and `iotlb`, as far as code fetches read it. -/
structure CodeTlbEntry where
  /-- `none` stands for `-1`. -/
  addrCode : Option Address
  iotlb : Nat

def cpuTlbSize : Nat := 2 ^ 8

/-- `get_page_addr_code` without mapping on demand; `none` stands for `-1`. -/
def getCachedPageAddrCode (T : Target) (codeTlb : Nat → CodeTlbEntry) (address : Address) :
    Option Address :=
  let pageAddr := T.pageBase address
  let entry := codeTlb (T.pageIndex address % cpuTlbSize)
  match entry.addrCode with
  | none => none
  | some addrCode =>
    -- `IO_MEM_EXECUTABLE_IO | TLB_MMIO`
    let addrCode := if addrCode &&& 64 ≠ 0 then addrCode - (addrCode &&& (64 ||| 32)) else addrCode
    if addrCode = pageAddr then some (T.pageBase (T.toPhysAddr (pageAddr + entry.iotlb))) else none

/-- What `helper_mark_tbs_as_dirty` reads of the CPU. -/
structure StoringCpu where
  (tbCacheDisabled tbBroadcastDirty : Bool)
  currentTb : Option TbId
  codeTlb : Nat → CodeTlbEntry
  /-- `cpu_get_phys_page_debug`; `none` stands for `-1`. -/
  getPhysPageDebug : Address → Option Address

/-- The guard in front of the slow page lookup. -/
def outsideCurrentTb (T : Target) (s : State) (cpu : StoringCpu) (pc : Address) : Bool :=
  cpu.currentTb.any fun tb =>
    pc < (s.tbs tb).pc && T.toUlong ((s.tbs tb).pc + (s.tbs tb).size) ≤ pc

def withDescriptor (T : Target) (s : State) (physPage : Option Address) : Option Address :=
  physPage.filter fun page => (pageFind s (T.pageIndex page)).isSome

/-- `phys_page` when the page list is searched. -/
def searchedPage (T : Target) (s : State) (cpu : StoringCpu) (pc : Address) : Option Address :=
  match withDescriptor T s (getCachedPageAddrCode T cpu.codeTlb pc) with
  | some physPage => some physPage
  | none =>
    if outsideCurrentTb T s cpu pc then none
    else withDescriptor T s (cpu.getPhysPageDebug pc)

/-- `phys_page | (pc & ~TARGET_PAGE_MASK)` -/
def storedPhysPc (T : Target) (physPage pc : Address) : Address :=
  T.toUlong (physPage ||| T.pageOffset pc)

/-- The test of `helper_mark_tbs_as_dirty` on a block of the searched page. -/
def TranslationBlock.overlaps (T : Target) (tb : TranslationBlock) (physPc : Address)
    (accessWidth : Nat) : Bool :=
  let tbStart := tb.pageAddr0 + T.pageOffset tb.pc
  let tbEnd := tbStart + tb.size
  (tbStart ≤ physPc && physPc < tbEnd) ||
    (physPc ≤ tbStart && tbStart < T.toUlong (physPc + accessWidth))

def TranslationBlock.markDirty (tb : TranslationBlock) : TranslationBlock :=
  { tb with dirtyFlag := true }

def markPage (T : Target) (page : PageMemory) (physPc : Address) (accessWidth : Nat) :
    Nat → (TbId → TranslationBlock) → Option Slot → Option (TbId → TranslationBlock)
  | 0, _, _ => none
  | _ + 1, tbs, none => some tbs
  | fuel + 1, tbs, some (tb, n) =>
    let tbNext := page (.pageNext (tb, n))
    let tbs :=
      if (tbs tb).overlaps T physPc accessWidth then Function.update tbs tb (tbs tb).markDirty
      else tbs
    markPage T page physPc accessWidth fuel tbs tbNext

/-- `helper_mark_tbs_as_dirty`, with the address it passes to `append_dirty_address`. -/
def helperMarkTbsAsDirty (T : Target) (s : State) (cpu : StoringCpu) (pc : Address)
    (accessWidth : Nat) (broadcast : Bool) : Option (State × Option Address) :=
  if cpu.tbCacheDisabled then some (s, none)
  else
    match searchedPage T s cpu pc with
    | none => some (s, none)
    | some physPage =>
      let physPc := storedPhysPc T physPage pc
      let dirtyAddress := if broadcast && cpu.tbBroadcastDirty then some physPc else none
      (markPage T s.page physPc accessWidth (2 * s.nbTbs + 1) s.tbs
        (s.page (.firstTb (T.pageIndex physPage)))).map
          fun tbs => ({ s with tbs := tbs }, dirtyAddress)

/-- The physical address of byte `i` of a block, on the two pages that a block records at most. -/
def TranslationBlock.byteAt (T : Target) (tb : TranslationBlock) (i : Nat) : Option Address :=
  let offset := T.pageOffset tb.pc + i
  if offset < T.pageSize then some (tb.pageAddr0 + offset)
  else tb.pageAddr1.map fun page => page + (offset - T.pageSize)

def TranslationBlock.Contains (T : Target) (tb : TranslationBlock) (byte : Address) : Prop :=
  ∃ i, i < tb.size ∧ tb.byteAt T i = some byte

/-- The bytes a store reaches, where `dataPage` maps the pages. -/
def Writes (T : Target) (dataPage : Address → Address) (address width byte : Nat) : Prop :=
  ∃ i, i < width ∧
    byte = dataPage (T.pageBase (T.toUlong (address + i))) + T.pageOffset (T.toUlong (address + i))

def TranslationBlock.Hit (T : Target) (tb : TranslationBlock) (dataPage : Address → Address)
    (address width : Nat) : Prop :=
  ∃ byte, Writes T dataPage address width byte ∧ tb.Contains T byte

def Searched (T : Target) (s : State) (cpu : StoringCpu) (address width : Nat) (tb : TbId) : Prop :=
  cpu.tbCacheDisabled = false ∧ ∃ physPage, searchedPage T s cpu address = some physPage ∧
    (∃ n, (s.tbs tb).pageOf T n = some (T.pageIndex physPage)) ∧
    (s.tbs tb).overlaps T (storedPhysPc T physPage address) width = true

@[simp] theorem markDirty_markDirty (tb : TranslationBlock) :
    tb.markDirty.markDirty = tb.markDirty := rfl

section Walk

variable {T : Target} {s : State} {σ : Shape} {cpu : StoringCpu} {address width : Nat}

theorem markPage_eq {page : PageMemory} {l : List Slot} {cell : PageCell} {fuel : Nat}
    (physPc : Address) (width : Nat) (tbs : TbId → TranslationBlock)
    (segment : Segment pageRoots.toThreading page cell l none) (enough : l.length < fuel) :
    ∃ tbs', markPage T page physPc width fuel tbs (page cell) = some tbs' ∧ ∀ t, tbs' t =
        if (∃ n, (t, n) ∈ l) ∧ (tbs t).overlaps T physPc width = true then (tbs t).markDirty
        else tbs t := by
  induction l generalizing cell fuel tbs with
  | nil =>
    obtain ⟨less, rfl⟩ := exists_eq_succ_of_ne_zero (Nat.ne_of_gt enough)
    exact ⟨tbs, by rw [segment, markPage], by simp⟩
  | cons entry rest ih =>
    obtain ⟨tb, n⟩ := entry
    obtain ⟨less, rfl⟩ := exists_eq_succ_of_ne_zero (Nat.ne_of_gt (zero_lt_of_lt enough))
    obtain ⟨next, tail⟩ := segment
    have shorter : rest.length < less := lt_of_succ_lt_succ enough
    obtain ⟨tbs', walked, marked⟩ := ih
      (if (tbs tb).overlaps T physPc width then Function.update tbs tb (tbs tb).markDirty
        else tbs) tail shorter
    refine ⟨tbs', ?_, fun t => ?_⟩
    · rw [next]
      exact walked
    · rw [marked t]
      by_cases isTb : t = tb
      · by_cases taken : (tbs tb).overlaps T physPc width = true <;> simp [isTb, taken]
      · have elsewhere : (if (tbs tb).overlaps T physPc width then
            Function.update tbs tb (tbs tb).markDirty else tbs) t = tbs t := by
          split_ifs
          · exact Function.update_of_ne isTb _ _
          · rfl
        simp [elsewhere, isTb]

theorem onPage_iff (rep : Represents T s σ) {t : TbId} (live : σ.Live t) (p : Nat) :
    (∃ n, (t, n) ∈ σ.pageList p) ↔ ∃ n, (s.tbs t).pageOf T n = some p := by
  constructor
  · rintro ⟨n, member⟩
    exact ⟨n, rep.pages.home p (t, n) member⟩
  · rintro ⟨n, isPage⟩
    obtain ⟨q, m, member⟩ := live
    exact ⟨n, rep.pages.both q (t, m) member n p isPage⟩

theorem helperMarkTbsAsDirty_eq (rep : Represents T s σ) (cpu : StoringCpu)
    (address width : Nat) (broadcast : Bool) :
    ∃ tbs dirtyAddress, helperMarkTbsAsDirty T s cpu address width broadcast =
        some ({ s with tbs := tbs }, dirtyAddress) ∧
      (∀ t, tbs t = s.tbs t ∨ tbs t = (s.tbs t).markDirty) ∧
      ∀ t, σ.Live t → ((tbs t).dirtyFlag = true ↔
        (s.tbs t).dirtyFlag = true ∨ Searched T s cpu address width t) := by
  unfold helperMarkTbsAsDirty Searched
  by_cases disabled : cpu.tbCacheDisabled = true
  · exact ⟨s.tbs, none, by rw [if_pos disabled], fun _ => inl rfl, by simp [disabled]⟩
  have enabled : cpu.tbCacheDisabled = false := by simpa using disabled
  rw [if_neg disabled]
  cases found : searchedPage T s cpu address with
  | none => exact ⟨s.tbs, none, rfl, fun _ => inl rfl, by simp⟩
  | some physPage =>
    obtain ⟨tbs, walked, marked⟩ := markPage_eq (T := T) (storedPhysPc T physPage address)
      width s.tbs
      (rep.pages.family.segment (T.pageIndex physPage) trivial)
      (lt_succ_of_le (rep.pageList_length_le (T.pageIndex physPage)))
    refine ⟨tbs, if broadcast && cpu.tbBroadcastDirty then
      some (storedPhysPc T physPage address) else none, ?_, fun t => ?_, fun t live => ?_⟩
    · exact congrArg (Option.map fun tbs => ({ s with tbs := tbs }, _)) walked
    · rw [marked t]
      split_ifs
      · exact inr rfl
      · exact inl rfl
    · rw [marked t]
      simp only [← onPage_iff rep live, enabled, true_and, Option.some.injEq, exists_eq_left']
      split_ifs with taken
      · exact ⟨fun _ => inr taken, fun _ => rfl⟩
      · exact ⟨inl, fun either => either.resolve_right taken⟩

end Walk

/-- A store inside one page whose mapping the search finds, with blocks on adjacent pages. -/
structure OrdinaryStore (T : Target) (s : State) (cpu : StoringCpu)
    (dataPage : Address → Address) (address width : Nat) : Prop where
  enabled : cpu.tbCacheDisabled = false
  searched : searchedPage T s cpu address = some (dataPage (T.pageBase address))
  aligned : T.pageBase (dataPage (T.pageBase address)) = dataPage (T.pageBase address)
  onePage : T.pageOffset address + width ≤ T.pageSize
  virtualFits : address + width ≤ 2 ^ T.longBits
  physicalFits : dataPage (T.pageBase address) + T.pageSize < 2 ^ T.longBits
  blocks : ∀ tb, s.Live tb → (s.tbs tb).size ≤ T.pageSize ∧
    ∀ page, (s.tbs tb).pageAddr1 = some page → page = (s.tbs tb).pageAddr0 + T.pageSize

section Ordinary

variable {T : Target} {s : State} {cpu : StoringCpu} {dataPage : Address → Address}
  {address width : Nat}

theorem OrdinaryStore.writes (ordinary : OrdinaryStore T s cpu dataPage address width) {byte : Nat}
    (written : Writes T dataPage address width byte) :
    ∃ i, i < width ∧ byte = dataPage (T.pageBase address) + (T.pageOffset address + i) := by
  obtain ⟨i, below, isByte⟩ := written
  have fits : address + i < 2 ^ T.longBits := by
    have := ordinary.virtualFits
    omega
  have inside : T.pageOffset address + i < T.pageSize := by
    have := ordinary.onePage
    omega
  have split : address + i = T.pageBase address + (T.pageOffset address + i) := by
    rw [← Nat.add_assoc, T.pageBase_add_pageOffset]
  have base := T.pageBase_pageBase address
  refine ⟨i, below, ?_⟩
  rw [isByte, Target.toUlong, mod_eq_of_lt fits, split, Target.pageBase_add base inside,
    Target.pageOffset_add base inside]

theorem byteAt_of_adjacent {tb : TranslationBlock} {i byte : Nat}
    (aligned : T.pageBase tb.pageAddr0 = tb.pageAddr0) (small : tb.size ≤ T.pageSize)
    (adjacent : ∀ page, tb.pageAddr1 = some page → page = tb.pageAddr0 + T.pageSize)
    (below : i < tb.size) (isByte : tb.byteAt T i = some byte) :
    byte = tb.pageAddr0 + T.pageOffset tb.pc + i ∧
      ∃ n, tb.pageOf T n = some (T.pageIndex byte) := by
  have offset := T.pageOffset_lt tb.pc
  unfold TranslationBlock.byteAt at isByte
  by_cases first : T.pageOffset tb.pc + i < T.pageSize
  · rw [if_pos first, Option.some.injEq] at isByte
    refine ⟨by rw [← isByte, Nat.add_assoc], 0, ?_⟩
    rw [← isByte, Target.pageIndex_add aligned first]
    rfl
  · rw [if_neg first, Option.map_eq_some_iff] at isByte
    obtain ⟨page, isPage, isByte⟩ := isByte
    have next := adjacent page isPage
    have alignedNext : T.pageBase page = page := by
      have index : T.pageIndex page = T.pageIndex tb.pageAddr0 + 1 := by
        rw [next, Target.pageIndex, add_div_right _ T.pageSize_pos, Target.pageIndex]
      change T.pageIndex page * T.pageSize = page
      rw [index, Nat.add_mul, Nat.one_mul, next]
      exact congrArg (· + T.pageSize) aligned
    refine ⟨?_, 1, ?_⟩
    · rw [← isByte, next, Nat.add_assoc, Nat.add_sub_cancel' (Nat.not_lt.mp first), Nat.add_assoc]
    rw [← isByte, Target.pageIndex_add alignedNext (by omega)]
    simp [TranslationBlock.pageOf, isPage]

theorem OrdinaryStore.searches (ordinary : OrdinaryStore T s cpu dataPage address width)
    {tb : TbId} (live : s.Live tb)
    (aligned : T.pageBase (s.tbs tb).pageAddr0 = (s.tbs tb).pageAddr0)
    (hit : (s.tbs tb).Hit T dataPage address width) : Searched T s cpu address width tb := by
  obtain ⟨byte, written, j, below, isByte⟩ := hit
  obtain ⟨i, inStore, isWritten⟩ := ordinary.writes written
  obtain ⟨small, adjacent⟩ := ordinary.blocks tb live
  obtain ⟨contiguous, n, onPage⟩ := byteAt_of_adjacent aligned small adjacent below isByte
  have onePage := ordinary.onePage
  have fits := ordinary.physicalFits
  unfold Address at *
  have physPc : storedPhysPc T (dataPage (T.pageBase address)) address =
      dataPage (T.pageBase address) + T.pageOffset address := by
    rw [storedPhysPc, ← ordinary.aligned, or_pageOffset, ordinary.aligned, Target.toUlong,
      mod_eq_of_lt (by omega)]
  refine ⟨ordinary.enabled, _, ordinary.searched, ⟨n, ?_⟩, ?_⟩
  · rw [onPage, isWritten, Target.pageIndex_add ordinary.aligned (by omega)]
  · rw [physPc, TranslationBlock.overlaps, Target.toUlong, mod_eq_of_lt (by omega)]
    simp only [Bool.or_eq_true, Bool.and_eq_true, decide_eq_true_eq]
    unfold Address
    omega

end Ordinary

section Marking

variable {T : Target} {s : State}

/-- `helper_mark_tbs_as_dirty` makes every valid block with a written byte dirty exactly when
its search takes all of those that were clean. -/
theorem helperMarkTbsAsDirty_marks_iff (reachable : Reachable T s) (cpu : StoringCpu)
    (dataPage : Address → Address) (address width : Nat) (broadcast : Bool) :
    ∃ s' dirtyAddress,
      helperMarkTbsAsDirty T s cpu address width broadcast = some (s', dirtyAddress) ∧
      ((∀ tb, s.Live tb → (s.tbs tb).Hit T dataPage address width → (s'.tbs tb).dirtyFlag = true) ↔
        ∀ tb, s.Live tb → (s.tbs tb).dirtyFlag = false →
          (s.tbs tb).Hit T dataPage address width → Searched T s cpu address width tb) ∧
      (OrdinaryStore T s cpu dataPage address width →
        ∀ tb, s.Live tb → (s.tbs tb).Hit T dataPage address width → (s'.tbs tb).dirtyFlag = true) ∧
      ∀ tb, (s'.tbs tb).dirtyFlag = true → ∀ runner : Cpu, ∃ s'' runner' result,
          prepareBlockForExecution T s' runner tb = some (s'', runner', result) ∧ result ≠ 0 ∧
          (s'.Hashed T tb → runner.testsDirtyFlag (s'.tbs tb).icount → s''.Gone T tb) := by
  obtain ⟨σ, rep⟩ := reachable.represents
  obtain ⟨tbs, dirtyAddress, marked, records, flags⟩ :=
    helperMarkTbsAsDirty_eq rep cpu address width broadcast
  have taken : ∀ tb, s.Live tb → ((tbs tb).dirtyFlag = true ↔
      (s.tbs tb).dirtyFlag = true ∨ Searched T s cpu address width tb) :=
    fun tb live => flags tb ((rep.live_iff tb).mp live)
  have rep' : Represents T { s with tbs := tbs } σ := by
    apply rep.of_records
    · intro t
      rcases records t with same | dirty
      · rw [same]
      · rw [dirty]
        rfl
    · intro t n
      rcases records t with same | dirty
      · rw [same]
      · rw [dirty]
        rfl
    · intro t n
      rcases records t with same | dirty
      · rw [same]
      · rw [dirty]
        rfl
  refine ⟨{ s with tbs := tbs }, dirtyAddress, marked, ?_, ?_, ?_⟩
  · constructor
    · intro marks tb live clean hit
      rcases (taken tb live).mp (marks tb live hit) with dirty | searched
      · rw [clean] at dirty
        exact absurd dirty Bool.false_ne_true
      · exact searched
    · intro searches tb live hit
      apply (taken tb live).mpr
      cases before : (s.tbs tb).dirtyFlag with
      | true => exact inl rfl
      | false => exact inr (searches tb live before hit)
  · intro ordinary tb live hit
    exact (taken tb live).mpr
      (inr (ordinary.searches live (reachable.isGenerated live).aligned hit))
  · intro tb dirty runner
    exact prepareBlockForExecution_of_dirty rep' dirty runner

end Marking

def scatteredPages (page : Address) : Address := if page = 0x2000 then 0x8000 else page

def scatteredCpu : StoringCpu where
  tbCacheDisabled := false
  tbBroadcastDirty := true
  currentTb := none
  codeTlb := fun index => ⟨some (index * 0x1000), if index = 2 then 0x6000 else 0⟩
  getPhysPageDebug := fun address => some (scatteredPages (sampleTarget.pageBase address))

/-- A store of two bytes at `0x1001` marks the block that has them. -/
theorem helperMarkTbsAsDirty_marks_sample : ∃ s s' dirtyAddress, s.Live 0 ∧
    helperMarkTbsAsDirty sampleTarget s scatteredCpu 0x1001 2 true = some (s', dirtyAddress) ∧
      (s'.tbs 0).dirtyFlag = true := by
  obtain ⟨s, tb, first, onPage, one, searched, size, noSecond, byte⟩ : ∃ s tb,
      tbFindSlow sampleTarget (emptyCache sampleBuffer) (sampleRequest 0x1000 false) =
          some (s, tb) ∧
        s.page (.firstTb 1) = some (0, 0) ∧ s.nbTbs = 1 ∧
        searchedPage sampleTarget s scatteredCpu 0x1001 = some 0x1000 ∧
        (s.tbs 0).size = 4 ∧ (s.tbs 0).pageAddr1 = none ∧
        (s.tbs 0).byteAt sampleTarget 1 = some 0x1001 :=
    ⟨_, _, rfl, by decide, by decide, by decide, by decide, by decide, by decide⟩
  have start := emptyCache_reachable sampleTarget (fun _ _ => True) sampleBuffer
  have reachable := start.step trivial (.findSlow _ first)
  have live : s.Live 0 := ⟨1, 0, Reaches.here onPage⟩
  obtain ⟨s', dirtyAddress, marked, -, ordinaryMarks, -⟩ :=
    helperMarkTbsAsDirty_marks_iff reachable scatteredCpu scatteredPages 0x1001 2 true
  refine ⟨s, s', dirtyAddress, live, marked, ordinaryMarks ?_ 0 live ?_⟩
  · refine ⟨rfl, searched, by decide, by decide, by decide, by decide, fun tb liveTb => ?_⟩
    obtain ⟨σ, rep⟩ := reachable.represents
    have isFirst : tb = 0 := by
      have below := rep.lt_of_live ((rep.live_iff tb).mp liveTb)
      rw [one] at below
      exact lt_one_iff.mp below
    rw [isFirst, size, noSecond]
    exact ⟨by decide, fun page isPage => absurd isPage (by simp)⟩
  · exact ⟨0x1001, ⟨0, by decide, by decide⟩, 1, by rw [size]; decide, byte⟩

/-- A block at `0x1ffe` of four bytes has its last two bytes in physical page 8.
The store to the third byte finds the block on the list of that page and leaves
it clean. -/
theorem helperMarkTbsAsDirty_misses_block : ∃ s s' dirtyAddress tb, Reachable sampleTarget s ∧
    helperMarkTbsAsDirty sampleTarget s scatteredCpu 0x2000 1 true = some (s', dirtyAddress) ∧
      s.Live tb ∧ (s.tbs tb).Hit sampleTarget scatteredPages 0x2000 1 ∧
      (s'.tbs tb).dirtyFlag = false := by
  obtain ⟨s, tb, s', dirtyAddress, first, marked, onPage, byte, clean⟩ : ∃ s tb s' dirtyAddress,
      tbFindSlow sampleTarget (emptyCache sampleBuffer)
          { sampleRequest 0x1ffe false with pages := scatteredPages } = some (s, tb) ∧
        helperMarkTbsAsDirty sampleTarget s scatteredCpu 0x2000 1 true = some (s', dirtyAddress) ∧
        s.page (.firstTb 8) = some (0, 1) ∧
        ((s.tbs 0).byteAt sampleTarget 2 = some 0x8000 ∧ 2 < (s.tbs 0).size) ∧
        (s'.tbs 0).dirtyFlag = false :=
    ⟨_, _, _, _, rfl, rfl, by decide, by decide, by decide⟩
  have start := emptyCache_reachable sampleTarget (fun _ _ => True) sampleBuffer
  exact ⟨s, s', dirtyAddress, 0, start.step trivial (.findSlow _ first), marked,
    ⟨8, 1, Reaches.here onPage⟩, ⟨0x8000, ⟨0, by decide, by decide⟩, 2, byte.2, byte.1⟩, clean⟩

end Tlib.TranslationCache
