import Tlib.TranslationCache.DirtyMarking

/-!
Contract: invalidating the blocks of a physical address range.

Owns: the code bitmap of a page, and the executing block that is changed by its own store. Does not
own: the calls that tell other CPUs or lift the write protection of a page, and the store.
-/

namespace Tlib.TranslationCache

open Tlib.Library.Linked Function List Nat
open Option hiding or_assoc

/-! ### The code bitmap -/

/-- The loop of `set_bits` over whole bytes. -/
def fillBytes (tab : Nat → BitVec 8) (byte : Nat) : Nat → Nat → BitVec 8
  | 0 => tab
  | len + 1 => fillBytes (update tab byte 0xff) (byte + 1) len

def setBits (tab : Nat → BitVec 8) (start len : Nat) : Nat → BitVec 8 :=
  let stop := start + len
  let mask := (0xff : BitVec 8) <<< (start % 8)
  if start / 8 = stop / 8 then
    if start < stop then
      let mask := mask &&& ~~~((0xff : BitVec 8) <<< (stop % 8))
      update tab (start / 8) (tab (start / 8) ||| mask)
    else tab
  else
    let tab := update tab (start / 8) (tab (start / 8) ||| mask)
    let tab := fillBytes tab (start / 8 + 1) (stop / 8 - (start / 8 + 1))
    if stop / 8 * 8 < stop then
      let mask := ~~~((0xff : BitVec 8) <<< (stop % 8))
      update tab (stop / 8) (tab (stop / 8) ||| mask)
    else tab

/-- The walk of `build_page_bitmap`, with fuel. -/
def markCode (T : Target) (s : State) :
    Nat → (Nat → BitVec 8) → Option Slot → Option (Nat → BitVec 8)
  | 0, _, _ => none
  | _ + 1, codeBitmap, none => some codeBitmap
  | fuel + 1, codeBitmap, some (tb, n) =>
    let block := s.tbs tb
    let tbStart := if n = 0 then T.pageOffset block.pc else 0
    let tbEnd :=
      if n = 0 then min (tbStart + block.size) T.pageSize
      else T.pageOffset (T.toUlong (block.pc + block.size))
    markCode T s fuel (setBits codeBitmap tbStart (tbEnd - tbStart)) (s.page (.pageNext (tb, n)))

def buildPageBitmap (T : Target) (s : State) (p : Nat) : Option State :=
  (markCode T s (2 * s.nbTbs + 1) (fun _ => 0) (s.page (.firstTb p))).map fun codeBitmap =>
    { s with codeBitmap := update s.codeBitmap p (some codeBitmap) }

def smcBitmapUseThreshold : Nat := 10

/-- The count of the writes to a page without bitmap, and its bitmap after enough of them. -/
def countWrite (T : Target) (s : State) (p : Nat) (isCpuWriteAccess : Bool) : Option State :=
  if (s.codeBitmap p).isSome then some s
  else
    let count := s.codeWriteCount p + 1
    let s := { s with codeWriteCount := update s.codeWriteCount p count }
    if smcBitmapUseThreshold ≤ count ∧ isCpuWriteAccess then buildPageBitmap T s p else some s

/-! ### The walk over one page -/

/-- `tb_start` of an entry of a page list. -/
def TranslationBlock.entryStart (T : Target) (tb : TranslationBlock) (n : Fin 2) : Address :=
  if n = 0 then tb.pageAddr0 + T.pageOffset tb.pc else tb.pageAddr1.getD (2 ^ 64 - 1)

/-- `tb_end` of an entry of a page list. -/
def TranslationBlock.entryEnd (T : Target) (tb : TranslationBlock) (n : Fin 2) : Address :=
  if n = 0 then tb.entryStart T n + tb.size
  else tb.entryStart T n + T.pageOffset (T.toUlong (tb.pc + tb.size))

namespace TranslationBlock

variable (T : Target) (tb : TranslationBlock)

@[simp] theorem entryStart_zero : tb.entryStart T 0 = tb.pageAddr0 + T.pageOffset tb.pc := rfl

@[simp] theorem entryStart_one : tb.entryStart T 1 = tb.pageAddr1.getD (2 ^ 64 - 1) := rfl

@[simp] theorem entryEnd_zero : tb.entryEnd T 0 = tb.pageAddr0 + T.pageOffset tb.pc + tb.size := rfl

@[simp] theorem entryEnd_one : tb.entryEnd T 1 =
    tb.pageAddr1.getD (2 ^ 64 - 1) + T.pageOffset (T.toUlong (tb.pc + tb.size)) := rfl

end TranslationBlock

/-- The test on an entry; it supports blocks with `tb_start == tb_end`. -/
def TranslationBlock.meets (T : Target) (tb : TranslationBlock) (n : Fin 2)
    (start stop : Address) : Bool :=
  let tbStart := tb.entryStart T n
  let tbEnd := tb.entryEnd T n
  (start ≤ tbStart && tbStart < stop) || (start ≤ tbEnd && tbEnd < stop) ||
    (tbStart ≤ start && stop ≤ tbEnd)

theorem TranslationBlock.meets_iff (T : Target) (tb : TranslationBlock) (n : Fin 2)
    (start stop : Address) :
    tb.meets T n start stop = true ↔ (start ≤ tb.entryStart T n ∧ tb.entryStart T n < stop) ∨
        (start ≤ tb.entryEnd T n ∧ tb.entryEnd T n < stop) ∨
        (tb.entryStart T n ≤ start ∧ stop ≤ tb.entryEnd T n) := by
  simp [meets, or_assoc]

/-- The walk that removes the blocks in the range; the next entry is read first. -/
def invalidateEntries (T : Target) (start stop : Address) : Nat → State → Option Slot → Option State
  | 0, _, _ => none
  | _ + 1, s, none => some s
  | fuel + 1, s, some (tb, n) =>
    let tbNext := s.page (.pageNext (tb, n))
    if (s.tbs tb).meets T n start stop then
      (tbPhysInvalidate T s tb none).bind fun s => invalidateEntries T start stop fuel s tbNext
    else invalidateEntries T start stop fuel s tbNext

/-- The part of the function that all targets have; `none` when `tlib_abortf` is reached, a loop does
not end or a null pointer is followed. -/
def tbInvalidatePhysPageRangeInner (T : Target) (s : State) (start stop : Address)
    (isCpuWriteAccess : Bool) : Option State :=
  if start / T.pageSize ≠ (stop - 1) / T.pageSize then none
  else
    match pageFind s (T.pageIndex start) with
    | none => some s
    | some p => do
      let s ← countWrite T s p isCpuWriteAccess
      let s ← invalidateEntries T start stop (2 * s.nbTbs + 1) s (s.page (.firstTb p))
      -- if no code remaining, no need to continue to use slow writes
      some (if s.page (.firstTb p) = none then invalidatePageBitmap s p else s)

/-! ### `TARGET_HAS_PRECISE_SMC` -/

/-- The block of `mem_io_pc`, and what is generated at the state restored from it. -/
structure PreciseSmc where
  currentTb : TbId
  /-- `cflags & CF_COUNT_MASK` of the block -/
  count : Nat
  pages : PageMap
  pc : Address
  (csBase flags : Nat)
  gen : Generation

/-- The walk meets the block `current_tb`. -/
def meetsCurrent (T : Target) (s : State) (currentTb : TbId) (start stop : Address) :
    Nat → Option Slot → Bool
  | 0, _ => false
  | _ + 1, none => false
  | fuel + 1, some (tb, n) =>
    (tb = currentTb && (s.tbs tb).meets T n start stop) ||
      meetsCurrent T s currentTb start stop fuel (s.page (.pageNext (tb, n)))

/-- `current_tb_modified` -/
def PreciseSmc.modified (T : Target) (s : State) (smc : PreciseSmc) (start stop : Address)
    (isCpuWriteAccess : Bool) : Bool :=
  isCpuWriteAccess && smc.count ≠ 1 && (pageFind s (T.pageIndex start)).isSome &&
    meetsCurrent T s smc.currentTb start stop (2 * s.nbTbs + 1)
      (s.page (.firstTb (T.pageIndex start)))

/-- The whole of `tb_invalidate_phys_page_range_inner`, and whether it leaves by `cpu_loop_exit`;
other targets, and calls without a block of `mem_io_pc`, have no `smc`. -/
def invalidatePage (T : Target) (smc : Option PreciseSmc) (s : State) (start stop : Address)
    (isCpuWriteAccess : Bool) : Option (State × Bool) := do
  let after ← tbInvalidatePhysPageRangeInner T s start stop isCpuWriteAccess
  match smc.filter fun smc => smc.modified T s start stop isCpuWriteAccess with
  | none => some (after, false)
  | some smc =>
    let (after, _) ← tbGenAndInsert T after smc.pages smc.pc smc.csBase smc.flags smc.gen
    some (after, true)

/-! ### The loop over pages -/

/-- The arguments of a call of `tb_invalidate_phys_page_range_inner`. -/
structure SubRange where
  (start stop : Address)
deriving DecidableEq, Repr

/-- The loop behind the first page, with the calls it makes. -/
def invalidateFollowing (T : Target) (smc : Option PreciseSmc) (isCpuWriteAccess : Bool) :
    Nat → State → Address → Nat → Option (State × List SubRange)
  | 0, _, _, _ => none
  | fuel + 1, s, start, length =>
    if length = 0 then some (s, [])
    else do
      let invalidateLength := if T.pageSize < length then T.pageSize else length
      let (s, leaves) ← invalidatePage T smc s start (start + invalidateLength) isCpuWriteAccess
      let (s, visited) ← if leaves then some (s, []) else
        invalidateFollowing T smc isCpuWriteAccess fuel s (start + invalidateLength)
          (length - invalidateLength)
      some (s, ⟨start, start + invalidateLength⟩ :: visited)

/-- `tb_invalidate_phys_page_range_checked`, with the calls it makes. -/
def tbInvalidatePhysPageRangeChecked (T : Target) (smc : Option PreciseSmc) (s : State)
    (start stop : Address) (isCpuWriteAccess : Bool) : Option (State × List SubRange) := do
  let length := stop - start
  let firstLength := T.pageSize - start % T.pageSize
  let firstLength := if length < firstLength then length else firstLength
  let (s, leaves) ← invalidatePage T smc s start (start + firstLength) isCpuWriteAccess
  let (s, visited) ← if leaves then some (s, []) else
    invalidateFollowing T smc isCpuWriteAccess (length + 1) s (start + firstLength)
      (length - firstLength)
  some (s, ⟨start, start + firstLength⟩ :: visited)

/-! ### One page -/

section Walk

variable {T : Target} {s : State} {σ : Shape} {start stop : Address}

theorem page_eq_head? {page : PageMemory} {cell : PageCell} {l : List Slot}
    (segment : Segment pageRoots.toThreading page cell l none) : page cell = l.head? := by
  cases l with
  | nil => exact segment
  | cons entry rest => exact segment.1

theorem Represents.pageNext_eq (rep : Represents T s σ) {p : Nat} {front rest : List Slot}
    {entry : Slot} (shape : σ.pageList p = front ++ entry :: rest) :
    s.page (.pageNext entry) = rest.head? := by
  have segment := rep.pages.family.segment p trivial
  rw [shape, segment_append] at segment
  exact page_eq_head? segment.2

theorem Represents.mem_pageList_iff (rep : Represents T s σ) (t : TbId) (n : Fin 2) (p : Nat) :
    (t, n) ∈ σ.pageList p ↔ σ.Live t ∧ (s.tbs t).pageOf T n = some p := by
  constructor
  · intro member
    exact ⟨⟨p, n, member⟩, rep.pages.home p (t, n) member⟩
  · rintro ⟨⟨q, m, member⟩, home⟩
    exact rep.pages.both q (t, m) member n p home

theorem withoutTb_after_both {tb : TbId} {n m : Fin 2} {rest : List Slot}
    (nodup : ((tb, n) :: (tb, m) :: rest).Nodup) : withoutTb tb rest = rest := by
  apply withoutTb_of_absent
  rintro ⟨u, k⟩ member rfl
  simp only [nodup_cons, mem_cons, Prod.mk.injEq, true_and, not_or] at nodup
  have either : k = n ∨ k = m := by omega
  rcases either with rfl | rfl
  · exact nodup.1.2 member
  · exact nodup.2.1 member

theorem invalidateEntries_of_absent (rep : Represents T s σ) {entry : Slot}
    (absent : ∀ h, entry.1 ∉ σ.bucket h) (fuel : Nat) :
    invalidateEntries T start stop (fuel + 1) s (some entry) =
      invalidateEntries T start stop fuel s (s.page (.pageNext entry)) := by
  obtain ⟨tb, n⟩ := entry
  by_cases met : (s.tbs tb).meets T n start stop = true
  · rw [invalidateEntries, if_pos met, tbPhysInvalidate_of_absent rep (absent _), bind_some]
  · rw [invalidateEntries, if_neg met]

theorem invalidateEntries_skip (start stop : Address) {s₁ : State} {tb : TbId} {n : Fin 2}
    {p fuel : Nat}
    {front rest : List Slot} (rep : Represents T s σ) (rep₁ : Represents T s₁ (σ.without tb))
    (shape : σ.pageList p = front ++ (tb, n) :: rest)
    (sameNext : ∀ m, s₁.page (.pageNext (tb, m)) = s.page (.pageNext (tb, m)))
    (enough : rest.length < fuel) :
    ∃ fuel' ≤ fuel, (withoutTb tb rest).length < fuel' ∧
      invalidateEntries T start stop fuel s₁ rest.head? =
        invalidateEntries T start stop fuel' s₁ (withoutTb tb rest).head? := by
  cases rest with
  | nil => exact ⟨fuel, Nat.le_refl _, enough, rfl⟩
  | cons entry following =>
    by_cases isTb : entry.1 = tb
    · obtain ⟨u, m⟩ := entry
      obtain rfl : u = tb := isTb
      obtain ⟨less, rfl⟩ := exists_eq_succ_of_ne_zero (Nat.ne_of_gt (zero_lt_of_lt enough))
      have shape' : σ.pageList p = (front ++ [(u, n)]) ++ (u, m) :: following := by simp [shape]
      have nodup := rep.pages.family.nodup p
      rw [shape, nodup_append] at nodup
      have kept := withoutTb_after_both nodup.2.1
      have absent : ∀ h, u ∉ (σ.without u).bucket h := fun h =>
        (rep.buckets.nodup h).not_mem_erase
      have dropped : withoutTb u ((u, m) :: following) = following := by
        rw [← kept]
        simp [withoutTb, isEntryOf]
      refine ⟨less, le_succ less, ?_, ?_⟩
      · rw [dropped]
        exact lt_of_succ_lt_succ enough
      · rw [dropped, head?_cons, invalidateEntries_of_absent rep₁ absent, sameNext,
          rep.pageNext_eq shape']
    · have first : withoutTb tb (entry :: following) = entry :: withoutTb tb following := by
        simp [withoutTb, isEntryOf, isTb]
      refine ⟨fuel, Nat.le_refl _, ?_, ?_⟩
      · exact Nat.lt_of_le_of_lt (filter_sublist.length_le) enough
      · rw [first, head?_cons, head?_cons]

theorem invalidateEntries_eq (start stop : Address) {p fuel : Nat} {front rest : List Slot}
    (rep : Represents T s σ) (shape : σ.pageList p = front ++ rest) (enough : rest.length < fuel) :
    ∃ s' σ' l, invalidateEntries T start stop fuel s rest.head? = some s' ∧
      AfterInvalidations T s σ l s' σ' ∧
      ∀ t, t ∈ l ↔ ∃ n, (t, n) ∈ rest ∧ (s.tbs t).meets T n start stop = true := by
  induction fuel using Nat.strong_induction_on generalizing s σ front rest with
  | _ fuel ih =>
    obtain ⟨less, rfl⟩ := exists_eq_succ_of_ne_zero (Nat.ne_of_gt (zero_lt_of_lt enough))
    cases rest with
    | nil => exact ⟨s, σ, [], rfl, AfterInvalidations.refl rep, by simp⟩
    | cons entry rest =>
      obtain ⟨tb, n⟩ := entry
      have shorter : rest.length < less := lt_of_succ_lt_succ enough
      have following : σ.pageList p = (front ++ [(tb, n)]) ++ rest := by simp [shape]
      have next := rep.pageNext_eq shape
      by_cases met : (s.tbs tb).meets T n start stop = true
      · by_cases hashed : tb ∈ σ.bucket ((s.tbs tb).hashIndex T)
        · obtain ⟨s₁, removed, rep₁, effect₁⟩ := tbPhysInvalidate_of_mem rep hashed
          have shape₁ : (σ.without tb).pageList p = withoutTb tb front ++ withoutTb tb rest := by
            change withoutTb tb (σ.pageList p) = _
            simp [shape, withoutTb, isEntryOf]
          obtain ⟨fuel', le, enough', same⟩ := invalidateEntries_skip start stop rep rep₁
            shape (tbPhysInvalidate_pageNext removed) shorter
          obtain ⟨s', σ', l, walked, effect, taken⟩ :=
            ih fuel' (lt_succ_of_le le) rep₁ shape₁ enough'
          refine ⟨s', σ', tb :: l, ?_, (effect₁.after rep hashed rep₁).trans effect, fun t => ?_⟩
          · rw [head?_cons, invalidateEntries, if_pos met, removed, bind_some, next,
              same, walked]
          · rw [mem_cons, taken, effect₁.same.tbs]
            by_cases isTb : t = tb
            · rw [isTb]
              exact ⟨fun _ => ⟨n, mem_cons_self, met⟩, fun _ => Or.inl rfl⟩
            · simp [isTb, mem_withoutTb]
        · obtain ⟨s', σ', l, walked, effect, taken⟩ :=
            ih less (lt_succ_self less) rep following shorter
          have absent : ∀ h, tb ∉ σ.bucket h := fun h inBucket =>
            hashed ((rep.mem_bucket_iff tb).mp ⟨h, inBucket⟩)
          refine ⟨s', σ', tb :: l, ?_, (AfterInvalidations.of_absent rep hashed).trans effect,
            fun t => ?_⟩
          · rw [head?_cons, invalidateEntries_of_absent rep absent, next, walked]
          · rw [mem_cons, taken]
            constructor
            · rintro (rfl | ⟨m, inRest, hit⟩)
              · exact ⟨n, mem_cons_self, met⟩
              · exact ⟨m, mem_cons_of_mem _ inRest, hit⟩
            · rintro ⟨m, member, hit⟩
              rcases mem_cons.mp member with first | inRest
              · exact Or.inl (Prod.mk.inj first).1
              · exact Or.inr ⟨m, inRest, hit⟩
      · obtain ⟨s', σ', l, walked, effect, taken⟩ :=
          ih less (lt_succ_self less) rep following shorter
        refine ⟨s', σ', l, ?_, effect, fun t => ?_⟩
        · rw [head?_cons, invalidateEntries, if_neg met, next]
          exact walked
        · rw [taken]
          refine exists_congr fun k => ?_
          simp only [mem_cons, Prod.mk.injEq]
          constructor
          · exact fun hit => ⟨Or.inr hit.1, hit.2⟩
          · rintro ⟨⟨rfl, rfl⟩ | inRest, hit⟩
            · exact absurd hit met
            · exact ⟨inRest, hit⟩

/-! ### The bitmap of a page -/

theorem Represents.afterBitmaps (rep : Represents T s σ)
    (codeBitmap : Nat → Option (Nat → BitVec 8)) (codeWriteCount : Nat → Nat) :
    AfterInvalidations T s σ []
      { s with codeBitmap := codeBitmap, codeWriteCount := codeWriteCount } σ := by
  have unchanged := AfterInvalidations.refl rep
  exact ⟨⟨rep.buckets, rep.bucketHome, rep.bucketLive, rep.pages, rep.graph, rep.liveLinked,
      rep.unpatched⟩, ⟨rfl, rfl, rfl, rfl, rfl⟩, unchanged.bucket, unchanged.live,
    unchanged.chain, unchanged.flag, fun _ _ => rfl, rfl⟩

theorem markCode_isSome {cell : PageCell} {l : List Slot} {fuel : Nat}
    (segment : Segment pageRoots.toThreading s.page cell l none) (enough : l.length < fuel)
    (codeBitmap : Nat → BitVec 8) :
    ∃ marked, markCode T s fuel codeBitmap (s.page cell) = some marked := by
  induction l generalizing cell fuel codeBitmap with
  | nil =>
    obtain ⟨less, rfl⟩ := exists_eq_succ_of_ne_zero (Nat.ne_of_gt enough)
    exact ⟨codeBitmap, by rw [segment, markCode]⟩
  | cons entry rest ih =>
    obtain ⟨less, rfl⟩ := exists_eq_succ_of_ne_zero (Nat.ne_of_gt (zero_lt_of_lt enough))
    obtain ⟨first, tail⟩ := segment
    obtain ⟨marked, walked⟩ := ih tail (lt_of_succ_lt_succ enough) _
    refine ⟨marked, ?_⟩
    rw [first]
    exact walked

theorem buildPageBitmap_eq (rep : Represents T s σ) (p : Nat) :
    ∃ codeBitmap, buildPageBitmap T s p = some { s with codeBitmap := codeBitmap } := by
  obtain ⟨marked, walked⟩ := markCode_isSome (T := T) (rep.pages.family.segment p trivial)
    (lt_succ_of_le (rep.pageList_length_le p)) fun _ => 0
  refine ⟨update s.codeBitmap p (some marked), ?_⟩
  exact congrArg (Option.map _) walked

theorem countWrite_after (rep : Represents T s σ) (p : Nat) (isCpuWriteAccess : Bool) :
    ∃ s', countWrite T s p isCpuWriteAccess = some s' ∧ s'.page = s.page ∧
      AfterInvalidations T s σ [] s' σ := by
  let codeWriteCount := update s.codeWriteCount p (s.codeWriteCount p + 1)
  have counted := rep.afterBitmaps s.codeBitmap codeWriteCount
  obtain ⟨codeBitmap, built⟩ := buildPageBitmap_eq counted.rep p
  unfold countWrite
  dsimp only
  split_ifs
  · exact ⟨s, rfl, rfl, AfterInvalidations.refl rep⟩
  · exact ⟨_, built, rfl, rep.afterBitmaps codeBitmap codeWriteCount⟩
  · exact ⟨_, rfl, rfl, counted⟩

def TranslationBlock.Met (T : Target) (tb : TranslationBlock) (start stop : Address) : Prop :=
  ∃ n, tb.pageOf T n = some (T.pageIndex start) ∧ tb.meets T n start stop = true

theorem tbInvalidatePhysPageRangeInner_eq (rep : Represents T s σ)
    (onePage : T.pageIndex start = T.pageIndex (stop - 1)) (isCpuWriteAccess : Bool) :
    ∃ s' σ' l, tbInvalidatePhysPageRangeInner T s start stop isCpuWriteAccess = some s' ∧
      AfterInvalidations T s σ l s' σ' ∧
      ∀ t, t ∈ l ↔ σ.Live t ∧ (s.tbs t).Met T start stop := by
  have noAbort : ¬ start / T.pageSize ≠ (stop - 1) / T.pageSize := not_not.mpr onePage
  rw [tbInvalidatePhysPageRangeInner, if_neg noAbort, pageFind]
  by_cases leaf : s.leafAllocated (leafOf (T.pageIndex start)) = true
  · obtain ⟨s₁, counted, samePage, effect₁⟩ := countWrite_after rep (T.pageIndex start)
      isCpuWriteAccess
    have segment := effect₁.rep.pages.family.segment (T.pageIndex start) trivial
    have whole : σ.pageList (T.pageIndex start) = [] ++ σ.pageList (T.pageIndex start) := rfl
    obtain ⟨s₂, σ₂, l, walked, effect₂, taken⟩ := invalidateEntries_eq start stop effect₁.rep whole
      (lt_succ_of_le (effect₁.rep.pageList_length_le (T.pageIndex start)))
    have effect := effect₁.trans effect₂
    refine ⟨if s₂.page (.firstTb (T.pageIndex start)) = none then
      invalidatePageBitmap s₂ (T.pageIndex start) else s₂, σ₂, l, ?_, ?_, fun t => ?_⟩
    · simp only [leaf, if_true, counted, bind_eq_bind, bind_some]
      rw [show s₁.page (.firstTb (T.pageIndex start)) = _ from page_eq_head? segment, walked]
      rfl
    · split_ifs
      · have cleared := effect.trans (effect.rep.afterBitmaps
          (update s₂.codeBitmap (T.pageIndex start) none)
          (update s₂.codeWriteCount (T.pageIndex start) 0))
        rwa [append_nil] at cleared
      · exact effect
    · rw [taken, effect₁.same.tbs]
      simp only [rep.mem_pageList_iff, and_assoc, exists_and_left]
      rfl
  · have isEmpty : σ.pageList (T.pageIndex start) = [] := by
      by_contra nonempty
      exact leaf (rep.pages.leaf _ nonempty)
    refine ⟨s, σ, [], by simp [leaf], AfterInvalidations.refl rep, fun t => ?_⟩
    constructor
    · exact fun member => absurd member not_mem_nil
    · rintro ⟨live, n, home, -⟩
      have member := (rep.mem_pageList_iff t n _).mpr ⟨live, home⟩
      rw [isEmpty] at member
      exact absurd member not_mem_nil

/-- The call meets no code of the block whose store it follows, unless that is of one instruction. -/
def SparesCurrent (T : Target) (s : State) (smc : Option PreciseSmc) (start stop : Address)
    (isCpuWriteAccess : Bool) : Prop :=
  isCpuWriteAccess = true → ∀ current ∈ smc, current.count ≠ 1 → ∀ a b, start ≤ a → b ≤ stop →
    ¬(s.tbs current.currentTb).Met T a b

theorem met_of_meetsCurrent (rep : Represents T s σ) {currentTb : TbId} {p fuel : Nat}
    {front rest : List Slot} (shape : σ.pageList p = front ++ rest)
    (met : meetsCurrent T s currentTb start stop fuel rest.head? = true) :
    ∃ n, (s.tbs currentTb).pageOf T n = some p ∧
      (s.tbs currentTb).meets T n start stop = true := by
  induction fuel generalizing front rest with
  | zero => cases met
  | succ less ih =>
    cases rest with
    | nil => cases met
    | cons entry rest =>
      obtain ⟨tb, n⟩ := entry
      rw [head?_cons, meetsCurrent, rep.pageNext_eq shape, Bool.or_eq_true] at met
      rcases met with here | behind
      · obtain ⟨rfl, hit⟩ : tb = currentTb ∧ (s.tbs tb).meets T n start stop = true := by
          simpa using here
        have member : (tb, n) ∈ σ.pageList p := by simp [shape]
        exact ⟨n, ((rep.mem_pageList_iff tb n p).mp member).2, hit⟩
      · have following : σ.pageList p = (front ++ [(tb, n)]) ++ rest := by simp [shape]
        exact ih following behind

theorem SparesCurrent.modified {smc : Option PreciseSmc} {isCpuWriteAccess : Bool}
    (spares : SparesCurrent T s smc start stop isCpuWriteAccess) (rep : Represents T s σ)
    {a b : Address} (low : start ≤ a) (high : b ≤ stop) :
    (smc.filter fun smc => smc.modified T s a b isCpuWriteAccess) = none := by
  rw [Option.filter_eq_none_iff]
  intro current member modified
  simp only [PreciseSmc.modified, Bool.and_eq_true, decide_eq_true_eq] at modified
  obtain ⟨⟨⟨write, several⟩, -⟩, met⟩ := modified
  refine spares write current member several a b low high ?_
  have first : s.page (.firstTb (T.pageIndex a)) = (σ.pageList (T.pageIndex a)).head? :=
    page_eq_head? (rep.pages.family.segment (T.pageIndex a) trivial)
  rw [first] at met
  exact met_of_meetsCurrent rep (nil_append _).symm met

theorem SparesCurrent.mono {s₁ : State} {smc : Option PreciseSmc} {isCpuWriteAccess : Bool}
    (spares : SparesCurrent T s smc start stop isCpuWriteAccess) (same : s₁.tbs = s.tbs)
    {a : Address} (low : start ≤ a) : SparesCurrent T s₁ smc a stop isCpuWriteAccess := by
  intro write current member several b c inside
  rw [same]
  exact spares write current member several b c (low.trans inside)

end Walk

/-! ### All pages -/

/-- Consecutive nonempty sub-ranges from `start` to `stop`, each inside one page. -/
def Tiles (T : Target) : Address → List SubRange → Address → Prop
  | start, [], stop => start = stop
  | start, range :: rest, stop =>
    range.start = start ∧ range.start < range.stop ∧
      T.pageIndex range.start = T.pageIndex (range.stop - 1) ∧ Tiles T range.stop rest stop

section Pages

variable {T : Target} {s : State} {σ : Shape} {start stop : Address} {visited : List SubRange}

theorem Tiles.le (tiles : Tiles T start visited stop) : start ≤ stop := by
  induction visited generalizing start with
  | nil => exact Nat.le_of_eq tiles
  | cons range rest ih =>
    obtain ⟨rfl, nonempty, -, tail⟩ := tiles
    exact nonempty.le.trans (ih tail)

theorem Target.pageIndex_pred (T : Target) {start length : Nat} (pos : 0 < length)
    (fits : start % T.pageSize + length ≤ T.pageSize) :
    T.pageIndex start = T.pageIndex (start + length - 1) := by
  have split := div_add_mod start T.pageSize
  have last : start + length - 1 =
      T.pageSize * (start / T.pageSize) + (start % T.pageSize + length - 1) := by omega
  have inside : start % T.pageSize + length - 1 < T.pageSize := by omega
  unfold Target.pageIndex
  rw [last, mul_add_div T.pageSize_pos, div_eq_of_lt inside, Nat.add_zero]

theorem AfterInvalidations.hashed_iff {s₁ : State} {σ₁ : Shape} {l : List TbId}
    (effect : AfterInvalidations T s σ l s₁ σ₁) (before : Represents T s σ) (t : TbId) :
    s₁.Hashed T t ↔ s.Hashed T t ∧ t ∉ l := by
  rw [effect.rep.hashed_iff, before.hashed_iff]
  simp only [effect.bucket, mem_filter, decide_eq_true_eq]
  exact exists_and_right

theorem mem_append_iff_met {s₁ : State} {σ₁ : Shape} {l₁ l₂ : List TbId} {first second : TbId → Prop}
    (effect : AfterInvalidations T s σ l₁ s₁ σ₁) (taken₁ : ∀ t, t ∈ l₁ ↔ σ.Live t ∧ first t)
    (taken₂ : ∀ t, t ∈ l₂ ↔ σ₁.Live t ∧ second t) (t : TbId) :
    t ∈ l₁ ++ l₂ ↔ σ.Live t ∧ (first t ∨ second t) := by
  rw [mem_append, taken₁, taken₂, effect.live, taken₁]
  tauto

end Pages

/-! ### What is left in the hash table -/

structure TranslationBlock.Aligned (T : Target) (tb : TranslationBlock) : Prop where
  first : T.pageBase tb.pageAddr0 = tb.pageAddr0
  second : ∀ page, tb.pageAddr1 = some page → T.pageBase page = page

theorem TranslationBlock.Aligned.pageAddr0_eq {T : Target} {tb : TranslationBlock}
    (aligned : tb.Aligned T) {a : Address} (home : tb.pageOf T 0 = some (T.pageIndex a)) :
    tb.pageAddr0 = T.pageBase a := by
  rw [← aligned.first]
  exact congrArg (· * T.pageSize) (some.inj home)

theorem TranslationBlock.Aligned.pageAddr1_eq {T : Target} {tb : TranslationBlock}
    (aligned : tb.Aligned T) {a : Address} (home : tb.pageOf T 1 = some (T.pageIndex a)) :
    tb.pageAddr1 = some (T.pageBase a) := by
  obtain ⟨page, isPage, sameIndex⟩ := map_eq_some_iff.mp home
  rw [isPage, ← aligned.second page isPage]
  exact congrArg (fun index => some (index * T.pageSize)) sameIndex

structure TranslationBlock.Fits (T : Target) (tb : TranslationBlock) : Prop
    extends tb.Aligned T where
  size : tb.size ≤ T.pageSize

section Left

variable {T : Target} {tb : TranslationBlock} {range : SubRange}

theorem Target.pageOffset_toUlong (T : Target) (value : Nat) :
    T.pageOffset (T.toUlong value) = T.pageOffset value :=
  mod_mod_of_dvd _ (Nat.pow_dvd_pow 2 T.pageBits_le)

theorem Target.pageOffset_crossing (T : Target) {pc size : Nat}
    (behind : T.pageSize ≤ T.pageOffset pc + size) (ends : T.pageOffset pc + size < 2 * T.pageSize) :
    T.pageOffset (pc + size) = T.pageOffset pc + size - T.pageSize := by
  unfold Target.pageOffset at behind ends ⊢
  rw [← mod_add_mod, mod_eq_sub_mod behind, mod_eq_of_lt (by omega)]

theorem IsGenerated.pagesAligned (isGenerated : IsGenerated T tb) : tb.Aligned T := by
  refine ⟨isGenerated.aligned, fun page isPage => ?_⟩
  obtain ⟨pages, pc, csBase, flags, gen, dirtyFlag, record⟩ := isGenerated
  rw [record] at isPage
  change secondPage T pages pc gen.size = some page at isPage
  unfold secondPage at isPage
  dsimp only at isPage
  split_ifs at isPage
  obtain rfl := some.inj isPage
  exact T.pageBase_pageBase _

end Left

end Tlib.TranslationCache
