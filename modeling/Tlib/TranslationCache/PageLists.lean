import Tlib.Library.Family
import Tlib.TranslationCache.State

/-!
Contract: the per-page lists of blocks.

Owns: `tb_alloc_page` and `tb_page_remove` on the slots of blocks, one for each page that a block is
on, and the lists of all pages as one family. Does not own: the code bitmap of a page.
-/

namespace Tlib.TranslationCache

open Tlib.Library.Linked Function List Option

def pageRoots : Rooted PageCell Slot (Option Slot) Nat where
  ptr := some
  field := .pageNext
  head := .firstTb
  stop := fun _ => none
  ptr_injective := fun _ _ equal => some.inj equal
  field_injective := fun _ _ equal => PageCell.pageNext.inj equal
  head_injective := fun _ _ equal => PageCell.firstTb.inj equal
  field_ne_head := fun _ _ equal => PageCell.noConfusion equal
  ptr_ne_stop := fun _ _ equal => some_ne_none _ equal

abbrev PageMemory := PageCell → Option Slot

abbrev Pages (page : PageMemory) (pageList : Nat → List Slot) : Prop :=
  Family pageRoots page (fun _ => True) pageList

/-- `address & ~IO_MEM_EXECUTABLE_IO`, with `IO_MEM_EXECUTABLE_IO = 8 << 3`. -/
def clearExecutableIo (address : Address) : Address := address - (address &&& 64)

/-- `tb_alloc_page`, without the write protection of the page. -/
def tbAllocPage (T : Target) (s : State) (tb : TbId) (n : Fin 2) (pageAddr : Address) : State :=
  let pageAddr := clearExecutableIo pageAddr
  let block := s.tbs tb
  let block :=
    if n = 0 then { block with pageAddr0 := pageAddr } else { block with pageAddr1 := some pageAddr }
  let p := T.pageIndex pageAddr
  let s := pageFindAlloc s p
  let page := update s.page (.pageNext (tb, n)) (s.page (.firstTb p))
  invalidatePageBitmap { s with
    tbs := update s.tbs tb block
    page := update page (.firstTb p) (some (tb, n)) } p

def nextPageCell (tb1 : Option Slot) : Option PageCell := tb1.map .pageNext

/-- `tb_page_remove`; running off the list would dereference `NULL`. -/
def tbPageRemove (page : PageMemory) (fuel : Nat) (ptb : PageCell) (tb : TbId) :
    Option PageMemory :=
  (seek page nextPageCell (fun tb1 => tb1.any fun entry => entry.1 = tb) fuel ptb).bind fun ptb =>
    (page ptb).map fun entry => update page ptb (page (.pageNext entry))

theorem clearExecutableIo_pageBase (T : Target) (address : Address) :
    clearExecutableIo (T.pageBase address) = T.pageBase address := by
  have aligned : T.pageBase address &&& 64 = 0 := by
    apply Nat.eq_of_testBit_eq
    intro bit
    rw [Nat.testBit_and, Nat.zero_testBit, show 64 = 2 ^ 6 from rfl, Nat.testBit_two_pow]
    by_cases isSix : 6 = bit
    · subst isSix
      have low : 6 < T.pageBits := T.pageBits_ge
      rw [Target.pageBase, Target.pageSize, Nat.mul_comm, Nat.testBit_two_pow_mul]
      simp [Nat.not_le.mpr low]
    · simp [isSix]
  rw [clearExecutableIo, aligned, Nat.sub_zero]

section Entries

variable {l : List Slot} {tb : TbId}

def isEntryOf (tb : TbId) (entry : Slot) : Bool := entry.1 = tb

theorem eraseP_split {p : Slot → Bool} {entry : Slot} {front back : List Slot}
    (skip : ∀ e ∈ front, p e = false) (hit : p entry = true) :
    (front ++ entry :: back).eraseP p = front ++ back := by
  rw [eraseP_append_right _ (fun e member => by simp [skip e member]),
    eraseP_cons_of_pos hit]

theorem exists_first_entry (some_entry : ∃ entry ∈ l, entry.1 = tb) :
    ∃ front n back, l = front ++ (tb, n) :: back ∧ ∀ e ∈ front, isEntryOf tb e = false := by
  induction l with
  | nil =>
    obtain ⟨entry, member, -⟩ := some_entry
    exact absurd member not_mem_nil
  | cons e rest ih =>
    by_cases hit : e.1 = tb
    · refine ⟨[], e.2, rest, ?_, by simp⟩
      rw [← hit]
      rfl
    · have later : ∃ entry ∈ rest, entry.1 = tb := by
        obtain ⟨entry, member, isEntry⟩ := some_entry
        rcases mem_cons.mp member with rfl | inRest
        · exact absurd isEntry hit
        · exact ⟨entry, inRest, isEntry⟩
      obtain ⟨front, n, back, rfl, skip⟩ := ih later
      refine ⟨e :: front, n, back, rfl, ?_⟩
      intro e' member
      rcases mem_cons.mp member with rfl | inFront
      · simp [isEntryOf, hit]
      · exact skip e' inFront

def withoutTb (tb : TbId) (l : List Slot) : List Slot := l.filter fun entry => !isEntryOf tb entry

theorem mem_withoutTb {entry : Slot} : entry ∈ withoutTb tb l ↔ entry ∈ l ∧ entry.1 ≠ tb := by
  simp [withoutTb, isEntryOf]

theorem withoutTb_of_absent (absent : ∀ entry ∈ l, entry.1 ≠ tb) : withoutTb tb l = l := by
  rw [withoutTb, filter_eq_self]
  intro entry member
  simp [isEntryOf, absent entry member]

theorem withoutTb_eraseP : withoutTb tb (l.eraseP (isEntryOf tb)) = withoutTb tb l := by
  by_cases present : ∃ entry ∈ l, entry.1 = tb
  · obtain ⟨front, n, back, rfl, skip⟩ := exists_first_entry present
    rw [eraseP_split skip (by simp [isEntryOf])]
    simp [withoutTb, isEntryOf]
  · have absent : ∀ entry ∈ l, ¬ isEntryOf tb entry = true := by
      intro entry member isEntry
      exact present ⟨entry, member, by simpa [isEntryOf] using isEntry⟩
    rw [eraseP_of_forall_not absent]

theorem eraseP_eq_withoutTb {n : Fin 2} (nodup : l.Nodup) (member : (tb, n) ∈ l)
    (only : ∀ m, (tb, m) ∈ l → m = n) : l.eraseP (isEntryOf tb) = withoutTb tb l := by
  obtain ⟨front, n', back, rfl, skip⟩ := exists_first_entry ⟨(tb, n), member, rfl⟩
  have same : n' = n := only n' (by simp)
  subst same
  rw [← withoutTb_eraseP, eraseP_split skip (by simp [isEntryOf]), withoutTb_of_absent]
  intro entry inRest isEntry
  have inList : (tb, entry.2) ∈ front ++ (tb, n') :: back := by
    rw [← isEntry]
    simp only [mem_append, mem_cons] at inRest ⊢
    tauto
  have sameNumber := only entry.2 inList
  have isFirst : entry = (tb, n') := Prod.ext isEntry sameNumber
  rw [nodup_append, nodup_cons] at nodup
  rcases mem_append.mp inRest with inFront | inBack
  · exact nodup.2.2 entry inFront (tb, n') mem_cons_self isFirst
  · exact nodup.2.1.1 (isFirst ▸ inBack)

theorem exists_other_entry (nodup : l.Nodup) (first : (tb, 0) ∈ l) (second : (tb, 1) ∈ l) :
    ∃ m, (tb, m) ∈ l.eraseP (isEntryOf tb) ∧ ∀ m', (tb, m') ∈ l.eraseP (isEntryOf tb) → m' = m := by
  obtain ⟨front, n, back, shape, skip⟩ := exists_first_entry ⟨(tb, 0), first, rfl⟩
  have erased : l.eraseP (isEntryOf tb) = front ++ back := by
    rw [shape, eraseP_split skip (by simp [isEntryOf])]
  have removed : (tb, n) ∉ front ++ back := by
    intro member
    rw [shape, nodup_append, nodup_cons] at nodup
    rcases mem_append.mp member with inFront | inBack
    · exact nodup.2.2 (tb, n) inFront (tb, n) mem_cons_self rfl
    · exact nodup.2.1.1 inBack
  have kept : ∀ m, m ≠ n → (tb, m) ∈ l → (tb, m) ∈ front ++ back := by
    intro m different member
    rw [shape] at member
    simp only [mem_append, mem_cons, Prod.mk.injEq, true_and, different, false_or]
      at member ⊢
    exact member
  have other : ∃ m, m ≠ n ∧ (tb, m) ∈ l := by
    by_cases isZero : n = 0
    · exact ⟨1, by simp [isZero], second⟩
    · exact ⟨0, fun equal => isZero equal.symm, first⟩
  obtain ⟨m, different, member⟩ := other
  rw [erased]
  refine ⟨m, kept m different member, fun m' inErased => ?_⟩
  have notFirst : m' ≠ n := fun equal => removed (equal ▸ inErased)
  omega

theorem eraseP_eraseP_eq_withoutTb (nodup : l.Nodup) (first : (tb, 0) ∈ l)
    (second : (tb, 1) ∈ l) :
    (l.eraseP (isEntryOf tb)).eraseP (isEntryOf tb) = withoutTb tb l := by
  obtain ⟨m, member, only⟩ := exists_other_entry nodup first second
  rw [← withoutTb_eraseP (l := l)]
  exact eraseP_eq_withoutTb (nodup.sublist eraseP_sublist) member only

end Entries

section Pages

variable {page : PageMemory} {pageList : Nat → List Slot} {fuel p : Nat} {tb : TbId}

theorem tbPageRemove_eq (pages : Pages page pageList)
    (present : ∃ entry ∈ pageList p, entry.1 = tb) (enough : (pageList p).length < fuel) :
    ∃ page', tbPageRemove page fuel (.firstTb p) tb = some page' ∧
      Pages page' (update pageList p ((pageList p).eraseP (isEntryOf tb))) := by
  obtain ⟨front, n, back, shape, skip⟩ := exists_first_entry present
  have segment := pages.segment p trivial
  rw [shape, segment_append] at segment
  have stopped : seek page nextPageCell (fun tb1 => tb1.any fun entry => entry.1 = tb) fuel
      (.firstTb p) = some (lastCell pageRoots.toThreading (.firstTb p) front) := by
    apply seek_segment segment.1 (fun _ _ => rfl) _ (by simp [pageRoots])
    · simp only [shape, length_append, length_cons] at enough
      omega
    · intro entry inFront
      simpa [pageRoots, isEntryOf] using skip entry inFront
  have found : page (lastCell pageRoots.toThreading (.firstTb p) front) = some (tb, n) :=
    segment.1.lastCell_eq
  refine ⟨update page (lastCell pageRoots.toThreading (.firstTb p) front)
    (page (.pageNext (tb, n))), ?_, ?_⟩
  · simp [tbPageRemove, stopped, found]
  · rw [shape, eraseP_split skip (by simp [isEntryOf])]
    exact pages.unlink shape

theorem tbPageRemove_pageNext {page' : PageMemory}
    (removed : tbPageRemove page fuel (.firstTb p) tb = some page') (n : Fin 2) :
    page' (.pageNext (tb, n)) = page (.pageNext (tb, n)) := by
  rw [tbPageRemove, bind_eq_some_iff] at removed
  obtain ⟨ptb, found, stored⟩ := removed
  rw [map_eq_some_iff] at stored
  obtain ⟨entry, -, rfl⟩ := stored
  apply update_of_ne
  rintro rfl
  rcases seek_result found with isHead | ⟨tb1, continues, isNext⟩
  · exact PageCell.noConfusion isHead
  · simp only [nextPageCell, map_eq_some_iff, PageCell.pageNext.injEq, exists_eq_right]
      at isNext
    simp [isNext] at continues

theorem pages_push (pages : Pages page pageList) {entry : Slot}
    (fresh : ∀ p, entry ∉ pageList p) :
    Pages (update (update page (.pageNext entry) (page (.firstTb p)))
        (.firstTb p) (some entry))
      (update pageList p (entry :: pageList p)) :=
  pages.insert p [] _ trivial (nil_append _).symm fresh

end Pages

/-- The page lists hold exactly the entries of the pages of their blocks. -/
structure PageTable (T : Target) (tbs : TbId → TranslationBlock) (page : PageMemory)
    (leafAllocated : Nat → Bool) (pageList : Nat → List Slot) : Prop where
  family : Pages page pageList
  home : ∀ p, ∀ entry ∈ pageList p, (tbs entry.1).pageOf T entry.2 = some p
  both : ∀ p, ∀ entry ∈ pageList p, ∀ n q, (tbs entry.1).pageOf T n = some q →
    (entry.1, n) ∈ pageList q
  leaf : ∀ p, pageList p ≠ [] → leafAllocated (leafOf p) = true

/-- Only page lists and page descriptors differ. -/
structure OnlyPages (s s' : State) : Prop where
  tbs : s'.tbs = s.tbs
  nbTbs : s'.nbTbs = s.nbTbs
  codeBuffer : s'.codeBuffer = s.codeBuffer
  codeGenPtr : s'.codeGenPtr = s.codeGenPtr
  leafAllocated : s'.leafAllocated = s.leafAllocated
  hash : s'.hash = s.hash
  jump : s'.jump = s.jump
  jmpTarget : s'.jmpTarget = s.jmpTarget
  tbJmpCache : s'.tbJmpCache = s.tbJmpCache
  tbInvalidatedFlag : s'.tbInvalidatedFlag = s.tbInvalidatedFlag

theorem OnlyPages.trans {s₁ s₂ s₃ : State} (first : OnlyPages s₁ s₂)
    (second : OnlyPages s₂ s₃) : OnlyPages s₁ s₃ := by
  constructor
  · exact second.tbs.trans first.tbs
  · exact second.nbTbs.trans first.nbTbs
  · exact second.codeBuffer.trans first.codeBuffer
  · exact second.codeGenPtr.trans first.codeGenPtr
  · exact second.leafAllocated.trans first.leafAllocated
  · exact second.hash.trans first.hash
  · exact second.jump.trans first.jump
  · exact second.jmpTarget.trans first.jmpTarget
  · exact second.tbJmpCache.trans first.tbJmpCache
  · exact second.tbInvalidatedFlag.trans first.tbInvalidatedFlag

/-- `page_find` and `tb_page_remove` on one page of the block. -/
def removeFromPage (T : Target) (s : State) (tb : TbId) (pageAddr : Address) : Option State := do
  let p ← pageFind s (T.pageIndex pageAddr)
  let page ← tbPageRemove s.page (2 * s.nbTbs + 1) (.firstTb p) tb
  some (invalidatePageBitmap { s with page := page } p)

/-- The page lists part of `tb_phys_invalidate`; `none` stands for `-1`. -/
def removeFromPages (T : Target) (s : State) (tb : TbId) (pageAddr : Option Address) :
    Option State := do
  let block := s.tbs tb
  let s ← if pageAddr = some block.pageAddr0 then some s
    else removeFromPage T s tb block.pageAddr0
  match block.pageAddr1 with
  | none => some s
  | some pageAddr1 =>
    if pageAddr = some pageAddr1 then some s else removeFromPage T s tb pageAddr1

section Remove

variable {T : Target} {s : State} {pageList : Nat → List Slot} {tb : TbId}

theorem removeFromPage_pageNext {s' : State} {pageAddr : Address}
    (removed : removeFromPage T s tb pageAddr = some s') (n : Fin 2) :
    s'.page (.pageNext (tb, n)) = s.page (.pageNext (tb, n)) := by
  simp only [removeFromPage, bind_eq_bind, bind_eq_some_iff] at removed
  obtain ⟨p, -, page, taken, equal⟩ := removed
  cases equal
  exact tbPageRemove_pageNext taken n

theorem removeFromPages_pageNext {s' : State} {pageAddr : Option Address}
    (removed : removeFromPages T s tb pageAddr = some s') (n : Fin 2) :
    s'.page (.pageNext (tb, n)) = s.page (.pageNext (tb, n)) := by
  have second : ∀ s₁ : State, (match (s.tbs tb).pageAddr1 with
      | none => some s₁
      | some pageAddr1 =>
          if pageAddr = some pageAddr1 then some s₁ else removeFromPage T s₁ tb pageAddr1) =
        some s' → s'.page (.pageNext (tb, n)) = s₁.page (.pageNext (tb, n)) := by
    intro s₁ rest
    split at rest
    · cases rest
      rfl
    · split_ifs at rest
      · cases rest
        rfl
      · exact removeFromPage_pageNext rest n
  by_cases sameFirst : pageAddr = some (s.tbs tb).pageAddr0
  · rw [removeFromPages, if_pos sameFirst] at removed
    exact second s removed
  · rw [removeFromPages, if_neg sameFirst, bind_eq_bind, bind_eq_some_iff] at removed
    obtain ⟨s₁, first, rest⟩ := removed
    rw [second s₁ rest]
    exact removeFromPage_pageNext first n

theorem removeFromPage_eq (pageAddr : Address) (pages : Pages s.page pageList)
    (present : ∃ entry ∈ pageList (T.pageIndex pageAddr), entry.1 = tb)
    (leaf : s.leafAllocated (leafOf (T.pageIndex pageAddr)) = true)
    (short : (pageList (T.pageIndex pageAddr)).length ≤ 2 * s.nbTbs) :
    ∃ s', removeFromPage T s tb pageAddr = some s' ∧ OnlyPages s s' ∧
      Pages s'.page (update pageList (T.pageIndex pageAddr)
        ((pageList (T.pageIndex pageAddr)).eraseP (isEntryOf tb))) := by
  obtain ⟨page, removed, pages'⟩ := tbPageRemove_eq pages present
    (by omega : _ < 2 * s.nbTbs + 1)
  refine ⟨invalidatePageBitmap { s with page := page } (T.pageIndex pageAddr), ?_, ?_, pages'⟩
  · rw [removeFromPage, pageFind, if_pos leaf, bind_eq_bind, bind_some, removed]
    rfl
  · constructor <;> rfl

theorem removeFromPages_eq (table : PageTable T s.tbs s.page s.leafAllocated pageList)
    (member : ∃ p n, (tb, n) ∈ pageList p)
    (short : ∀ p, (pageList p).length ≤ 2 * s.nbTbs) :
    ∃ s', removeFromPages T s tb none = some s' ∧ OnlyPages s s' ∧
      Pages s'.page (fun p => withoutTb tb (pageList p)) := by
  have onList : ∀ n q, (s.tbs tb).pageOf T n = some q → (tb, n) ∈ pageList q := by
    obtain ⟨p, n, inList⟩ := member
    exact fun m q => table.both p (tb, n) inList m q
  have first := onList 0 _ rfl
  have leafFirst := table.leaf _ (ne_nil_of_mem first)
  obtain ⟨s₀, removed₀, same₀, pages₀⟩ := removeFromPage_eq _ table.family
    ⟨(tb, 0), first, rfl⟩ leafFirst (short _)
  -- a page that is none of the block's holds no entry of it
  have absent : ∀ p, (∀ m, (s.tbs tb).pageOf T m ≠ some p) →
      withoutTb tb (pageList p) = pageList p := by
    intro p notPage
    apply withoutTb_of_absent
    intro entry inList isTb
    apply notPage entry.2
    rw [← isTb]
    exact table.home p entry inList
  have both : ∀ m : Fin 2, m = 0 ∨ m = 1 := by omega
  have start : removeFromPages T s tb none = match (s.tbs tb).pageAddr1 with
      | none => some s₀
      | some pageAddr1 => removeFromPage T s₀ tb pageAddr1 := by
    rw [removeFromPages, if_neg (by simp), removed₀, bind_eq_bind, bind_some]
    cases (s.tbs tb).pageAddr1 <;> simp
  rw [start]
  have firstHome : ∀ p m, (tb, m) ∈ pageList p → m = 0 → p = T.pageIndex (s.tbs tb).pageAddr0 := by
    rintro p m inList rfl
    exact (some.inj (table.home p (tb, 0) inList)).symm
  cases second : (s.tbs tb).pageAddr1 with
  | none =>
    have onlyFirst : ∀ p m, (tb, m) ∈ pageList p → m = 0 := by
      intro p m inList
      rcases both m with rfl | rfl
      · rfl
      · have home := table.home p (tb, 1) inList
        simp [TranslationBlock.pageOf, second] at home
    refine ⟨s₀, rfl, same₀, ?_⟩
    convert pages₀ using 1
    funext p
    by_cases isFirst : p = T.pageIndex (s.tbs tb).pageAddr0
    · rw [isFirst, update_self]
      exact (eraseP_eq_withoutTb (table.family.nodup _) first (onlyFirst _)).symm
    · rw [update_of_ne isFirst]
      refine absent p fun m home => isFirst ?_
      have inList := onList m p home
      exact firstHome p m inList (onlyFirst p m inList)
  | some pageAddr1 =>
    have home₁ : (s.tbs tb).pageOf T 1 = some (T.pageIndex pageAddr1) := by
      simp [TranslationBlock.pageOf, second]
    have onSecond := onList 1 _ home₁
    have secondHome : ∀ p m, (tb, m) ∈ pageList p → m = 1 → p = T.pageIndex pageAddr1 := by
      rintro p m inList rfl
      exact (some.inj (home₁.symm.trans (table.home p (tb, 1) inList))).symm
    have leafSecond : s₀.leafAllocated (leafOf (T.pageIndex pageAddr1)) = true := by
      rw [same₀.leafAllocated]
      exact table.leaf _ (ne_nil_of_mem onSecond)
    have elsewhere : ∀ p, p ≠ T.pageIndex (s.tbs tb).pageAddr0 → p ≠ T.pageIndex pageAddr1 →
        withoutTb tb (pageList p) = pageList p := by
      intro p notFirst notSecond
      refine absent p fun m home => ?_
      have inList := onList m p home
      rcases both m with isFirst | isSecond
      · exact notFirst (firstHome p m inList isFirst)
      · exact notSecond (secondHome p m inList isSecond)
    by_cases samePage : T.pageIndex pageAddr1 = T.pageIndex (s.tbs tb).pageAddr0
    · rw [samePage] at onSecond leafSecond
      obtain ⟨m, remaining, -⟩ := exists_other_entry (table.family.nodup _) first onSecond
      have shorter := (eraseP_sublist (p := isEntryOf tb)
        (l := pageList (T.pageIndex (s.tbs tb).pageAddr0))).length_le
      obtain ⟨s₁, removed₁, same₁, pages₁⟩ := removeFromPage_eq pageAddr1 pages₀
        (by rw [samePage, update_self]; exact ⟨(tb, m), remaining, rfl⟩)
        (by rw [samePage]; exact leafSecond)
        (by
          rw [samePage, update_self, same₀.nbTbs]
          exact shorter.trans (short _))
      refine ⟨s₁, removed₁, same₀.trans same₁, ?_⟩
      convert pages₁ using 1
      rw [samePage, update_self, update_idem]
      funext p
      by_cases isFirst : p = T.pageIndex (s.tbs tb).pageAddr0
      · rw [isFirst, update_self]
        exact (eraseP_eraseP_eq_withoutTb (table.family.nodup _) first onSecond).symm
      · rw [update_of_ne isFirst]
        exact elsewhere p isFirst (by rwa [samePage])
    · obtain ⟨s₁, removed₁, same₁, pages₁⟩ := removeFromPage_eq pageAddr1 pages₀
        (by rw [update_of_ne samePage]; exact ⟨(tb, 1), onSecond, rfl⟩)
        leafSecond
        (by rw [update_of_ne samePage, same₀.nbTbs]; exact short _)
      refine ⟨s₁, removed₁, same₀.trans same₁, ?_⟩
      convert pages₁ using 1
      rw [update_of_ne samePage]
      funext p
      by_cases isSecond : p = T.pageIndex pageAddr1
      · rw [isSecond, update_self]
        refine (eraseP_eq_withoutTb (table.family.nodup _) onSecond fun m inList => ?_).symm
        rcases both m with isFirst | isOne
        · exact absurd (firstHome _ m inList isFirst) samePage
        · exact isOne
      · rw [update_of_ne isSecond]
        by_cases isFirst : p = T.pageIndex (s.tbs tb).pageAddr0
        · rw [isFirst, update_self]
          refine (eraseP_eq_withoutTb (table.family.nodup _) first fun m inList => ?_).symm
          rcases both m with isZero | isOne
          · exact isZero
          · exact absurd (secondHome _ m inList isOne).symm samePage
        · rw [update_of_ne isFirst]
          exact elsewhere p isFirst isSecond

end Remove

end Tlib.TranslationCache
