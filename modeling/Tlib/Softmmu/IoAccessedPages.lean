import Mathlib.Data.Finset.Basic
import Tlib.Library.ArrayShifts
import Tlib.Softmmu.Unmapping

/-!
Contract: the pages whose accesses are treated as I/O.

Owns: the sorted array of the pages, the calls that enter and remove one, and that the TLB treats an
access as the array asks.
-/

namespace Tlib.Softmmu

open Tlib.TranslationCache Finset List
open Tlib.Library.ArrayShifts
open Tlib.Library.SortedArray

/-! ### The array -/

def maxIoAccessRegionsCount : Nat := 1024

/-- `io_access_regions_count` and `io_access_regions`, with the TLB. -/
structure IoState where
  count : Nat
  regions : List Nat
  tlb : TlbState

inductive IoFailure where
  /-- `tlib_abortf` -/
  | aborted
  /-- An access outside the array. -/
  | outOfBounds
  /-- The loop for large pages has not ended. -/
  | endless
deriving DecidableEq, Repr

def inBounds {α : Type} : Option α → Except IoFailure α
  | some a => .ok a
  | none => .error .outOfBounds

section Calls

variable (G : TlbTarget)

/-- `address & ~(TARGET_PAGE_SIZE - 1)` as a `target_ulong`. -/
def pageAddress (address : Nat) : Nat := G.toUlong (G.pageBase address)

def tlibSetPageIoAccessed (s : IoState) (address : Nat) : Except IoFailure IoState :=
  if s.count = maxIoAccessRegionsCount then .error .aborted
  else do
    let page := pageAddress G address
    let (i, stop) ← inBounds (scanFor (fun v => v = page || page < v) s.regions s.count 0)
    -- it's already here
    if stop = some page then return s
    let regions ← inBounds (shiftUp i s.count s.regions)
    let regions ← inBounds (store regions i page)
    return {
      count := s.count + 1
      regions := regions
      tlb := tlbFlushPage G s.tlb (G.toUlong address) false }

def tlibClearPageIoAccessed (s : IoState) (address : Nat) : Except IoFailure IoState := do
  let page := pageAddress G address
  let (i, _) ← inBounds (scanFor (fun v => v = page) s.regions s.count 0)
  -- it was not marked as IO
  if i = s.count then return s
  let (j, regions) ← inBounds (shiftDown (s.count - 1 - i) i s.regions)
  let regions ← inBounds (store regions j 0)
  return {
    count := s.count - 1
    regions := regions
    tlb := tlbFlushPage G s.tlb (G.toUlong address) false }

/-- The search of `is_io_accessed`: it looks for the page, and turns by the address itself. -/
def ioProbe (T : Target) (vaddr v : Nat) : Ordering :=
  if v = T.pageBase vaddr then .eq else if vaddr < v then .lt else .gt

def isIoAccessed (T : Target) (s : IoState) (vaddr : Nat) : Option Bool :=
  hitLoop (ioProbe T vaddr) s.regions (s.count + 1) 0 (s.count - 1)

/-- A call on the TLB, in which `tlb_set_page` asks `is_io_accessed`. -/
def TlbOp.seeing (T : Target) (s : IoState) : TlbOp → TlbOp
  | .setPage M vaddr paddr prot mmuIdx size =>
    .setPage { M with isIoAccessed := fun vaddr => isIoAccessed T s vaddr = some true }
      (T.toUlong vaddr) paddr prot mmuIdx size
  | op => op

inductive IoOp where
  | setPageIoAccessed (address : Nat)
  | clearPageIoAccessed (address : Nat)
  | tlb (op : TlbOp)

def IoOp.apply (s : IoState) : IoOp → Except IoFailure IoState
  | .setPageIoAccessed address => tlibSetPageIoAccessed G s address
  | .clearPageIoAccessed address => tlibClearPageIoAccessed G s address
  | .tlb op =>
    match (op.seeing G.toTarget s).apply G s.tlb with
    | some after => .ok { s with tlb := after }
    | none => .error .endless

def IoState.initial (tlb : TlbState) : IoState where
  count := 0
  regions := replicate maxIoAccessRegionsCount 0
  tlb := tlbFlush G tlb false

end Calls

/-! ### What the array stands for -/

def pageOf (T : Target) (address : Nat) : Nat := T.pageBase (T.toUlong address)

def IoOp.pages (T : Target) (set : Finset Nat) : IoOp → Finset Nat
  | .setPageIoAccessed address => insert (pageOf T address) set
  | .clearPageIoAccessed address => set.erase (pageOf T address)
  | .tlb _ => set

structure ListsPages (T : Target) (s : IoState) (set : Finset Nat) : Prop where
  size : s.regions.length = maxIoAccessRegionsCount
  fits : s.count ≤ maxIoAccessRegionsCount
  increasing : (s.regions.take s.count).Pairwise (· < ·)
  mem : ∀ page, page ∈ s.regions.take s.count ↔ page ∈ set
  aligned : ∀ page ∈ set, T.pageBase page = page

def TreatedEntry (G : TlbTarget) (set : Finset Nat) (i : Nat) (entry : CPUTLBEntry) : Prop :=
  (∀ access, entry.word access = none) ∨ ∃ m : Mapping,
    m.vaddr < 2 ^ G.longBits ∧ tlbIndex G.toTarget m.vaddr = i ∧
    entry = tlbEntry G.toTarget m.memory m.vaddr m.paddr m.prot m.size ∧
    ((∃ access, compared G.toTarget (entry.word access) = G.pageBase m.vaddr) →
      m.memory.isIoAccessed m.vaddr = decide (G.pageBase m.vaddr ∈ set))

def TlbTreated (G : TlbTarget) (tlb : TlbState) (set : Finset Nat) : Prop :=
  ∀ mmuIdx < G.nbMmuModes, ∀ i, TreatedEntry G set i (tlb.table mmuIdx i)

section Search

variable {T : Target} {s : IoState} {set : Finset Nat}

theorem pageAddress_eq (G : TlbTarget) (address : Nat) :
    pageAddress G address = pageOf G.toTarget address :=
  (pageBase_toUlong G.toTarget address).symm

theorem ioProbe_eq {page : Nat} (aligned : T.pageBase page = page) (vaddr : Nat) :
    ioProbe T vaddr page = compare (T.pageBase vaddr) page := by
  have split := T.pageBase_add_pageOffset vaddr
  have below : vaddr < page ↔ T.pageBase vaddr < page := by
    constructor
    · omega
    · intro less
      rw [← aligned] at less ⊢
      have pages : vaddr / T.pageSize < page / T.pageSize := Nat.lt_of_mul_lt_mul_right less
      exact Nat.lt_mul_of_div_lt pages T.pageSize_pos
  unfold ioProbe
  by_cases same : page = T.pageBase vaddr
  · rw [if_pos same, same, compare_eq_iff_eq.mpr rfl]
  · rw [if_neg same]
    by_cases less : vaddr < page
    · rw [if_pos less, compare_lt_iff_lt.mpr (below.mp less)]
    · rw [if_neg less, compare_gt_iff_gt.mpr (by omega)]

theorem ListsPages.isIoAccessed_eq (lists : ListsPages T s set) (vaddr : Nat) :
    isIoAccessed T s vaddr = some (decide (T.pageBase vaddr ∈ set)) := by
  have aligned : ∀ page ∈ s.regions.take s.count, T.pageBase page = page :=
    fun page member => lists.aligned page ((lists.mem page).mp member)
  have closed : (s.regions.take s.count).Pairwise fun a b =>
      (ioProbe T vaddr a = .lt → ioProbe T vaddr b = .lt) ∧
        (ioProbe T vaddr b = .gt → ioProbe T vaddr a = .gt) := by
    refine lists.increasing.imp_of_mem fun {a b} inArray inArray' less => ?_
    rw [ioProbe_eq (aligned a inArray), ioProbe_eq (aligned b inArray'), compare_lt_iff_lt,
      compare_lt_iff_lt, compare_gt_iff_gt, compare_gt_iff_gt]
    omega
  have inside : s.count ≤ s.regions.length := lists.size ▸ lists.fits
  have found := hitLoop_eq inside closed (s.count + 1) 0 (s.count - 1) (by omega) (by omega)
    (by omega) (fun i before => by omega) (fun i behind less => by omega) (by omega)
  rw [isIoAccessed, found, Option.some.injEq, Bool.eq_iff_iff, any_eq_true,
    decide_eq_true_eq, ← lists.mem]
  constructor
  · rintro ⟨page, member, hit⟩
    rw [decide_eq_true_eq, ioProbe_eq (aligned page member), compare_eq_iff_eq] at hit
    rw [hit]
    exact member
  · intro member
    refine ⟨_, member, ?_⟩
    rw [decide_eq_true_eq, ioProbe_eq (aligned _ member), compare_eq_iff_eq]

end Search

/-! ### The calls -/

section Set

variable {G : TlbTarget} {s s' : IoState} {set : Finset Nat} {address : Nat}

theorem inBounds_bind {α β : Type} (a : α) (f : α → Except IoFailure β) :
    (inBounds (some a) >>= f) = f a := rfl

theorem exists_place {pages rest : List Nat} (increasing : pages.Pairwise (· < ·)) (page : Nat) :
    ∃ front back, pages = front ++ back ∧
      scanFor (fun v => v = page || page < v) (pages ++ rest) pages.length 0 =
        some (front.length, back.head?) ∧
      (∀ v ∈ front, v < page) ∧ (∀ v ∈ back, page ≤ v) ∧
      (back.head? = some page ↔ page ∈ pages) := by
  have scanned := scanFor_eq (fun v => v = page || page < v) (l := pages ++ rest) rfl
  have goesOn : (fun v => !(decide (v = page) || decide (page < v))) = fun v : Nat =>
      decide (v < page) := by
    funext v
    rw [Bool.eq_iff_iff]
    simp only [Bool.not_eq_true', Bool.or_eq_false_iff, decide_eq_false_iff_not, decide_eq_true_eq]
    omega
  rw [goesOn] at scanned
  have closed : pages.Pairwise fun a b => decide (b < page) = true → decide (a < page) = true := by
    refine increasing.imp fun {a b} less => ?_
    simp only [decide_eq_true_eq]
    omega
  have split := takeWhile_append_dropWhile (p := fun v => decide (v < page)) (l := pages)
  have before : ∀ v ∈ pages.takeWhile fun v => decide (v < page), v < page := by
    intro v member
    simpa using mem_takeWhile_imp member
  have behind : ∀ v ∈ pages.dropWhile fun v => decide (v < page), page ≤ v := by
    intro v member
    simpa using dropWhile_fails closed v member
  refine ⟨_, _, split.symm, scanned, before, behind, ?_⟩
  generalize pages.dropWhile (fun v => decide (v < page)) = back at *
  rw [← split] at increasing ⊢
  constructor
  · intro isHead
    exact mem_append_right _ (List.mem_of_mem_head? isHead)
  · intro member
    rcases mem_append.mp member with inFront | inBack
    · exact absurd (before page inFront) (Nat.lt_irrefl page)
    · cases back with
      | nil => exact absurd inBack not_mem_nil
      | cons head back =>
        rw [head?_cons, Option.some.injEq]
        rcases List.mem_cons.mp inBack with same | later
        · exact same.symm
        · have above := (List.pairwise_cons.mp (pairwise_append.mp increasing).2.1).1
          have less := above page later
          have notLess := behind head List.mem_cons_self
          omega

theorem ListsPages.exists_split {T : Target} (lists : ListsPages T s set) :
    ∃ pages rest, s.regions = pages ++ rest ∧ pages.length = s.count ∧
      pages.Pairwise (· < ·) ∧ (∀ page, page ∈ pages ↔ page ∈ set) ∧
      pages.length + rest.length = maxIoAccessRegionsCount := by
  have length : (s.regions.take s.count).length = s.count :=
    length_take_of_le (lists.size ▸ lists.fits)
  refine ⟨_, _, (take_append_drop s.count s.regions).symm, length, lists.increasing,
    lists.mem, ?_⟩
  rw [← length_append, take_append_drop, lists.size]

theorem ListsPages.of_split {T : Target} {pages rest : List Nat}
    (increasing : pages.Pairwise (· < ·)) (mem : ∀ page, page ∈ pages ↔ page ∈ set)
    (aligned : ∀ page ∈ set, T.pageBase page = page)
    (length : pages.length + rest.length = maxIoAccessRegionsCount) (tlb : TlbState) :
    ListsPages T ⟨pages.length, pages ++ rest, tlb⟩ set where
  size := length_append.trans length
  fits := length ▸ Nat.le_add_right _ _
  increasing := by
    rw [take_left' rfl]
    exact increasing
  mem := by
    rw [take_left' rfl]
    exact mem
  aligned := aligned

theorem pageBase_pageOf (T : Target) (address : Nat) :
    T.pageBase (pageOf T address) = pageOf T address :=
  T.pageBase_pageBase _

section

variable (lists : ListsPages G.toTarget s set)

include lists

theorem tlibSetPageIoAccessed_present
    (room : s.count ≠ maxIoAccessRegionsCount) (present : pageOf G.toTarget address ∈ set) :
    tlibSetPageIoAccessed G s address = .ok s := by
  obtain ⟨pages, rest, regions, length, increasing, mem, -⟩ := lists.exists_split
  obtain ⟨front, back, -, scanned, -, -, here⟩ :=
    @exists_place pages rest increasing (pageOf G.toTarget address)
  unfold tlibSetPageIoAccessed
  dsimp only
  rw [if_neg room, pageAddress_eq, regions, ← length, scanned, inBounds_bind]
  rw [if_pos (here.mpr ((mem _).mpr present))]
  rfl

theorem tlibSetPageIoAccessed_new
    (room : s.count ≠ maxIoAccessRegionsCount) (new : pageOf G.toTarget address ∉ set) :
    ∃ s', tlibSetPageIoAccessed G s address = .ok s' ∧
      ListsPages G.toTarget s' (insert (pageOf G.toTarget address) set) ∧
      s'.tlb = tlbFlushPage G s.tlb (G.toUlong address) false := by
  obtain ⟨pages, rest, regions, length, increasing, mem, size⟩ := lists.exists_split
  obtain ⟨front, back, split, scanned, before, behind, here⟩ :=
    @exists_place pages rest increasing (pageOf G.toTarget address)
  obtain ⟨x, rest, rfl⟩ : ∃ x rest', rest = x :: rest' := by
    cases rest with
    | nil =>
      rw [length_nil] at size
      omega
    | cons x rest => exact ⟨x, rest, rfl⟩
  obtain ⟨y, shifted⟩ := shiftUp_append
    (show pages ++ x :: rest = front ++ back ++ x :: rest by rw [split])
  have stored := store_middle (y := pageOf G.toTarget address)
    (show front ++ y :: back ++ rest = front ++ y :: (back ++ rest) by simp) rfl
  have absent : pageOf G.toTarget address ∉ pages := fun member => new ((mem _).mp member)
  have ran : tlibSetPageIoAccessed G s address =
      .ok ⟨(front ++ pageOf G.toTarget address :: back).length,
        front ++ pageOf G.toTarget address :: back ++ rest,
        tlbFlushPage G s.tlb (G.toUlong address) false⟩ := by
    unfold tlibSetPageIoAccessed
    dsimp only
    rw [if_neg room, pageAddress_eq, regions, ← length, scanned, inBounds_bind]
    rw [if_neg fun isHead => absent (here.mp isHead), split, length_append, ← split,
      shifted, inBounds_bind, stored, inBounds_bind]
    simp [pure, Except.pure, Nat.add_assoc]
  refine ⟨_, ran, ?_, rfl⟩
  rw [split, pairwise_append] at increasing
  apply ListsPages.of_split
  · rw [pairwise_append, List.pairwise_cons]
    refine ⟨increasing.1, ⟨fun v member => ?_, increasing.2.1⟩, fun v inFront w member => ?_⟩
    · have le := behind v member
      have ne : v ≠ pageOf G.toTarget address := by
        intro same
        rw [split, ← same] at absent
        exact absent (mem_append_right _ member)
      omega
    · rcases List.mem_cons.mp member with same | inBack
      · rw [same]
        exact before v inFront
      · exact increasing.2.2 v inFront w inBack
  · intro page
    rw [mem_insert, ← mem, split, mem_append, List.mem_cons, mem_append]
    exact or_left_comm
  · intro page member
    rcases mem_insert.mp member with same | old
    · rw [same, pageBase_pageOf]
    · exact lists.aligned page old
  · rw [split, length_append, length_cons] at size
    rw [length_append, length_cons]
    omega

theorem tlibClearPageIoAccessed_absent
    (absent : pageOf G.toTarget address ∉ set) :
    tlibClearPageIoAccessed G s address = .ok s := by
  obtain ⟨pages, rest, regions, length, -, mem, -⟩ := lists.exists_split
  have goesOn : ∀ v ∈ pages, decide (v = pageOf G.toTarget address) = false := by
    intro v member
    rw [decide_eq_false_iff_not]
    rintro rfl
    exact absent ((mem _).mp member)
  have scanned := scanFor_none regions goesOn
  unfold tlibClearPageIoAccessed
  dsimp only
  rw [pageAddress_eq, ← length, scanned, inBounds_bind]
  rw [if_pos rfl]
  rfl

theorem tlibClearPageIoAccessed_present
    (present : pageOf G.toTarget address ∈ set) :
    ∃ s', tlibClearPageIoAccessed G s address = .ok s' ∧
      ListsPages G.toTarget s' (set.erase (pageOf G.toTarget address)) ∧
      s'.tlb = tlbFlushPage G s.tlb (G.toUlong address) false := by
  obtain ⟨pages, rest, regions, length, increasing, mem, size⟩ := lists.exists_split
  obtain ⟨front, back, split, notBefore⟩ := eq_append_cons_of_mem ((mem _).mpr present)
  have goesOn : ∀ v ∈ front, decide (v = pageOf G.toTarget address) = false := by
    intro v member
    rw [decide_eq_false_iff_not]
    rintro rfl
    exact notBefore member
  have places : s.regions = front ++ pageOf G.toTarget address :: (back ++ rest) := by
    rw [regions, split, append_assoc, cons_append]
  have scanned := scanFor_some places goesOn (decide_eq_true rfl) back.length
  obtain ⟨y, shifted⟩ := shiftDown_append
    (show s.regions = front ++ pageOf G.toTarget address :: back ++ rest by simp [places])
  have stored := store_middle (y := 0) (i := front.length + back.length)
    (show front ++ back ++ y :: rest = (front ++ back) ++ y :: rest from rfl) (by simp)
  have count : s.count = front.length + (back.length + 1) := by
    rw [← length, split, length_append, length_cons]
  have ran : tlibClearPageIoAccessed G s address =
      .ok ⟨(front ++ back).length, front ++ back ++ 0 :: rest,
        tlbFlushPage G s.tlb (G.toUlong address) false⟩ := by
    unfold tlibClearPageIoAccessed
    dsimp only
    rw [pageAddress_eq, count, scanned, inBounds_bind]
    rw [if_neg (by omega), show front.length + (back.length + 1) - 1 - front.length =
      back.length by omega, shifted, inBounds_bind]
    rw [stored, inBounds_bind, length_append]
    rfl
  refine ⟨_, ran, ?_, rfl⟩
  have nodup : pages.Nodup := increasing.imp fun {a b} less => Nat.ne_of_lt less
  rw [split] at increasing nodup
  apply ListsPages.of_split
  · exact increasing.sublist ((sublist_cons_self _ _).append_left front)
  · intro page
    rw [mem_erase, ← mem, split, mem_append, mem_append, List.mem_cons]
    rw [nodup_append, nodup_cons] at nodup
    constructor
    · rintro (inFront | inBack)
      · exact ⟨nodup.2.2 page inFront _ List.mem_cons_self, Or.inl inFront⟩
      · refine ⟨?_, Or.inr (Or.inr inBack)⟩
        rintro rfl
        exact nodup.2.1.1 inBack
    · rintro ⟨other, inFront | same | inBack⟩
      · exact Or.inl inFront
      · exact absurd same other
      · exact Or.inr inBack
  · exact fun page member => lists.aligned page (Finset.mem_of_mem_erase member)
  · rw [split, length_append, length_cons] at size
    rw [length_append, length_cons]
    omega

end

end Set

/-! ### The entries of the TLB -/

section Entries

variable {G : TlbTarget} {s : IoState} {tlb tlb' : TlbState} {set set' : Finset Nat}
  {address i : Nat}

theorem treatedEntry_emptied (entry : CPUTLBEntry) : TreatedEntry G set i entry.emptied :=
  .inl fun access => emptied_word entry access

theorem TlbTreated.of_fewer (treated : TlbTreated G tlb set)
    (fewer : ∀ mmuIdx < G.nbMmuModes, ∀ i, tlb'.table mmuIdx i = tlb.table mmuIdx i ∨
      tlb'.table mmuIdx i = (tlb.table mmuIdx i).emptied) : TlbTreated G tlb' set := by
  intro mmuIdx less i
  rcases fewer mmuIdx less i with kept | cleared
  · rw [kept]
    exact treated mmuIdx less i
  · rw [cleared]
    exact treatedEntry_emptied _

theorem tlbFlush_fewer (G : TlbTarget) (tlb : TlbState) (fromGeneratedCode : Bool) {mmuIdx : Nat}
    (less : mmuIdx < G.nbMmuModes) (i : Nat) :
    (tlbFlush G tlb fromGeneratedCode).table mmuIdx i = (tlb.table mmuIdx i).emptied :=
  if_pos less

theorem tlbFlushPageMasked_fewer (G : TlbTarget) (tlb : TlbState) (addr mmuIndexesMask : Nat)
    (fromGeneratedCode : Bool) {mmuIdx : Nat} (less : mmuIdx < G.nbMmuModes) (i : Nat) :
    (tlbFlushPageMasked G tlb addr mmuIndexesMask fromGeneratedCode).table mmuIdx i =
        tlb.table mmuIdx i ∨
      (tlbFlushPageMasked G tlb addr mmuIndexesMask fromGeneratedCode).table mmuIdx i =
        (tlb.table mmuIdx i).emptied := by
  unfold tlbFlushPageMasked
  split
  · exact .inr (tlbFlush_fewer G tlb false less i)
  · dsimp only
    split
    · rcases tlbFlushEntry_eq G (tlb.table mmuIdx i) (addr &&& pageMask G.toTarget) with
        ⟨kept, -⟩ | ⟨cleared, -⟩
      · exact .inl kept
      · exact .inr cleared
    · exact .inl rfl

theorem TlbTreated.flushPage (treated : TlbTreated G tlb set)
    (others : ∀ page, page ≠ pageOf G.toTarget address → (page ∈ set' ↔ page ∈ set)) :
    TlbTreated G (tlbFlushPage G tlb (G.toUlong address) false) set' := by
  intro mmuIdx less i
  have small : G.toUlong address < 2 ^ G.longBits := Nat.mod_lt _ (Nat.two_pow_pos _)
  rcases tlbFlushPage_entry less small i with ⟨survives, kept, -⟩ | ⟨-, cleared⟩
  · rw [kept]
    rcases treated mmuIdx less i with isEmpty | ⟨m, vaddrSmall, here, made, seen⟩
    · exact .inl isEmpty
    · refine .inr ⟨m, vaddrSmall, here, made, fun ⟨access, hit⟩ => ?_⟩
      have differs := (survives (G.toUlong address) List.mem_cons_self).2
      have other : G.pageBase m.vaddr ≠ pageOf G.toTarget address := by
        intro same
        exact differs (here.symm.trans (tlbIndex_of_page same)) access (hit.trans same)
      rw [seen ⟨access, hit⟩, decide_eq_decide]
      exact (others _ other).symm
  · rw [cleared]
    exact treatedEntry_emptied _

theorem tlbAddLargePage_table {T : Target} {vaddr size : Nat}
    (added : tlbAddLargePage T tlb vaddr size = some tlb') : tlb'.table = tlb.table := by
  unfold tlbAddLargePage at added
  split at added
  · cases added
    rfl
  · rw [Option.map_eq_some_iff] at added
    obtain ⟨mask, -, rfl⟩ := added
    rfl

theorem TlbTreated.setPage (treated : TlbTreated G tlb set) {M : MemoryMap} {vaddr : Nat}
    (small : vaddr < 2 ^ G.longBits)
    (sees : M.isIoAccessed vaddr = decide (G.pageBase vaddr ∈ set))
    {paddr prot mode size : Nat}
    (done : tlb.setPage G.toTarget M vaddr paddr prot mode size = some tlb') :
    TlbTreated G tlb' set := by
  unfold TlbState.setPage at done
  rw [Option.map_eq_some_iff] at done
  obtain ⟨added, grown, rfl⟩ := done
  have table : added.table = tlb.table := by
    split at grown
    · exact tlbAddLargePage_table grown
    · cases grown
      rfl
  intro mmuIdx less i
  dsimp only [tlbSetPage]
  rw [table]
  by_cases sameMode : mmuIdx = mode
  · subst sameMode
    rw [Function.update_self]
    by_cases here : i = tlbIndex G.toTarget vaddr
    · rw [here, Function.update_self]
      exact .inr ⟨⟨M, vaddr, paddr, prot, size⟩, small, rfl, rfl, fun _ => sees⟩
    · rw [Function.update_of_ne here]
      exact treated mmuIdx less i
  · rw [Function.update_of_ne sameMode]
    exact treated mmuIdx less i

theorem TlbTreated.apply (treated : TlbTreated G tlb set) (lists : ListsPages G.toTarget s set)
    {op : TlbOp} (done : (op.seeing G.toTarget s).apply G tlb = some tlb') :
    TlbTreated G tlb' set := by
  cases op with
  | setPage M vaddr paddr prot mmuIdx size =>
    refine treated.setPage (Nat.mod_lt _ (Nat.two_pow_pos _)) ?_ done
    dsimp only
    rw [lists.isIoAccessed_eq]
    simp
  | flush fromGeneratedCode =>
    cases done
    exact treated.of_fewer fun mmuIdx less i => .inr (tlbFlush_fewer G tlb _ less i)
  | flushMasked mmuIndexesMask =>
    cases done
    refine treated.of_fewer fun mmuIdx less i => ?_
    unfold tlbFlushMasked
    dsimp only
    split
    · exact .inr rfl
    · exact .inl rfl
  | flushPageMasked addr mmuIndexesMask fromGeneratedCode =>
    cases done
    exact treated.of_fewer fun mmuIdx less i => tlbFlushPageMasked_fewer G tlb _ _ _ less i
  | flushPage addr fromGeneratedCode =>
    cases done
    exact treated.of_fewer fun mmuIdx less i => tlbFlushPageMasked_fewer G tlb _ _ _ less i
  | cache tb =>
    cases done
    exact treated

end Entries

/-! ### Runs -/

section Runs

variable {G : TlbTarget} {s s' : IoState} {set : Finset Nat}

/-- What every call keeps. -/
structure IoConsistent (G : TlbTarget) (s : IoState) (set : Finset Nat) : Prop where
  lists : ListsPages G.toTarget s set
  treated : TlbTreated G s.tlb set

theorem ioConsistent_initial (G : TlbTarget) (tlb : TlbState) :
    IoConsistent G (IoState.initial G tlb) ∅ where
  lists := @ListsPages.of_split _ G.toTarget [] (replicate maxIoAccessRegionsCount 0)
    List.Pairwise.nil (fun page => by simp) (fun page member => by simp at member)
    (by simp) (tlbFlush G tlb false)
  treated mmuIdx less i := by
    unfold IoState.initial
    rw [tlbFlush_fewer G tlb false less i]
    exact treatedEntry_emptied _

section

variable (consistent : IoConsistent G s set)

include consistent

theorem IoConsistent.setPage (address : Nat)
    (room : s.count ≠ maxIoAccessRegionsCount) :
    ∃ s', tlibSetPageIoAccessed G s address = .ok s' ∧
      IoConsistent G s' (insert (pageOf G.toTarget address) set) := by
  by_cases present : pageOf G.toTarget address ∈ set
  · refine ⟨s, tlibSetPageIoAccessed_present consistent.lists room present, ?_⟩
    rw [insert_eq_of_mem present]
    exact consistent
  · obtain ⟨s', ran, lists, flushed⟩ := tlibSetPageIoAccessed_new consistent.lists room present
    refine ⟨s', ran, lists, ?_⟩
    rw [flushed]
    refine consistent.treated.flushPage fun page other => ?_
    rw [mem_insert]
    exact or_iff_right other

theorem IoConsistent.clearPage (address : Nat) :
    ∃ s', tlibClearPageIoAccessed G s address = .ok s' ∧
      IoConsistent G s' (set.erase (pageOf G.toTarget address)) := by
  by_cases present : pageOf G.toTarget address ∈ set
  · obtain ⟨s', ran, lists, flushed⟩ := tlibClearPageIoAccessed_present consistent.lists present
    refine ⟨s', ran, lists, ?_⟩
    rw [flushed]
    refine consistent.treated.flushPage fun page other => ?_
    rw [mem_erase]
    exact and_iff_right other
  · refine ⟨s, tlibClearPageIoAccessed_absent consistent.lists present, ?_⟩
    rw [erase_eq_of_notMem present]
    exact consistent

theorem IoConsistent.apply {op : IoOp}
    (done : op.apply G s = .ok s') : IoConsistent G s' (op.pages G.toTarget set) := by
  cases op with
  | setPageIoAccessed address =>
    by_cases room : s.count = maxIoAccessRegionsCount
    · have aborts : tlibSetPageIoAccessed G s address = .error .aborted := if_pos room
      exact absurd (aborts.symm.trans done) (by simp)
    · obtain ⟨after, ran, kept⟩ := consistent.setPage address room
      have same : s' = after := Except.ok.inj (done.symm.trans ran)
      rw [same]
      exact kept
  | clearPageIoAccessed address =>
    obtain ⟨after, ran, kept⟩ := consistent.clearPage address
    have same : s' = after := Except.ok.inj (done.symm.trans ran)
    rw [same]
    exact kept
  | tlb op =>
    simp only [IoOp.apply] at done
    split at done
    next after ran =>
      cases done
      exact ⟨⟨consistent.lists.size, consistent.lists.fits, consistent.lists.increasing,
        consistent.lists.mem, consistent.lists.aligned⟩,
        consistent.treated.apply consistent.lists ran⟩
    next => cases done

theorem IoConsistent.run {ops : List IoOp}
    (done : ops.foldlM (IoOp.apply G) s = .ok s') :
    IoConsistent G s' (ops.foldl (IoOp.pages G.toTarget) set) := by
  induction ops generalizing s set with
  | nil =>
    cases done
    exact consistent
  | cons op rest ih =>
    rw [foldlM_cons] at done
    cases applied : op.apply G s with
    | error failure =>
      rw [applied] at done
      cases done
    | ok next =>
      rw [applied] at done
      exact ih (consistent.apply applied) done

end

structure IoPagesCorrect (G : TlbTarget) (s : IoState) (set : Finset Nat) : Prop where
  fits : s.count ≤ maxIoAccessRegionsCount
  increasing : (s.regions.take s.count).Pairwise (· < ·)
  search : ∀ vaddr, isIoAccessed G.toTarget s vaddr = some (decide (G.pageBase vaddr ∈ set))
  entries : ∀ mmuIdx < G.nbMmuModes, ∀ i access addr,
    compared G.toTarget ((s.tlb.table mmuIdx i).word access) = G.pageBase addr →
      ∃ m : Mapping, G.pageBase m.vaddr = G.pageBase addr ∧
        s.tlb.table mmuIdx i = tlbEntry G.toTarget m.memory m.vaddr m.paddr m.prot m.size ∧
        m.memory.isIoAccessed m.vaddr = decide (G.pageBase addr ∈ set)
  entersNext : ∀ address, (∃ s', tlibSetPageIoAccessed G s address = .ok s') ∨
    (s.count = maxIoAccessRegionsCount ∧ tlibSetPageIoAccessed G s address = .error .aborted)
  removesNext : ∀ address, ∃ s', tlibClearPageIoAccessed G s address = .ok s'

theorem IoConsistent.correct (consistent : IoConsistent G s set) : IoPagesCorrect G s set where
  fits := consistent.lists.fits
  increasing := consistent.lists.increasing
  search := consistent.lists.isIoAccessed_eq
  entries := by
    intro mmuIdx less i access addr hit
    rcases consistent.treated mmuIdx less i with isEmpty | ⟨m, small, -, made, seen⟩
    · rw [isEmpty access] at hit
      exact absurd hit compared_none_ne
    · have samePage : G.pageBase m.vaddr = G.pageBase addr := by
        cases found : (s.tlb.table mmuIdx i).word access with
        | none =>
          rw [found] at hit
          exact absurd hit compared_none_ne
        | some word =>
          have own : word.page = m.vaddr := tlbEntry_page (made ▸ found)
          rw [found] at hit
          rw [← own]
          exact pageBase_of_compared (own ▸ small) hit
      refine ⟨m, samePage, made, ?_⟩
      rw [← samePage] at hit ⊢
      exact seen ⟨access, hit⟩
  entersNext := by
    intro address
    by_cases room : s.count = maxIoAccessRegionsCount
    · exact .inr ⟨room, if_pos room⟩
    · obtain ⟨s', ran, -⟩ := consistent.setPage address room
      exact .inl ⟨s', ran⟩
  removesNext := by
    intro address
    obtain ⟨s', ran, -⟩ := consistent.clearPage address
    exact ⟨s', ran⟩

/-- Whatever pages were entered and removed, with whatever calls on the TLB in between: the
array ascends, the search finds exactly the pages that are in the set, and no entry that an
access can meet is left from before its page was last entered or removed. -/
theorem ioAccessedPages_run (tlb : TlbState) (ops : List IoOp)
    (done : ops.foldlM (IoOp.apply G) (IoState.initial G tlb) = .ok s) :
    IoPagesCorrect G s (ops.foldl (IoOp.pages G.toTarget) ∅) :=
  ((ioConsistent_initial G tlb).run done).correct

end Runs

def ioPageCalls : List IoOp :=
  [.setPageIoAccessed 0x401234, .tlb (.setPage noMemory 0x401000 0x801000 7 0 (2 ^ 12)),
    .setPageIoAccessed 0x401000, .setPageIoAccessed 0x2000, .clearPageIoAccessed 0x401fff]

set_option maxRecDepth 20000 in
/-- The page in front is left. -/
theorem ioAccessedPages_run_sample : ∃ s,
    ioPageCalls.foldlM (IoOp.apply pagedTarget) (IoState.initial pagedTarget emptyTlbState) =
      .ok s ∧ s.regions.take s.count = [0x2000] ∧
    IoPagesCorrect pagedTarget s (ioPageCalls.foldl (IoOp.pages pagedTarget.toTarget) ∅) := by
  obtain ⟨s, done, left⟩ : ∃ s,
      ioPageCalls.foldlM (IoOp.apply pagedTarget) (IoState.initial pagedTarget emptyTlbState) =
        .ok s ∧ s.regions.take s.count = [0x2000] := by
    refine ⟨_, rfl, ?_⟩
    decide
  exact ⟨s, done, left, ioAccessedPages_run emptyTlbState ioPageCalls done⟩

end Tlib.Softmmu
