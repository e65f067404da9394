import Tlib.Library.SortedArray
import Tlib.TranslationCache.Runs

/-!
Contract: where the host code of the blocks lies, and the search for the owner of an address.

Owns: the code buffer with its two views, and `tb_find_pc` after any run of generations, frees and
flushes. Does not own: the lists of the blocks. A generation that is abandoned has no step in
`Step`, where a block is generated as a whole.
-/

namespace Tlib.TranslationCache

open Tlib.Library.SortedArray List Option

def tcgPrologueSize : Nat := 1024

def codeGenAlign : Nat := 16

/-- The code buffer: writable at `rwBuffer`, executable at `rxBuffer`. -/
structure CodeViews where
  (rwBuffer rxBuffer size : Nat)
  views : rxBuffer = rwBuffer ∨ rxBuffer + (size + tcgPrologueSize) ≤ rwBuffer ∨
    rwBuffer + (size + tcgPrologueSize) ≤ rxBuffer

namespace CodeViews

variable (v : CodeViews)

def isPtrInRxBuf (ptr : Nat) : Bool :=
  v.rxBuffer ≤ ptr ∧ ptr < v.rxBuffer + v.size + tcgPrologueSize

/-- `ptr + tcg_wx_diff` -/
def rxPtrToRw (ptr : Nat) : Nat := ptr - v.rxBuffer + v.rwBuffer

/-- The address that `tb_find_pc` searches. -/
def searched (ptr : Nat) : Nat := if v.isPtrInRxBuf ptr then v.rxPtrToRw ptr else ptr

theorem searched_views {offset : Nat} (inside : offset < v.size + tcgPrologueSize) :
    v.searched (v.rxBuffer + offset) = v.rwBuffer + offset ∧
      v.searched (v.rwBuffer + offset) = v.rwBuffer + offset := by
  have apart := v.views
  unfold searched isPtrInRxBuf rxPtrToRw
  simp only [decide_eq_true_eq]
  constructor
  · rw [if_pos (by omega)]
    omega
  · split_ifs
    · omega
    · rfl

end CodeViews

/-- A record of `tbs`, as far as its host code goes. -/
structure CodeRecord where
  tcPtr : Nat
  /-- The bytes of code and of search data; `none` is a block that a fault abandoned. -/
  generated : Option (Nat × Nat)

/-- Where the search data ends. -/
def CodeRecord.stop (tb : CodeRecord) : Nat :=
  match tb.generated with
  | some (codeSize, searchSize) => tb.tcPtr + codeSize + searchSize
  | none => tb.tcPtr

structure CodeState where
  buffer : CodeBuffer
  views : CodeViews
  /-- `tbs[0]` to `tbs[nb_tbs - 1]` -/
  tbs : List CodeRecord
  codeGenPtr : Nat

/-- The buffer after `code_gen_alloc`. -/
def codeGenAlloc (buffer : CodeBuffer) (views : CodeViews) : CodeState where
  buffer := buffer
  views := views
  tbs := []
  codeGenPtr := views.rwBuffer

namespace CodeState

variable (s : CodeState)

/-- The guard of `tb_alloc`. -/
def full : Bool :=
  s.buffer.maxBlocks ≤ s.tbs.length || s.buffer.maxSize ≤ s.codeGenPtr - s.views.rwBuffer

/-- `tb_flush`; `none` is its `cpu_abort`. -/
def tbFlush : Option CodeState :=
  if s.views.size < s.codeGenPtr - s.views.rwBuffer then none
  else some { s with tbs := [], codeGenPtr := s.views.rwBuffer }

/-- `tb_free`, on the record with this index. -/
def tbFree (tb : TbId) : CodeState :=
  match s.tbs.getLast? with
  | some last =>
    if tb = s.tbs.length - 1 then
      { s with codeGenPtr := last.tcPtr, tbs := s.tbs.dropLast }
    else s
  | none => s

/-- The buffer that `code_gen_try_expand` leaves, the old one when it is `none`. -/
def expand (expanded : Option (CodeBuffer × CodeViews)) : CodeState :=
  match expanded with
  | some (buffer, views) => codeGenAlloc buffer views
  | none => s

end CodeState

/-- How far `tb_gen_code` gets. -/
inductive CodeOutcome where
  /-- The first `get_page_addr_code` faults. -/
  | faultAtPc
  /-- Reading guest code faults behind `tb_alloc`. -/
  | abandoned
  /-- `code_gen_ptr` moves behind the search data; the second page may still fault. -/
  | generated (codeSize searchSize : Nat)

structure CodeGeneration where
  expanded : Option (CodeBuffer × CodeViews)
  outcome : CodeOutcome

namespace CodeState

variable (s : CodeState)

/-- `tb_alloc`, behind `tb_flush` and `code_gen_try_expand` if there is no room. -/
def makeRoom (expanded : Option (CodeBuffer × CodeViews)) : Option CodeState :=
  if s.full then s.tbFlush.map fun flushed => flushed.expand expanded else some s

def tbGenCode (gen : CodeGeneration) : Option CodeState :=
  match gen.outcome with
  | .faultAtPc => some s
  | .abandoned =>
    (s.makeRoom gen.expanded).map fun s =>
      { s with tbs := s.tbs ++ [{ tcPtr := s.codeGenPtr, generated := none }] }
  | .generated codeSize searchSize =>
    (s.makeRoom gen.expanded).map fun s =>
      { s with
        tbs := s.tbs ++ [{ tcPtr := s.codeGenPtr, generated := some (codeSize, searchSize) }]
        codeGenPtr := (s.codeGenPtr + codeSize + searchSize + codeGenAlign - 1) /
          codeGenAlign * codeGenAlign }

/-- The index of the record, or `NULL`; the outer `none` is a search that goes astray. -/
def tbFindPc (ptr : Nat) : Option (Option TbId) :=
  let tcPtr := s.views.searched ptr
  if s.tbs.length = 0 then some none
  else if tcPtr < s.views.rwBuffer ∨ s.codeGenPtr ≤ tcPtr then some none
  else do
    let m ← floorIndex (s.tbs.map CodeRecord.tcPtr) tcPtr
    if m < 0 then none else some (some m.toNat)

end CodeState

inductive CodeEvent where
  | genCode (gen : CodeGeneration)
  | free (tb : TbId)
  | flush

def codeStep (s : CodeState) : CodeEvent → Option CodeState
  | .genCode gen => s.tbGenCode gen
  | .free tb => some (s.tbFree tb)
  | .flush => s.tbFlush

/-- A run; `none` is one that `cpu_abort` ended. -/
def codeRun (s : CodeState) (events : List CodeEvent) : Option CodeState := events.foldlM codeStep s

/-- Blocks follow each other in the buffer, and all end before `code_gen_ptr`. -/
structure CodeState.Placed (s : CodeState) : Prop where
  apart : s.tbs.Pairwise fun earlier later => earlier.stop ≤ later.tcPtr
  below : ∀ tb ∈ s.tbs, tb.stop ≤ s.codeGenPtr
  first : ∀ tb, s.tbs.head? = some tb → tb.tcPtr = s.views.rwBuffer
  empty : s.tbs = [] → s.codeGenPtr = s.views.rwBuffer

theorem CodeRecord.tcPtr_le_stop (tb : CodeRecord) : tb.tcPtr ≤ tb.stop := by
  unfold CodeRecord.stop
  split
  · omega
  · exact Nat.le_refl _

theorem codeGenAlloc_placed (buffer : CodeBuffer) (views : CodeViews) :
    (codeGenAlloc buffer views).Placed where
  apart := List.Pairwise.nil
  below := fun tb member => absurd member not_mem_nil
  first := fun tb isFirst => absurd isFirst (by simp [codeGenAlloc])
  empty := fun _ => rfl

namespace CodeState

variable {s s' : CodeState}

theorem tbFlush_placed (flushed : s.tbFlush = some s') : s'.Placed := by
  unfold tbFlush at flushed
  split_ifs at flushed
  rw [← some.inj flushed]
  exact codeGenAlloc_placed s.buffer s.views

theorem tbFree_placed (placed : s.Placed) (tb : TbId) : (s.tbFree tb).Placed := by
  unfold tbFree
  split
  · rename_i last isLast
    split_ifs with same
    · have split := dropLast_append_getLast? last isLast
      have apart := placed.apart
      rw [← split, pairwise_append] at apart
      refine ⟨apart.1, ?_, ?_, ?_⟩
      · intro other member
        exact apart.2.2 other member last mem_cons_self
      · intro other isFirst
        apply placed.first
        rw [← split, head?_append, isFirst]
        rfl
      · intro alone
        apply placed.first
        rw [← split]
        change s.tbs.dropLast = [] at alone
        rw [alone]
        rfl
    · exact placed
  · exact placed

theorem makeRoom_placed (placed : s.Placed) {expanded : Option (CodeBuffer × CodeViews)}
    (room : s.makeRoom expanded = some s') : s'.Placed := by
  unfold makeRoom at room
  split_ifs at room with isFull
  · obtain ⟨flushed, done, rfl⟩ := map_eq_some_iff.mp room
    cases expanded with
    | none => exact tbFlush_placed done
    | some fresh => exact codeGenAlloc_placed fresh.1 fresh.2
  · rw [← some.inj room]
    exact placed

theorem append_placed (placed : s.Placed) (tb : CodeRecord) (start : tb.tcPtr = s.codeGenPtr)
    {codeGenPtr : Nat} (stop : tb.stop ≤ codeGenPtr) :
    Placed { s with tbs := s.tbs ++ [tb], codeGenPtr := codeGenPtr } := by
  have le_stop := tb.tcPtr_le_stop
  constructor
  · rw [pairwise_append]
    refine ⟨placed.apart, pairwise_singleton _ _, ?_⟩
    intro other member new isNew
    rw [mem_singleton] at isNew
    rw [isNew, start]
    exact placed.below other member
  · intro other member
    obtain old | new := mem_append.mp member
    · have bound := placed.below other old
      change other.stop ≤ codeGenPtr
      omega
    · rw [mem_singleton] at new
      rw [new]
      exact stop
  · intro other isFirst
    cases tbs : s.tbs with
    | nil =>
      simp only [tbs, nil_append, head?_cons, some.injEq] at isFirst
      rw [← isFirst, start]
      exact placed.empty tbs
    | cons head rest =>
      simp only [tbs, cons_append, head?_cons, some.injEq] at isFirst
      apply placed.first
      rw [tbs, head?_cons, isFirst]
  · intro alone
    exact absurd alone (by simp)

theorem tbGenCode_placed (placed : s.Placed) {gen : CodeGeneration}
    (done : s.tbGenCode gen = some s') : s'.Placed := by
  unfold tbGenCode at done
  cases outcome : gen.outcome with
  | faultAtPc =>
    rw [outcome] at done
    rw [← some.inj done]
    exact placed
  | abandoned =>
    rw [outcome] at done
    obtain ⟨free, room, rfl⟩ := map_eq_some_iff.mp done
    exact append_placed (makeRoom_placed placed room) _ rfl (Nat.le_refl _)
  | generated codeSize searchSize =>
    rw [outcome] at done
    obtain ⟨free, room, rfl⟩ := map_eq_some_iff.mp done
    refine append_placed (makeRoom_placed placed room) _ rfl ?_
    unfold CodeRecord.stop codeGenAlign
    dsimp only
    omega

end CodeState

theorem codeStep_placed {s s' : CodeState} (placed : s.Placed) {event : CodeEvent}
    (step : codeStep s event = some s') : s'.Placed := by
  cases event with
  | genCode gen => exact CodeState.tbGenCode_placed placed step
  | free tb =>
    rw [← some.inj step]
    exact CodeState.tbFree_placed placed tb
  | flush => exact CodeState.tbFlush_placed step

theorem codeRun_placed {s s' : CodeState} (placed : s.Placed) {events : List CodeEvent}
    (run : codeRun s events = some s') : s'.Placed := by
  induction events generalizing s with
  | nil =>
    rw [← some.inj run]
    exact placed
  | cons event events ih =>
    obtain ⟨next, step, rest⟩ := bind_eq_some_iff.mp run
    exact ih (codeStep_placed placed step) rest

namespace CodeState

variable {s : CodeState}

theorem Placed.sorted (placed : s.Placed) :
    s.tbs.Pairwise fun earlier later => earlier.tcPtr ≤ later.tcPtr :=
  placed.apart.imp fun apart => le_trans (CodeRecord.tcPtr_le_stop _) apart

theorem Placed.values_sorted (placed : s.Placed) : (s.tbs.map CodeRecord.tcPtr).Pairwise (· ≤ ·) :=
  pairwise_map.mpr placed.sorted

theorem Placed.rwBuffer_le (placed : s.Placed) {k : Nat} (inside : k < s.tbs.length) :
    s.views.rwBuffer ≤ s.tbs[k].tcPtr := by
  have first := placed.first s.tbs[0] (by rw [head?_eq_getElem?, List.getElem?_eq_getElem])
  have le := sorted_le placed.values_sorted (Nat.zero_le k) (by simpa using inside)
  rw [getElem_map, getElem_map] at le
  omega

theorem Placed.tbFindPc_inside (placed : s.Placed) (ptr : Nat) :
    ∃ found, s.tbFindPc ptr = some found ∧ ∀ k, found = some k → k < s.tbs.length := by
  unfold tbFindPc
  dsimp only
  split_ifs with noBlocks outside
  · exact ⟨none, rfl, fun k same => absurd same (by simp)⟩
  · exact ⟨none, rfl, fun k same => absurd same (by simp)⟩
  · obtain ⟨m, found, isFloor⟩ :=
      floorIndex_isFloor (s.tbs.map CodeRecord.tcPtr) (s.views.searched ptr)
    have positive : 0 < s.tbs.length := by omega
    have first := placed.first s.tbs[0] (by rw [head?_eq_getElem?, List.getElem?_eq_getElem])
    have nonneg : 0 ≤ m := by
      apply isFloor.nonneg (by simpa using positive)
      rw [getElem_map]
      omega
    have below := isFloor.lt
    rw [length_map] at below
    rw [found]
    dsimp only [bind_eq_bind, bind_some]
    rw [if_neg (by omega)]
    have inside : m.toNat < s.tbs.length := by omega
    refine ⟨some m.toNat, rfl, ?_⟩
    intro k same
    rw [← some.inj same]
    exact inside

theorem tbFindPc_outside (s : CodeState) {ptr : Nat}
    (outside : s.views.searched ptr < s.views.rwBuffer ∨ s.codeGenPtr ≤ s.views.searched ptr) :
    s.tbFindPc ptr = some none := by
  unfold tbFindPc
  dsimp only
  split_ifs
  · rfl
  · rfl

theorem Placed.tbFindPc_inBlock (placed : s.Placed) {k ptr : Nat} (inside : k < s.tbs.length)
    (starts : s.tbs[k].tcPtr < s.views.searched ptr)
    (ends : s.views.searched ptr < s.tbs[k].stop) : s.tbFindPc ptr = some (some k) := by
  have rwBuffer_le := placed.rwBuffer_le inside
  have below := placed.below s.tbs[k] (getElem_mem inside)
  obtain ⟨m, found, isFloor⟩ :=
    floorIndex_isFloor (s.tbs.map CodeRecord.tcPtr) (s.views.searched ptr)
  have owner : m = k := by
    apply isFloor.eq_of_sorted placed.values_sorted (by simpa using inside)
    · rw [getElem_map]
      exact starts
    · intro j short later
      rw [getElem_map]
      have apart := pairwise_iff_getElem.mp placed.apart k j inside (by simpa using short)
        later
      omega
  unfold tbFindPc
  rw [if_neg (by omega), if_neg (by omega), found]
  dsimp only [bind_eq_bind, bind_some]
  rw [if_neg (by omega), owner, Int.toNat_natCast]

end CodeState

/-- After any run of generations, frees and flushes, the blocks lie in order, and the search
gives the block that has an address strictly inside its code or search data, and `NULL`
outside the part of the buffer that is in use. It ends and reads only `tbs`. An address
counts by the byte of the buffer that it names in either view. -/
theorem tbFindPc_owner (buffer : CodeBuffer) (views : CodeViews) (events : List CodeEvent)
    (s : CodeState) (run : codeRun (codeGenAlloc buffer views) events = some s) :
    (s.tbs.Pairwise fun earlier later => earlier.tcPtr ≤ later.tcPtr) ∧
      (∀ (k : TbId) (tb : CodeRecord) (codeSize searchSize ptr : Nat), s.tbs[k]? = some tb →
        tb.generated = some (codeSize, searchSize) → tb.tcPtr < s.views.searched ptr →
        s.views.searched ptr < tb.tcPtr + codeSize + searchSize →
        s.tbFindPc ptr = some (some k)) ∧
      (∀ ptr, ¬ (s.views.rwBuffer ≤ s.views.searched ptr ∧ s.views.searched ptr < s.codeGenPtr) →
        s.tbFindPc ptr = some none) ∧
      (∀ ptr, ∃ found, s.tbFindPc ptr = some found ∧ ∀ k, found = some k → k < s.tbs.length) ∧
      ∀ offset, offset < s.views.size + tcgPrologueSize →
        s.views.searched (s.views.rxBuffer + offset) = s.views.rwBuffer + offset ∧
          s.views.searched (s.views.rwBuffer + offset) = s.views.rwBuffer + offset := by
  have placed := codeRun_placed (codeGenAlloc_placed buffer views) run
  refine ⟨placed.sorted, ?_, ?_, placed.tbFindPc_inside, ?_⟩
  · intro k tb codeSize searchSize ptr present complete starts ends
    obtain ⟨inside, rfl⟩ := List.getElem?_eq_some_iff.mp present
    have stop : s.tbs[k].stop = s.tbs[k].tcPtr + codeSize + searchSize := by
      rw [CodeRecord.stop, complete]
    exact placed.tbFindPc_inBlock inside starts (by omega)
  · intro ptr outside
    exact s.tbFindPc_outside (by omega)
  · exact fun offset inside => s.views.searched_views inside

def retriedBlock : List CodeEvent :=
  [.genCode { expanded := none, outcome := .abandoned },
    .genCode { expanded := none, outcome := .generated 100 20 }]

def splitViews : CodeViews where
  rwBuffer := 0x100000
  rxBuffer := 0x800000
  size := 0x100000
  views := by decide

theorem eightBlocks_pos : 0 < 8 := by decide

def smallBuffer : CodeBuffer where
  maxBlocks := 8
  maxSize := 0x80000
  maxBlocks_pos := eightBlocks_pos
  maxSize_pos := by decide

theorem tbFindPc_owner_retried :
    ∃ s, codeRun (codeGenAlloc smallBuffer splitViews) retriedBlock = some s ∧
      s.tbFindPc 0x800040 = some (some 1) := by
  refine ⟨_, rfl, ?_⟩
  exact (tbFindPc_owner smallBuffer splitViews retriedBlock _ rfl).2.1 1 _ 100 20 0x800040 rfl rfl
    (by decide) (by decide)

end Tlib.TranslationCache
