import Mathlib.Algebra.GroupWithZero.Nat
import Mathlib.Data.Finset.Prod
import Mathlib.Data.Fintype.Card
import Tlib.Library.Linked

/-!
Contract: the translation cache as the code stores it.

Owns: translation blocks. Does not own: any list operation. A pointer to a pointer of the source
is a cell here, and each pointer memory is a function from cells to pointers.
-/

namespace Tlib.TranslationCache

open Function Finset

/-- The pages and the jumps of a block have two slots each. -/
scoped instance twoSlots : NeZero 2 := ⟨by decide⟩

/-- Compile-time constants of a target; page-aligned addresses lack `IO_MEM_EXECUTABLE_IO`. -/
structure Target where
  (pageBits longBits : Nat)
  /-- The width of `target_phys_addr_t`, wider than `target_ulong` on SPARC alone. -/
  physAddrBits : Nat
  pageBits_ge : 7 ≤ pageBits
  pageBits_le : pageBits ≤ longBits

namespace Target

theorem pages4K_ge : 7 ≤ 12 := by decide

theorem pages4K_le : 12 ≤ 32 := by decide

variable (T : Target)

def pageSize : Nat := 2 ^ T.pageBits

/-- `address & TARGET_PAGE_MASK` -/
def pageBase (address : Nat) : Nat := address / T.pageSize * T.pageSize

/-- `address & ~TARGET_PAGE_MASK` -/
def pageOffset (address : Nat) : Nat := address % T.pageSize

/-- `address >> TARGET_PAGE_BITS` -/
def pageIndex (address : Nat) : Nat := address / T.pageSize

/-- Conversion to `target_ulong`. -/
def toUlong (value : Nat) : Nat := value % 2 ^ T.longBits

/-- Conversion to `target_phys_addr_t`. -/
def toPhysAddr (value : Nat) : Nat := value % 2 ^ T.physAddrBits

theorem pageSize_pos : 0 < T.pageSize := Nat.two_pow_pos _

theorem pageOffset_lt (address : Nat) : T.pageOffset address < T.pageSize :=
  Nat.mod_lt _ T.pageSize_pos

theorem pageBase_add_pageOffset (address : Nat) :
    T.pageBase address + T.pageOffset address = address := by
  rw [pageBase, pageOffset, Nat.mul_comm]
  exact Nat.div_add_mod address T.pageSize

@[simp] theorem pageIndex_pageBase (address : Nat) :
    T.pageIndex (T.pageBase address) = T.pageIndex address :=
  Nat.mul_div_cancel _ T.pageSize_pos

@[simp] theorem pageBase_pageBase (address : Nat) :
    T.pageBase (T.pageBase address) = T.pageBase address := by
  change T.pageIndex (T.pageBase address) * T.pageSize = _
  rw [pageIndex_pageBase]
  rfl

/-! Addresses inside an aligned page. -/

section Aligned

variable {T} {page offset : Nat} (aligned : T.pageBase page = page) (below : offset < T.pageSize)
include aligned below

theorem pageIndex_add : T.pageIndex (page + offset) = T.pageIndex page := by
  have split : T.pageSize * T.pageIndex page = page := by
    rw [Nat.mul_comm]
    exact aligned
  calc T.pageIndex (page + offset)
      = (T.pageSize * T.pageIndex page + offset) / T.pageSize := by rw [split, pageIndex]
    _ = T.pageIndex page + offset / T.pageSize := Nat.mul_add_div T.pageSize_pos _ _
    _ = T.pageIndex page := by rw [Nat.div_eq_of_lt below, Nat.add_zero]

theorem pageBase_add : T.pageBase (page + offset) = page := by
  change T.pageIndex (page + offset) * T.pageSize = page
  rw [pageIndex_add aligned below]
  exact aligned

theorem pageOffset_add : T.pageOffset (page + offset) = offset := by
  have split := T.pageBase_add_pageOffset (page + offset)
  rw [pageBase_add aligned below] at split
  exact Nat.add_left_cancel split

end Aligned

end Target

/-- The index of a block in `tbs`. -/
abbrev TbId := Nat

/-- `tb_page_addr_t` and `target_ulong` values. -/
abbrev Address := Nat

/-- A block with the number of one of its two branches or pages. -/
abbrev Slot := TbId × Fin 2

structure TranslationBlock where
  pc : Address
  (csBase flags : Nat)
  dirtyFlag : Bool
  (size icount : Nat)
  wasCut : Bool
  pageAddr0 : Address
  /-- `none` stands for `-1`. -/
  pageAddr1 : Option Address
  /-- `0xffff` when the block has no such branch. -/
  tbNextOffset : Fin 2 → Nat

/-- The cells that thread the hash chains: `&tb_phys_hash[h]` and `&tb->phys_hash_next`. -/
inductive HashCell where
  | bucket (h : Nat)
  | physHashNext (tb : TbId)
deriving DecidableEq, Repr

/-- `&p->first_tb` and `&tb->page_next[n]`. -/
inductive PageCell where
  | firstTb (page : Nat)
  | pageNext (entry : Slot)
deriving DecidableEq, Repr

/-- `&tb->jmp_first` and `&tb->jmp_next[n]`. -/
inductive JumpCell where
  | jmpFirst (tb : TbId)
  | jmpNext (slot : Slot)
deriving DecidableEq, Repr

/-- A non-null pointer on a jump chain, with its tag. -/
inductive JumpPtr where
  | branch (slot : Slot)
  | owner (tb : TbId)
deriving DecidableEq, Repr

/-- Where the patched branch of a slot leads. -/
inductive JumpTarget where
  | ownExit
  | code (tb : TbId)
deriving DecidableEq, Repr

/-- Limits set by `code_gen_alloc`; a fresh buffer always has room. -/
structure CodeBuffer where
  (maxBlocks maxSize : Nat)
  maxBlocks_pos : 0 < maxBlocks
  maxSize_pos : 0 < maxSize

structure State where
  tbs : TbId → TranslationBlock
  nbTbs : Nat
  codeBuffer : CodeBuffer
  /-- `code_gen_ptr - tcg_rw_buffer` -/
  codeGenPtr : Nat
  hash : HashCell → Option TbId
  page : PageCell → Option Slot
  /-- Which leaf tables of `l1_map` exist; a leaf serves `L2_SIZE` pages. -/
  leafAllocated : Nat → Bool
  codeBitmap : Nat → Option (Nat → BitVec 8)
  codeWriteCount : Nat → Nat
  jump : JumpCell → Option JumpPtr
  jmpTarget : Slot → JumpTarget
  tbJmpCache : Nat → Option TbId
  tbInvalidatedFlag : Bool

/-- `tb_phys_hash_func`, with `CODE_GEN_PHYS_HASH_BITS = 15`. -/
def tbPhysHashFunc (pc : Address) : Nat := (pc >>> 2) % 2 ^ 15

def tbJmpPageBits : Nat := 6

/-- `tb_jmp_cache_hash_func`, with `TB_JMP_CACHE_BITS = 12`. -/
def tbJmpCacheHashFunc (T : Target) (pc : Address) : Nat :=
  let tmp := pc ^^^ (pc >>> (T.pageBits - tbJmpPageBits))
  ((tmp >>> (T.pageBits - tbJmpPageBits)) &&& (2 ^ 12 - 2 ^ 6)) ||| (tmp &&& (2 ^ 6 - 1))

/-- Number of the leaf table that holds a page descriptor, with `L2_BITS = 10`. -/
def leafOf (index : Nat) : Nat := index / 2 ^ 10

/-- `page_find`: `none` when the leaf table was never allocated. -/
def pageFind (s : State) (index : Nat) : Option Nat :=
  if s.leafAllocated (leafOf index) then some index else none

/-- The allocating case of `page_find_alloc`. -/
def pageFindAlloc (s : State) (index : Nat) : State :=
  { s with leafAllocated := update s.leafAllocated (leafOf index) true }

def invalidatePageBitmap (s : State) (p : Nat) : State :=
  { s with
    codeBitmap := update s.codeBitmap p none
    codeWriteCount := update s.codeWriteCount p 0 }

/-- The block record after `memset` and the assignments of `tb_alloc`. -/
def TranslationBlock.allocated (pc : Address) : TranslationBlock where
  pc := pc
  csBase := 0
  flags := 0
  dirtyFlag := false
  size := 0
  icount := 0
  wasCut := false
  pageAddr0 := 0
  pageAddr1 := some 0
  tbNextOffset := fun _ => 0

/-- No room for another block: the guard of `tb_alloc`. -/
def State.full (s : State) : Bool :=
  s.codeBuffer.maxBlocks ≤ s.nbTbs || s.codeBuffer.maxSize ≤ s.codeGenPtr

/-- Taking the next record of `tbs`, whose pointers are cleared. -/
def takeTb (s : State) (pc : Address) : State :=
  let tb := s.nbTbs
  let page := update s.page (.pageNext (tb, 0)) none
  let jump := update s.jump (.jmpFirst tb) none
  let jump := update jump (.jmpNext (tb, 0)) none
  { s with
    nbTbs := s.nbTbs + 1
    tbs := update s.tbs tb (TranslationBlock.allocated pc)
    hash := update s.hash (.physHashNext tb) none
    page := update page (.pageNext (tb, 1)) none
    jump := update jump (.jmpNext (tb, 1)) none }

def tbAlloc (s : State) (pc : Address) : Option (State × TbId) :=
  if s.full then none else some (takeTb s pc, s.nbTbs)

/-- `page_flush_tb` clears the descriptors of all allocated leaves. -/
def pageFlushTb (s : State) : State :=
  { s with
    page := fun cell =>
      match cell with
      | .firstTb p => if s.leafAllocated (leafOf p) then none else s.page (.firstTb p)
      | .pageNext entry => s.page (.pageNext entry)
    codeBitmap := fun p => if s.leafAllocated (leafOf p) then none else s.codeBitmap p
    codeWriteCount := fun p => if s.leafAllocated (leafOf p) then 0 else s.codeWriteCount p }

def tbFlush (s : State) : State :=
  pageFlushTb { s with
    nbTbs := 0
    tbJmpCache := fun _ => none
    hash := fun cell =>
      match cell with
      | .bucket _ => none
      | .physHashNext tb => s.hash (.physHashNext tb)
    codeGenPtr := 0 }

/-- The physical pc as `tb_phys_invalidate` computes it. -/
def TranslationBlock.physPc (T : Target) (tb : TranslationBlock) : Address :=
  tb.pageAddr0 + T.pageOffset tb.pc

def TranslationBlock.hashIndex (T : Target) (tb : TranslationBlock) : Nat :=
  tbPhysHashFunc (tb.physPc T)

/-- `tb->page_addr[n] >> TARGET_PAGE_BITS`, when the block has that page. -/
def TranslationBlock.pageOf (T : Target) (tb : TranslationBlock) (n : Fin 2) : Option Nat :=
  if n = 0 then some (T.pageIndex tb.pageAddr0) else tb.pageAddr1.map T.pageIndex

def TranslationBlock.hasBranch (tb : TranslationBlock) (n : Fin 2) : Bool :=
  tb.tbNextOffset n ≠ 0xffff

/-- A block that went through `tb_link_page`: its `jmp_first` is not null. -/
def State.Linked (s : State) (tb : TbId) : Prop := tb < s.nbTbs ∧ s.jump (.jmpFirst tb) ≠ none

instance (s : State) (tb : TbId) : Decidable (s.Linked tb) := by
  unfold State.Linked
  infer_instance

theorem slots_length_le {l : List Slot} {bound : Nat} (nodup : l.Nodup)
    (below : ∀ slot ∈ l, slot.1 < bound) : l.length ≤ 2 * bound := by
  have subset : l.toFinset ⊆ range bound ×ˢ (univ : Finset (Fin 2)) := by
    intro slot member
    rw [mem_product]
    exact ⟨mem_range.mpr (below slot (List.mem_toFinset.mp member)), mem_univ _⟩
  calc l.length = l.toFinset.card := (List.toFinset_card_of_nodup nodup).symm
    _ ≤ (range bound ×ˢ (univ : Finset (Fin 2))).card := card_le_card subset
    _ = 2 * bound := by
        rw [card_product, card_range, card_univ, Fintype.card_fin,
          Nat.mul_comm]

end Tlib.TranslationCache
