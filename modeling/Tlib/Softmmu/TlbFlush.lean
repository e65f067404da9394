import Mathlib.Data.LawfulXor.Basic
import Mathlib.Tactic.ByContra
import Tlib.Library.BitMasks
import Tlib.Softmmu.Tlb

/-!
Contract: flushing of the software TLB.

Owns: the words that `tlb_flush_entry` compares, the region that stands for the large pages, the
jump cache, and what a flush of a page leaves.
-/

namespace Tlib.Softmmu

open Tlib.TranslationCache List Nat
open Tlib.Library.BitMasks

/-! ### Words -/

def tlbOneShot : Nat := 2 ^ 2
def tlbInvalidMask : Nat := 2 ^ 3
def tlbNotdirty : Nat := 2 ^ 4
def tlbMmio : Nat := 2 ^ 5
def ioMemExecutableIo : Nat := 2 ^ 6

def TlbAddress.flags (address : TlbAddress) : Nat :=
  (if address.oneShot then tlbOneShot else 0) ||| (if address.notDirty then tlbNotdirty else 0) |||
    (if address.mmio then tlbMmio else 0) |||
    (if address.executableIo then ioMemExecutableIo else 0)

/-- The word as it is stored; `-1` for none. -/
def wordBits (T : Target) : Option TlbAddress → Nat
  | none => 2 ^ T.longBits - 1
  | some address => address.page ||| address.flags

/-- `TARGET_PAGE_MASK` -/
def pageMask (T : Target) : Nat := 2 ^ T.longBits - 2 ^ T.pageBits

def compared (T : Target) (word : Option TlbAddress) : Nat :=
  wordBits T word &&& (pageMask T ||| tlbInvalidMask)

/-! ### State -/

structure TlbTarget extends Target where
  nbMmuModes : Nat
  nbMmuModes_le : nbMmuModes ≤ 32

structure TlbState where
  table : TlbTable
  (flushAddr flushMask : Nat)
  tbJmpCache : Nat → Option TranslationBlock
  currentTb : Option TranslationBlock

/-- `s_cputlb_empty_entry`; the `iotlb` word is not touched. -/
def CPUTLBEntry.emptied (entry : CPUTLBEntry) : CPUTLBEntry :=
  { entry with addrRead := none, addrWrite := none, addrCode := none, addend := 2 ^ 64 - 1 }

def tbJmpCacheHashPage (T : Target) (pc : Nat) : Nat :=
  let tmp := pc ^^^ (pc >>> (T.pageBits - tbJmpPageBits))
  (tmp >>> (T.pageBits - tbJmpPageBits)) &&& (2 ^ 12 - 2 ^ 6)

/-- `memset` of `TB_JMP_PAGE_SIZE` slots. -/
def clearSlots (tbJmpCache : Nat → Option TranslationBlock) (i : Nat) :
    Nat → Option TranslationBlock :=
  fun slot => if i ≤ slot ∧ slot < i + 2 ^ tbJmpPageBits then none else tbJmpCache slot

def pageBefore (T : Target) (addr : Nat) : Nat := T.toUlong (addr + 2 ^ T.longBits - T.pageSize)

def tlbFlushJmpCache (T : Target) (tbJmpCache : Nat → Option TranslationBlock) (addr : Nat) :
    Nat → Option TranslationBlock :=
  clearSlots (clearSlots tbJmpCache (tbJmpCacheHashPage T (pageBefore T addr)))
    (tbJmpCacheHashPage T addr)

/-! ### Flushes -/

section Flushes

variable (G : TlbTarget)

def tlbFlush (s : TlbState) (fromGeneratedCode : Bool) : TlbState where
  table := fun mmuIdx i =>
    if mmuIdx < G.nbMmuModes then (s.table mmuIdx i).emptied else s.table mmuIdx i
  flushAddr := 2 ^ G.longBits - 1
  flushMask := 0
  tbJmpCache := fun _ => none
  currentTb := if fromGeneratedCode then s.currentTb else none

def tlbFlushEntry (tlbEntry : CPUTLBEntry) (addr : Nat) : CPUTLBEntry :=
  if addr = compared G.toTarget tlbEntry.addrRead ∨ addr = compared G.toTarget tlbEntry.addrWrite ∨
      addr = compared G.toTarget tlbEntry.addrCode then tlbEntry.emptied
  else tlbEntry

def tlbFlushMasked (s : TlbState) (mmuIndexesMask : Nat) : TlbState :=
  { s with
    currentTb := none
    table := fun mmuIdx i =>
      if mmuIdx < G.nbMmuModes ∧ mmuIndexesMask.testBit mmuIdx then (s.table mmuIdx i).emptied
      else s.table mmuIdx i
    tbJmpCache := fun _ => none }

/-- `addr` is in the region of the large pages, as the code tests it. -/
def TlbState.inLargePage (s : TlbState) (addr : Nat) : Bool := addr &&& s.flushMask = s.flushAddr

def tlbFlushPageMasked (s : TlbState) (addr mmuIndexesMask : Nat) (fromGeneratedCode : Bool) :
    TlbState :=
  if s.inLargePage addr then tlbFlush G s false
  else
    let page := addr &&& pageMask G.toTarget
    let index := tlbIndex G.toTarget page
    { s with
      currentTb := if fromGeneratedCode then s.currentTb else none
      table := fun mmuIdx i =>
        if mmuIdx < G.nbMmuModes ∧ mmuIndexesMask.testBit mmuIdx ∧ i = index then
          tlbFlushEntry G (s.table mmuIdx i) page
        else s.table mmuIdx i
      tbJmpCache := tlbFlushJmpCache G.toTarget s.tbJmpCache page }

def tlbFlushPage (s : TlbState) (addr : Nat) (fromGeneratedCode : Bool) : TlbState :=
  tlbFlushPageMasked G s addr (2 ^ 32 - 1) fromGeneratedCode

end Flushes

/-! ### Large pages -/

/-- The loop that widens the mask; `none` when it has not ended after so many turns. -/
def widenLoop (T : Target) (flushAddr vaddr : Nat) : Nat → Nat → Option Nat
  | 0, mask => if (flushAddr ^^^ vaddr) &&& mask ≠ 0 then none else some mask
  | fuel + 1, mask =>
    if (flushAddr ^^^ vaddr) &&& mask ≠ 0 then
      widenLoop T flushAddr vaddr fuel (T.toUlong (mask <<< 1))
    else some mask

def tlbAddLargePage (T : Target) (s : TlbState) (vaddr size : Nat) : Option TlbState :=
  let mask := 2 ^ T.longBits - 1 - (size - 1)
  if s.flushAddr = 2 ^ T.longBits - 1 then
    some { s with flushAddr := vaddr &&& mask, flushMask := mask }
  else
    (widenLoop T s.flushAddr vaddr T.longBits (mask &&& s.flushMask)).map fun mask =>
      { s with flushAddr := s.flushAddr &&& mask, flushMask := mask }

/-- `tlb_set_page` with the region that it widens. -/
def TlbState.setPage (T : Target) (M : MemoryMap) (s : TlbState)
    (vaddr paddr prot mmuIdx size : Nat) : Option TlbState :=
  let added := if max size T.pageSize ≠ T.pageSize then tlbAddLargePage T s vaddr size else some s
  added.map fun s => { s with table := tlbSetPage T M s.table vaddr paddr prot mmuIdx size }

/-! ### Runs -/

/-- The store of `tb_find_slow` into the jump cache. -/
def TlbState.cacheBlock (T : Target) (s : TlbState) (tb : TranslationBlock) : TlbState :=
  { s with tbJmpCache := Function.update s.tbJmpCache (tbJmpCacheHashFunc T tb.pc) (some tb) }

inductive TlbOp where
  | setPage (M : MemoryMap) (vaddr paddr prot mmuIdx size : Nat)
  | flush (fromGeneratedCode : Bool)
  | flushMasked (mmuIndexesMask : Nat)
  | flushPageMasked (addr mmuIndexesMask : Nat) (fromGeneratedCode : Bool)
  | flushPage (addr : Nat) (fromGeneratedCode : Bool)
  /-- The lookup of a block enters it into the jump cache. -/
  | cache (tb : TranslationBlock)

def TlbOp.apply (G : TlbTarget) (s : TlbState) : TlbOp → Option TlbState
  | .setPage M vaddr paddr prot mmuIdx size => s.setPage G.toTarget M vaddr paddr prot mmuIdx size
  | .flush fromGeneratedCode => some (tlbFlush G s fromGeneratedCode)
  | .flushMasked mmuIndexesMask => some (tlbFlushMasked G s mmuIndexesMask)
  | .flushPageMasked addr mmuIndexesMask fromGeneratedCode =>
    some (tlbFlushPageMasked G s addr mmuIndexesMask fromGeneratedCode)
  | .flushPage addr fromGeneratedCode => some (tlbFlushPage G s addr fromGeneratedCode)
  | .cache tb => some (s.cacheBlock G.toTarget tb)

structure LargePage where
  (vaddr size : Nat)

def LargePage.Contains (page : LargePage) (addr : Nat) : Prop :=
  addr / page.size = page.vaddr / page.size

def TlbOp.installed (G : TlbTarget) (s : TlbState) (large : List LargePage) : TlbOp → List LargePage
  | .setPage _ vaddr _ _ _ size => if size > G.pageSize then ⟨vaddr, size⟩ :: large else large
  | .flush _ => []
  | .flushMasked _ | .cache _ => large
  | .flushPageMasked addr _ _ | .flushPage addr _ => if s.inLargePage addr then [] else large

def runOps (G : TlbTarget) (run : TlbState × List LargePage) (ops : List TlbOp) :
    Option (TlbState × List LargePage) :=
  ops.foldlM (fun run op => (op.apply G run.1).map fun s => (s, op.installed G run.1 run.2)) run

def TlbOp.Valid (G : TlbTarget) : TlbOp → Prop
  | .setPage _ vaddr _ _ _ size =>
    vaddr < 2 ^ G.longBits ∧ ∃ k < G.longBits, size = 2 ^ k
  | _ => True

/-! ### What a flush should do -/

/-- The region is one aligned block that holds the large pages, if there are any. -/
def DescribesRegion (T : Target) (s : TlbState) (large : List LargePage) : Prop :=
  (large = [] ∧ s.flushAddr = 2 ^ T.longBits - 1 ∧ s.flushMask = 0) ∨
    ∃ k, T.pageBits < k ∧ k ≤ T.longBits ∧ s.flushMask = 2 ^ T.longBits - 2 ^ k ∧
      s.flushAddr < 2 ^ T.longBits ∧ 2 ^ k ∣ s.flushAddr ∧
      ∀ page ∈ large, ∀ addr < 2 ^ T.longBits, page.Contains addr → s.inLargePage addr = true

/-- No entry of a selected mode is left, and no block in the jump cache. -/
structure PageFlushed (G : TlbTarget) (large : List LargePage) (addr mmuIndexesMask : Nat)
    (s' : TlbState) : Prop where
  entries : ∀ mmuIdx < G.nbMmuModes, mmuIndexesMask.testBit mmuIdx → ∀ i access other,
    G.pageBase other = G.pageBase addr ∨ (∃ page ∈ large, page.Contains addr ∧ page.Contains other) →
      compared G.toTarget ((s'.table mmuIdx i).word access) ≠ G.pageBase other
  blocks : ∀ slot tb, s'.tbJmpCache slot = some tb →
    G.pageBase tb.pc ≠ G.pageBase addr ∧ G.pageBase tb.pc ≠ pageBefore G.toTarget (G.pageBase addr)

section Words

variable {T : Target} {addr other : Nat}

theorem and_pageMask (small : addr < 2 ^ T.longBits) : addr &&& pageMask T = T.pageBase addr :=
  and_highMask small T.pageBits_le

theorem TlbAddress.flags_lt (address : TlbAddress) : address.flags < 2 ^ 7 := by
  unfold TlbAddress.flags
  cases address.oneShot <;> cases address.notDirty <;> cases address.mmio <;>
    cases address.executableIo <;> decide

theorem pageBase_or_flags (address : TlbAddress) :
    T.pageBase (address.page ||| address.flags) = T.pageBase address.page := by
  have below : address.flags < 2 ^ T.pageBits :=
    address.flags_lt.trans_le (Nat.pow_le_pow_right (by decide) T.pageBits_ge)
  have none_ : address.flags >>> T.pageBits = 0 := by
    rw [shiftRight_eq_div_pow]
    exact div_eq_of_lt below
  unfold Target.pageBase Target.pageSize
  rw [← shiftRight_eq_div_pow, ← shiftRight_eq_div_pow, shiftRight_or_distrib, none_,
    or_zero]

theorem pageBase_of_compared {word : TlbAddress} (small : word.page < 2 ^ T.longBits)
    (same : compared T (some word) = T.pageBase addr) :
    T.pageBase word.page = T.pageBase addr := by
  have bits : wordBits T (some word) < 2 ^ T.longBits := by
    have room : (2 : Nat) ^ 7 ≤ 2 ^ T.longBits :=
      Nat.pow_le_pow_right (by decide) (T.pageBits_ge.trans T.pageBits_le)
    exact or_lt_two_pow small (word.flags_lt.trans_le room)
  have whole : T.pageBase addr < 2 ^ T.longBits := same ▸ and_le_left.trans_lt bits
  have absorbed : compared T (some word) &&& pageMask T =
      wordBits T (some word) &&& pageMask T := by
    unfold compared
    rw [Nat.and_assoc, and_or_distrib_right, Nat.and_self]
    congr 1
    apply eq_of_testBit_eq
    intro i
    rw [testBit_or, testBit_and]
    cases (pageMask T).testBit i <;> simp
  calc T.pageBase word.page = T.pageBase (wordBits T (some word)) := (pageBase_or_flags word).symm
    _ = compared T (some word) &&& pageMask T := by rw [absorbed, and_pageMask bits]
    _ = T.pageBase addr := by rw [same, and_pageMask whole, T.pageBase_pageBase]

theorem compared_none_ne : compared T none ≠ T.pageBase addr := by
  intro same
  have three : 3 < T.pageBits := Nat.lt_of_lt_of_le (by decide) T.pageBits_ge
  have set : (compared T none).testBit 3 = true := by
    unfold compared wordBits
    rw [testBit_and, testBit_two_pow_sub_one, testBit_or]
    simp only [tlbInvalidMask, testBit_two_pow_self, Bool.or_true, Bool.and_true,
      decide_eq_true_eq]
    exact three.trans_le T.pageBits_le
  have clear : (T.pageBase addr).testBit 3 = false := by
    unfold Target.pageBase Target.pageSize
    rw [← shiftLeft_eq, testBit_shiftLeft]
    simp only [ge_iff_le, Bool.and_eq_false_iff, decide_eq_false_iff_not]
    exact .inl (by omega)
  rw [same, clear] at set
  cases set

end Words

/-! ### The jump cache -/

section JumpCache

variable {T : Target} {pc other : Nat}

theorem testBit_of_page (same : T.pageBase pc = T.pageBase other) {i : Nat} (high : T.pageBits ≤ i) :
    pc.testBit i = other.testBit i := by
  have number : T.pageIndex pc = T.pageIndex other := by
    rw [← T.pageIndex_pageBase, same, T.pageIndex_pageBase]
  unfold Target.pageIndex Target.pageSize at number
  have bit := congrArg (testBit · (i - T.pageBits)) number
  simpa only [testBit_div_two_pow, Nat.sub_add_cancel high] using bit

theorem tbJmpCacheHashPage_of_page (same : T.pageBase pc = T.pageBase other) :
    tbJmpCacheHashPage T pc = tbJmpCacheHashPage T other := by
  have mask : 2 ^ 12 - 2 ^ 6 = 63 <<< 6 := by decide
  unfold tbJmpCacheHashPage
  rw [mask]
  apply eq_of_testBit_eq
  intro i
  rw [testBit_and, testBit_and, testBit_shiftLeft]
  by_cases high : 6 ≤ i
  · unfold tbJmpPageBits
    rw [testBit_shiftRight, testBit_shiftRight, testBit_xor, testBit_xor,
      testBit_shiftRight, testBit_shiftRight, testBit_of_page same (by omega),
      testBit_of_page same (by omega)]
  · simp [high]

theorem tbJmpCacheHashFunc_mem (T : Target) (pc : Nat) :
    tbJmpCacheHashPage T pc ≤ tbJmpCacheHashFunc T pc ∧
      tbJmpCacheHashFunc T pc < tbJmpCacheHashPage T pc + 2 ^ tbJmpPageBits := by
  have mask : 2 ^ 12 - 2 ^ 6 = 63 <<< 6 := by decide
  unfold tbJmpCacheHashFunc tbJmpCacheHashPage
  dsimp only
  generalize pc ^^^ (pc >>> (T.pageBits - tbJmpPageBits)) = tmp
  obtain ⟨high, eq⟩ : ∃ high, tmp >>> (T.pageBits - tbJmpPageBits) &&& (2 ^ 12 - 2 ^ 6) =
      2 ^ 6 * high := by
    refine ⟨tmp >>> (T.pageBits - tbJmpPageBits) >>> 6 &&& 63, ?_⟩
    rw [mask, Nat.mul_comm, ← shiftLeft_eq]
    apply eq_of_testBit_eq
    intro i
    rw [testBit_and, testBit_shiftLeft, testBit_shiftLeft, testBit_and,
      testBit_shiftRight _ (j := i - 6)]
    by_cases ge : 6 ≤ i
    · rw [Nat.add_sub_cancel' ge]
      simp [ge]
    · simp [ge]
  have low : tmp &&& (2 ^ 6 - 1) < 2 ^ 6 := by
    rw [and_two_pow_sub_one_eq_mod]
    exact mod_lt _ (by decide)
  rw [eq, ← two_pow_add_eq_or_of_lt low]
  unfold tbJmpPageBits
  omega

theorem tbJmpFlush_page {tbJmpCache : Nat → Option TranslationBlock} {addr slot : Nat}
    {tb : TranslationBlock} (own : slot = tbJmpCacheHashFunc T tb.pc)
    (left : tlbFlushJmpCache T tbJmpCache addr slot = some tb) :
    T.pageBase tb.pc ≠ T.pageBase addr ∧ T.pageBase tb.pc ≠ T.pageBase (pageBefore T addr) := by
  have inside := tbJmpCacheHashFunc_mem T tb.pc
  rw [← own] at inside
  unfold tlbFlushJmpCache clearSlots at left
  constructor
  · intro same
    rw [tbJmpCacheHashPage_of_page same] at inside
    rw [if_pos inside] at left
    cases left
  · intro same
    rw [tbJmpCacheHashPage_of_page same] at inside
    rw [if_pos inside, ite_self] at left
    cases left

end JumpCache

/-! ### The region of the large pages -/

section Region

variable {T : Target} {s s' : TlbState} {large : List LargePage} {vaddr size k : Nat}

theorem xor_and_highMask_eq_zero_iff {a b : Nat} (aSmall : a < 2 ^ T.longBits)
    (bSmall : b < 2 ^ T.longBits) (le : k ≤ T.longBits) :
    (a ^^^ b) &&& (2 ^ T.longBits - 2 ^ k) = 0 ↔ a / 2 ^ k = b / 2 ^ k := by
  rw [and_xor_distrib_right, xor_eq_zero_iff, and_highMask aSmall le, and_highMask bSmall le]
  exact Nat.mul_left_inj (Nat.two_pow_pos k).ne'

theorem widenLoop_ends {flushAddr fuel : Nat} (addrSmall : flushAddr < 2 ^ T.longBits)
    (vaddrSmall : vaddr < 2 ^ T.longBits) (le : k ≤ T.longBits) (enough : T.longBits ≤ k + fuel) :
    ∃ wide, k ≤ wide ∧ wide ≤ T.longBits ∧
      widenLoop T flushAddr vaddr fuel (2 ^ T.longBits - 2 ^ k) = some (2 ^ T.longBits - 2 ^ wide) ∧
      flushAddr / 2 ^ wide = vaddr / 2 ^ wide := by
  induction fuel generalizing k with
  | zero =>
    have whole : k = T.longBits := by omega
    subst whole
    refine ⟨T.longBits, Nat.le_refl _, Nat.le_refl _, ?_, ?_⟩
    · unfold widenLoop
      rw [Nat.sub_self, and_zero, if_neg (by simp)]
    · rw [div_eq_of_lt addrSmall, div_eq_of_lt vaddrSmall]
  | succ fuel ih =>
    unfold widenLoop
    by_cases agree : (flushAddr ^^^ vaddr) &&& (2 ^ T.longBits - 2 ^ k) = 0
    · rw [if_neg (not_not.mpr agree)]
      exact ⟨k, Nat.le_refl k, le, rfl,
        (xor_and_highMask_eq_zero_iff addrSmall vaddrSmall le).mp agree⟩
    · have less : k < T.longBits := by
        by_contra top
        obtain rfl : k = T.longBits := by omega
        rw [Nat.sub_self, and_zero] at agree
        exact agree rfl
      have shifted : T.toUlong ((2 ^ T.longBits - 2 ^ k) <<< 1) = 2 ^ T.longBits - 2 ^ (k + 1) := by
        have whole : 2 ^ (k + 1) ≤ 2 ^ T.longBits := Nat.pow_le_pow_right (by decide) less
        have pos := Nat.two_pow_pos (k + 1)
        have twice : (2 ^ T.longBits - 2 ^ k) <<< 1 =
            (2 ^ T.longBits - 2 ^ (k + 1)) + 2 ^ T.longBits := by
          omega
        unfold Target.toUlong
        rw [twice, add_mod_right]
        exact mod_eq_of_lt (by omega)
      rw [if_pos agree, shifted]
      obtain ⟨wide, more, rest⟩ := ih (k := k + 1) less (by omega)
      exact ⟨wide, by omega, rest⟩

theorem inLargePage_iff {addr : Nat} (small : addr < 2 ^ T.longBits) (le : k ≤ T.longBits)
    (mask : s.flushMask = 2 ^ T.longBits - 2 ^ k) (aligned : 2 ^ k ∣ s.flushAddr) :
    s.inLargePage addr = true ↔ addr / 2 ^ k = s.flushAddr / 2 ^ k := by
  unfold TlbState.inLargePage
  rw [decide_eq_true_eq, mask, and_highMask small le,
    eq_div_iff_mul_eq_left (Nat.two_pow_pos k).ne' aligned, eq_comm]

theorem div_two_pow_of_le {a b j : Nat} (le : j ≤ k) (same : a / 2 ^ j = b / 2 ^ j) :
    a / 2 ^ k = b / 2 ^ k := by
  obtain ⟨more, rfl⟩ := Nat.exists_eq_add_of_le le
  rw [Nat.pow_add, ← Nat.div_div_eq_div_mul, ← Nat.div_div_eq_div_mul, same]

theorem tlbAddLargePage_describes {j : Nat} (describes : DescribesRegion T s large)
    (small : vaddr < 2 ^ T.longBits) (less : j < T.longBits) (more : T.pageBits < j) :
    ∃ s', tlbAddLargePage T s vaddr (2 ^ j) = some s' ∧
      DescribesRegion T s' (⟨vaddr, 2 ^ j⟩ :: large) ∧
      s'.table = s.table ∧ s'.tbJmpCache = s.tbJmpCache := by
  have own : 2 ^ T.longBits - 1 - (2 ^ j - 1) = 2 ^ T.longBits - 2 ^ j := by
    have := Nat.two_pow_pos j
    omega
  unfold tlbAddLargePage
  rw [own]
  obtain ⟨rfl, unset, -⟩ | ⟨k, kMore, kLe, mask, addrSmall, aligned, covers⟩ := describes
  · rw [if_pos unset, and_highMask small less.le]
    refine ⟨_, rfl, .inr ⟨j, more, less.le, rfl, ?_, Nat.dvd_mul_left _ _, ?_⟩, rfl, rfl⟩
    · exact (div_mul_le_self _ _).trans_lt small
    · intro page member addr addrSmall contains
      obtain rfl := mem_singleton.mp member
      unfold TlbState.inLargePage
      rw [decide_eq_true_eq, and_highMask addrSmall less.le, contains]
  · have set : s.flushAddr ≠ 2 ^ T.longBits - 1 := by
      have two : 2 ∣ 2 ^ k := dvd_pow_self 2 (by omega)
      have half : 2 ∣ 2 ^ T.longBits := dvd_pow_self 2 (by omega)
      have := two.trans aligned
      omega
    have both : (2 ^ T.longBits - 2 ^ j) &&& s.flushMask = 2 ^ T.longBits - 2 ^ max j k := by
      rw [mask]
      exact highMask_and_highMask less.le kLe
    rw [if_neg set, both]
    obtain ⟨wide, wider, wideLe, ends, agree⟩ :=
      @widenLoop_ends T vaddr (max j k) _ T.longBits addrSmall small (by omega) (by omega)
    have start : s.flushAddr &&& (2 ^ T.longBits - 2 ^ wide) =
        s.flushAddr / 2 ^ wide * 2 ^ wide := and_highMask addrSmall wideLe
    rw [ends]
    refine ⟨_, rfl, .inr ⟨wide, by omega, wideLe, rfl, ?_, ?_, ?_⟩, rfl, rfl⟩
    · exact and_le_left.trans_lt addrSmall
    · dsimp only
      rw [start]
      exact Nat.dvd_mul_left _ _
    · intro page member addr below contains
      unfold TlbState.inLargePage
      dsimp only
      rw [decide_eq_true_eq, and_highMask below wideLe, start]
      congr 1
      obtain rfl | earlier := mem_cons.mp member
      · rw [agree]
        exact div_two_pow_of_le (by omega) contains
      · have before := (inLargePage_iff below kLe mask aligned).mp
          (covers page earlier addr below contains)
        exact div_two_pow_of_le (by omega) before

end Region

/-! ### One call -/

section Calls

variable {G : TlbTarget} {s s' : TlbState} {large : List LargePage} {mmuIdx i addr : Nat}
  {access : AccessType} {word : TlbAddress}

/-- The region is kept, and entries and cached blocks lie where they are looked for. -/
structure Tracked (G : TlbTarget) (s : TlbState) (large : List LargePage) : Prop where
  region : DescribesRegion G.toTarget s large
  own : ∀ mmuIdx < G.nbMmuModes, ∀ i access word, (s.table mmuIdx i).word access = some word →
    word.page < 2 ^ G.longBits ∧ tlbIndex G.toTarget word.page = i
  cached : ∀ slot tb, s.tbJmpCache slot = some tb → slot = tbJmpCacheHashFunc G.toTarget tb.pc

@[simp] theorem emptied_word (entry : CPUTLBEntry) (access : AccessType) :
    entry.emptied.word access = none := by
  cases access <;> rfl

theorem word_of_tlbFlushEntry {entry : CPUTLBEntry}
    (left : (tlbFlushEntry G entry addr).word access = some word) :
    entry.word access = some word := by
  unfold tlbFlushEntry at left
  split at left
  · rw [emptied_word] at left
    cases left
  · exact left

theorem tlbFlushEntry_compared (entry : CPUTLBEntry) (page : Nat) :
    compared G.toTarget ((tlbFlushEntry G entry (G.pageBase page)).word access) ≠
      G.pageBase page := by
  unfold tlbFlushEntry
  split
  next =>
    rw [emptied_word]
    exact compared_none_ne
  next other =>
    rw [not_or, not_or] at other
    cases access with
    | dataLoad => exact Ne.symm other.1
    | dataStore => exact Ne.symm other.2.1
    | instFetch => exact Ne.symm other.2.2

theorem word_of_tlbFlush {fromGeneratedCode : Bool}
    (left : ((tlbFlush G s fromGeneratedCode).table mmuIdx i).word access = some word) :
    (s.table mmuIdx i).word access = some word := by
  unfold tlbFlush at left
  dsimp only at left
  split at left
  · rw [emptied_word] at left
    cases left
  · exact left

theorem word_of_tlbFlushMasked {mmuIndexesMask : Nat}
    (left : ((tlbFlushMasked G s mmuIndexesMask).table mmuIdx i).word access = some word) :
    (s.table mmuIdx i).word access = some word := by
  unfold tlbFlushMasked at left
  dsimp only at left
  split at left
  · rw [emptied_word] at left
    cases left
  · exact left

theorem word_of_tlbFlushPageMasked {mmuIndexesMask : Nat} {fromGeneratedCode : Bool}
    (left : ((tlbFlushPageMasked G s addr mmuIndexesMask fromGeneratedCode).table mmuIdx i).word
      access = some word) : (s.table mmuIdx i).word access = some word := by
  unfold tlbFlushPageMasked at left
  split at left
  · exact word_of_tlbFlush left
  · dsimp only at left
    split at left
    · exact word_of_tlbFlushEntry left
    · exact left

theorem cached_of_tlbFlushPageMasked {mmuIndexesMask slot : Nat} {fromGeneratedCode : Bool}
    {tb : TranslationBlock}
    (left : (tlbFlushPageMasked G s addr mmuIndexesMask fromGeneratedCode).tbJmpCache slot =
      some tb) : s.tbJmpCache slot = some tb := by
  unfold tlbFlushPageMasked at left
  split at left
  · cases left
  · dsimp only [tlbFlushJmpCache, clearSlots] at left
    split at left
    · cases left
    · split at left
      · cases left
      · exact left

theorem tracked_tlbFlush (G : TlbTarget) (s : TlbState) (fromGeneratedCode : Bool) :
    Tracked G (tlbFlush G s fromGeneratedCode) [] where
  region := .inl ⟨rfl, rfl, rfl⟩
  own := by
    intro mmuIdx mode i access word left
    unfold tlbFlush at left
    dsimp only at left
    rw [if_pos mode, emptied_word] at left
    cases left
  cached := by
    intro slot tb left
    cases left

section

variable (tracked : Tracked G s large)

include tracked

theorem Tracked.flushPageMasked (addr mmuIndexesMask : Nat)
    (fromGeneratedCode : Bool) :
    Tracked G (tlbFlushPageMasked G s addr mmuIndexesMask fromGeneratedCode)
      (if s.inLargePage addr then [] else large) := by
  by_cases inside : s.inLargePage addr = true
  · unfold tlbFlushPageMasked
    rw [if_pos inside, if_pos inside]
    exact tracked_tlbFlush G s false
  · have kept : DescribesRegion G.toTarget
        (tlbFlushPageMasked G s addr mmuIndexesMask fromGeneratedCode) large := by
      unfold tlbFlushPageMasked
      rw [if_neg inside]
      exact tracked.region
    rw [if_neg inside]
    exact ⟨kept, fun mode less i access word left =>
        tracked.own mode less i access word (word_of_tlbFlushPageMasked left),
      fun slot tb left => tracked.cached slot tb (cached_of_tlbFlushPageMasked left)⟩

theorem Tracked.flushMasked (mmuIndexesMask : Nat) :
    Tracked G (tlbFlushMasked G s mmuIndexesMask) large where
  region := tracked.region
  own := fun mode less i access word left =>
    tracked.own mode less i access word (word_of_tlbFlushMasked left)
  cached := fun slot tb left => by cases left

theorem Tracked.cache (tb : TranslationBlock) : Tracked G (s.cacheBlock G.toTarget tb) large where
  region := tracked.region
  own := tracked.own
  cached := by
    intro slot other found
    dsimp only [TlbState.cacheBlock] at found
    by_cases here : slot = tbJmpCacheHashFunc G.toTarget tb.pc
    · rw [here, Function.update_self] at found
      cases found
      exact here
    · rw [Function.update_of_ne here] at found
      exact tracked.cached slot other found

theorem Tracked.setTable (M : MemoryMap) {vaddr : Nat}
    (small : vaddr < 2 ^ G.longBits) (paddr prot mode size : Nat) :
    Tracked G { s with table := tlbSetPage G.toTarget M s.table vaddr paddr prot mode size }
      large where
  region := tracked.region
  own := by
    intro mmuIdx less i access word found
    dsimp only [tlbSetPage] at found
    by_cases sameMode : mmuIdx = mode
    · subst sameMode
      rw [Function.update_self] at found
      by_cases here : i = tlbIndex G.toTarget vaddr
      · rw [here, Function.update_self] at found
        rw [tlbEntry_page found]
        exact ⟨small, here.symm⟩
      · rw [Function.update_of_ne here] at found
        exact tracked.own mmuIdx less i access word found
    · rw [Function.update_of_ne sameMode] at found
      exact tracked.own mmuIdx less i access word found
  cached := tracked.cached

end

theorem TlbOp.step (op : TlbOp) (valid : op.Valid G) (tracked : Tracked G s large) :
    ∃ s', op.apply G s = some s' ∧ Tracked G s' (op.installed G s large) := by
  cases op with
  | setPage M vaddr paddr prot mode size =>
    obtain ⟨small, k, less, rfl⟩ := valid
    have pages : G.pageSize = 2 ^ G.pageBits := rfl
    unfold TlbOp.apply TlbState.setPage TlbOp.installed
    dsimp only
    by_cases more : 2 ^ k > G.pageSize
    · have exponent : G.pageBits < k :=
        (Nat.pow_lt_pow_iff_right (a := 2) (by decide)).mp (pages ▸ more)
      obtain ⟨s', added, region, table, cache⟩ :=
        tlbAddLargePage_describes tracked.region small less exponent
      have widened : Tracked G s' (⟨vaddr, 2 ^ k⟩ :: large) :=
        ⟨region, table ▸ tracked.own, cache ▸ tracked.cached⟩
      rw [if_pos (by omega), if_pos more, added]
      exact ⟨_, rfl, widened.setTable M small paddr prot mode (2 ^ k)⟩
    · rw [if_neg (by omega), if_neg more]
      exact ⟨_, rfl, tracked.setTable M small paddr prot mode (2 ^ k)⟩
  | flush fromGeneratedCode => exact ⟨_, rfl, tracked_tlbFlush G s fromGeneratedCode⟩
  | flushMasked mmuIndexesMask => exact ⟨_, rfl, tracked.flushMasked mmuIndexesMask⟩
  | flushPageMasked addr mmuIndexesMask fromGeneratedCode =>
    exact ⟨_, rfl, tracked.flushPageMasked addr mmuIndexesMask fromGeneratedCode⟩
  | flushPage addr fromGeneratedCode =>
    exact ⟨_, rfl, tracked.flushPageMasked addr (2 ^ 32 - 1) fromGeneratedCode⟩
  | cache tb => exact ⟨_, rfl, tracked.cache tb⟩

theorem runOps_tracked (ops : List TlbOp) (valid : ∀ op ∈ ops, op.Valid G)
    (tracked : Tracked G s large) :
    ∃ s' large', runOps G (s, large) ops = some (s', large') ∧ Tracked G s' large' := by
  induction ops generalizing s large with
  | nil => exact ⟨s, large, rfl, tracked⟩
  | cons op rest ih =>
    obtain ⟨next, applied, kept⟩ := op.step (valid op mem_cons_self) tracked
    obtain ⟨s', large', ran, left⟩ :=
      ih (fun op member => valid op (mem_cons_of_mem _ member)) kept
    refine ⟨s', large', ?_, left⟩
    unfold runOps at ran ⊢
    rw [foldlM_cons, applied]
    exact ran

end Calls

/-! ### The flush of a page -/

section PageFlush

variable {G : TlbTarget} {s : TlbState} {large : List LargePage} {addr : Nat}

theorem pageBase_pageBefore (T : Target) (addr : Nat) :
    T.pageBase (pageBefore T (T.pageBase addr)) = pageBefore T (T.pageBase addr) := by
  have room : T.pageSize ∣ 2 ^ T.longBits := Nat.pow_dvd_pow 2 T.pageBits_le
  have aligned : T.pageSize ∣ pageBefore T (T.pageBase addr) :=
    (dvd_mod_iff room).mpr (Nat.dvd_sub
      (Nat.dvd_add (Nat.dvd_mul_left _ _) room) (Nat.dvd_refl _))
  exact Nat.div_mul_cancel aligned

theorem tlbFlushPageMasked_flushed (tracked : Tracked G s large) (small : addr < 2 ^ G.longBits)
    (mmuIndexesMask : Nat) (fromGeneratedCode : Bool) :
    PageFlushed G large addr mmuIndexesMask
      (tlbFlushPageMasked G s addr mmuIndexesMask fromGeneratedCode) := by
  by_cases inside : s.inLargePage addr = true
  · have all : tlbFlushPageMasked G s addr mmuIndexesMask fromGeneratedCode =
        tlbFlush G s false := if_pos inside
    rw [all]
    refine ⟨fun mmuIdx less _ i access other _ => ?_, fun slot tb left => by cases left⟩
    unfold tlbFlush
    dsimp only
    rw [if_pos less, emptied_word]
    exact compared_none_ne
  · have outside : ¬∃ page ∈ large, page.Contains addr := by
      rintro ⟨page, member, contains⟩
      obtain ⟨rfl, -⟩ | ⟨k, -, -, -, -, -, covers⟩ := tracked.region
      · cases member
      · exact inside (covers page member addr small contains)
    have kept := tracked.flushPageMasked addr mmuIndexesMask fromGeneratedCode
    refine ⟨fun mmuIdx less selected i access other same => ?_, fun slot tb left => ?_⟩
    · obtain same | ⟨page, member, contains, -⟩ := same
      · rw [same]
        by_cases here : i = tlbIndex G.toTarget addr
        · unfold tlbFlushPageMasked
          rw [if_neg inside]
          dsimp only
          rw [and_pageMask small, tlbIndex_pageBase, if_pos ⟨less, selected, here⟩]
          exact tlbFlushEntry_compared _ addr
        · intro found
          cases at_ : ((tlbFlushPageMasked G s addr mmuIndexesMask fromGeneratedCode).table
              mmuIdx i).word access with
          | none =>
            rw [at_] at found
            exact compared_none_ne found
          | some word =>
            rw [at_] at found
            obtain ⟨wordSmall, index⟩ := kept.own mmuIdx less i access word at_
            exact here (index.symm.trans
              (tlbIndex_of_page (pageBase_of_compared wordSmall found)))
      · exact absurd ⟨page, member, contains⟩ outside
    · have own := tracked.cached slot tb (cached_of_tlbFlushPageMasked left)
      unfold tlbFlushPageMasked at left
      rw [if_neg inside] at left
      rw [and_pageMask small] at left
      have cleared := tbJmpFlush_page own left
      rw [G.pageBase_pageBase, pageBase_pageBefore] at cleared
      exact cleared

/-- Whatever was called since some full flush: the calls end, the region describes the large
pages, and a page flush leaves nothing of the page or of a large page that contains it. -/
theorem pageFlush_complete (G : TlbTarget) (s : TlbState) (ops : List TlbOp)
    (valid : ∀ op ∈ ops, op.Valid G) :
    ∃ s' large, runOps G (tlbFlush G s false, []) ops = some (s', large) ∧
      DescribesRegion G.toTarget s' large ∧
      ∀ addr < 2 ^ G.longBits, ∀ mmuIndexesMask fromGeneratedCode,
        PageFlushed G large addr mmuIndexesMask
          (tlbFlushPageMasked G s' addr mmuIndexesMask fromGeneratedCode) := by
  obtain ⟨s', large, ran, tracked⟩ := runOps_tracked ops valid (tracked_tlbFlush G s false)
  exact ⟨s', large, ran, tracked.region, fun addr small mmuIndexesMask fromGeneratedCode =>
    tlbFlushPageMasked_flushed tracked small mmuIndexesMask fromGeneratedCode⟩

end PageFlush

/-! ### A megapage -/

def pagedTarget : TlbTarget where
  pageBits := 12
  longBits := 32
  physAddrBits := 32
  pageBits_ge := Target.pages4K_ge
  pageBits_le := Target.pages4K_le
  nbMmuModes := 4
  nbMmuModes_le := by decide

def noMemory : MemoryMap where
  physPageFind := fun _ => none
  checkExternalPermissions := fun _ => true
  getRamPtr := fun _ => 0
  isIoAccessed := fun _ => false

def emptyTlbState : TlbState where
  table := fun _ _ => ⟨none, none, none, 2 ^ 64 - 1, 0⟩
  flushAddr := 2 ^ 32 - 1
  flushMask := 0
  tbJmpCache := fun _ => none
  currentTb := none

def megapage : List TlbOp := [.setPage noMemory 0x401000 0x801000 7 0 (2 ^ 22)]

theorem megapage_flushed :
    ∃ s' large, runOps pagedTarget (tlbFlush pagedTarget emptyTlbState false, []) megapage =
        some (s', large) ∧
      DescribesRegion pagedTarget.toTarget s' large ∧
      ∀ addr < 2 ^ pagedTarget.longBits, ∀ mmuIndexesMask fromGeneratedCode,
        PageFlushed pagedTarget large addr mmuIndexesMask
          (tlbFlushPageMasked pagedTarget s' addr mmuIndexesMask fromGeneratedCode) :=
  pageFlush_complete pagedTarget emptyTlbState megapage (by
    intro op member
    obtain rfl := mem_singleton.mp member
    exact ⟨by decide, 22, by decide, rfl⟩)

end Tlib.Softmmu
