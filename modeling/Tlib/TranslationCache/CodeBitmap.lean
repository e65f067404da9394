import Mathlib.Data.BitVec
import Tlib.TranslationCache.RangeInvalidation

/-!
Contract: the code bitmap of a page and the blocks on its list.

Owns: the bits that `set_bits` and `build_page_bitmap` set, and that they cover every block of the
list in any run.
-/

namespace Tlib.TranslationCache

open Tlib.Library.Linked Function
open BitVec hiding or_assoc
open Bool hiding or_assoc
open Option hiding or_assoc

/-! ### Bits -/

def bitAt (tab : Nat → BitVec 8) (o : Nat) : Bool := (tab (o / 8)).getLsbD (o % 8)

section Bits

variable {tab : Nat → BitVec 8} {o : Nat}

theorem ones_getLsbD {i : Nat} (inByte : i < 8) : (0xff : BitVec 8).getLsbD i = true := by
  have all : ∀ j < 8, (0xff : BitVec 8).getLsbD j = true := by decide
  exact all i inByte

theorem highBits_getLsbD (low : Nat) {i : Nat} (inByte : i < 8) :
    ((0xff : BitVec 8) <<< low).getLsbD i = decide (low ≤ i) := by
  rw [getLsbD_shiftLeft, ones_getLsbD (by omega : i - low < 8), decide_eq_true inByte,
    Bool.true_and, Bool.and_true, Bool.eq_iff_iff]
  simp

theorem lowBits_getLsbD (high : Nat) {i : Nat} (inByte : i < 8) :
    (~~~((0xff : BitVec 8) <<< high)).getLsbD i = decide (i < high) := by
  rw [getLsbD_not, highBits_getLsbD high inByte, decide_eq_true inByte, Bool.true_and,
    Bool.eq_iff_iff]
  simp

theorem bitAt_update (byte : Nat) (mask : BitVec 8) :
    bitAt (update tab byte (tab byte ||| mask)) o =
      (bitAt tab o || (decide (o / 8 = byte) && mask.getLsbD (o % 8))) := by
  unfold bitAt
  by_cases isByte : o / 8 = byte
  · rw [isByte, update_self, getLsbD_or]
    simp
  · rw [update_of_ne isByte]
    simp [isByte]

theorem bitAt_fillBytes (byte count : Nat) : bitAt (fillBytes tab byte count) o =
      (bitAt tab o || decide (byte ≤ o / 8 ∧ o / 8 < byte + count)) := by
  have inByte : o % 8 < 8 := Nat.mod_lt _ (by decide)
  induction count generalizing tab byte with
  | zero => rw [fillBytes, decide_eq_false (by omega), Bool.or_false]
  | succ count ih =>
    rw [fillBytes, ih]
    have first : bitAt (update tab byte 0xff) o = (bitAt tab o || decide (o / 8 = byte)) := by
      unfold bitAt
      by_cases isByte : o / 8 = byte
      · rw [isByte, update_self, ones_getLsbD inByte, decide_eq_true rfl, Bool.or_true]
      · rw [update_of_ne isByte, decide_eq_false isByte, Bool.or_false]
    rw [first, Bool.or_assoc]
    congr 1
    rw [Bool.eq_iff_iff]
    simp only [or_eq_true, decide_eq_true_eq]
    omega

theorem bitAt_setBits (tab : Nat → BitVec 8) (start len o : Nat) :
    bitAt (setBits tab start len) o = (bitAt tab o || decide (start ≤ o ∧ o < start + len)) := by
  have inByte : o % 8 < 8 := Nat.mod_lt _ (by decide)
  unfold setBits
  dsimp only
  split_ifs with sameByte nonempty rest
  · rw [bitAt_update, getLsbD_and, highBits_getLsbD _ inByte, lowBits_getLsbD _ inByte]
    congr 1
    rw [Bool.eq_iff_iff]
    simp only [and_eq_true, decide_eq_true_eq]
    omega
  · rw [decide_eq_false (by omega), Bool.or_false]
  · rw [bitAt_update, lowBits_getLsbD _ inByte, bitAt_fillBytes, bitAt_update,
      highBits_getLsbD _ inByte, Bool.or_assoc, Bool.or_assoc]
    congr 1
    rw [Bool.eq_iff_iff]
    simp only [or_eq_true, and_eq_true, decide_eq_true_eq]
    omega
  · rw [bitAt_fillBytes, bitAt_update, highBits_getLsbD _ inByte, Bool.or_assoc]
    congr 1
    rw [Bool.eq_iff_iff]
    simp only [or_eq_true, and_eq_true, decide_eq_true_eq]
    omega

end Bits

/-! ### The bytes that are touched -/

abbrev PartialTable := Nat → Option (BitVec 8)

def PartialTable.modify (tab : PartialTable) (byte : Nat) (f : BitVec 8 → BitVec 8) :
    Option PartialTable :=
  (tab byte).map fun old => update tab byte (some (f old))

def PartialTable.fillBytes (tab : PartialTable) (byte : Nat) : Nat → Option PartialTable
  | 0 => some tab
  | count + 1 => do
    let tab ← tab.modify byte fun _ => 0xff
    fillBytes tab (byte + 1) count

/-- `set_bits`, every access of which has to find its byte. -/
def PartialTable.setBits (tab : PartialTable) (start len : Nat) : Option PartialTable :=
  let stop := start + len
  let mask := (0xff : BitVec 8) <<< (start % 8)
  if start / 8 = stop / 8 then
    if start < stop then
      let mask := mask &&& ~~~((0xff : BitVec 8) <<< (stop % 8))
      tab.modify (start / 8) (· ||| mask)
    else some tab
  else do
    let tab ← tab.modify (start / 8) (· ||| mask)
    let tab ← tab.fillBytes (start / 8 + 1) (stop / 8 - (start / 8 + 1))
    if stop / 8 * 8 < stop then
      let mask := ~~~((0xff : BitVec 8) <<< (stop % 8))
      tab.modify (stop / 8) (· ||| mask)
    else some tab

def onlyBytes (p : Nat → Bool) (tab : Nat → BitVec 8) : PartialTable := fun byte =>
  if p byte then some (tab byte) else none

section Touched

variable {p : Nat → Bool} {tab : Nat → BitVec 8}

theorem onlyBytes_modify {byte : Nat} (f : BitVec 8 → BitVec 8) (here : p byte = true) :
    (onlyBytes p tab).modify byte f = some (onlyBytes p (update tab byte (f (tab byte)))) := by
  have found : onlyBytes p tab byte = some (tab byte) := if_pos here
  rw [PartialTable.modify, found, map_some]
  congr 1
  funext other
  by_cases same : other = byte
  · rw [same, update_self, onlyBytes, if_pos here, update_self]
  · rw [update_of_ne same, onlyBytes, onlyBytes, update_of_ne same]

theorem onlyBytes_fillBytes (byte count : Nat)
    (here : ∀ other, byte ≤ other → other < byte + count → p other = true) :
    (onlyBytes p tab).fillBytes byte count = some (onlyBytes p (fillBytes tab byte count)) := by
  induction count generalizing tab byte with
  | zero => rfl
  | succ count ih =>
    rw [PartialTable.fillBytes, onlyBytes_modify _ (here byte le_rfl (by omega))]
    exact ih (byte + 1) fun other le less => here other (by omega) (by omega)

theorem onlyBytes_setBits (start len : Nat)
    (here : ∀ o, start ≤ o → o < start + len → p (o / 8) = true) :
    (onlyBytes p tab).setBits start len = some (onlyBytes p (setBits tab start len)) := by
  unfold PartialTable.setBits setBits
  by_cases sameByte : start / 8 = (start + len) / 8
  · rw [if_pos sameByte, if_pos sameByte]
    by_cases nonempty : start < start + len
    · rw [if_pos nonempty, if_pos nonempty]
      exact onlyBytes_modify _ (here start le_rfl nonempty)
    · rw [if_neg nonempty, if_neg nonempty]
  · rw [if_neg sameByte, if_neg sameByte, onlyBytes_modify _ (here start le_rfl (by omega))]
    have whole : ∀ byte, start / 8 + 1 ≤ byte →
        byte < start / 8 + 1 + ((start + len) / 8 - (start / 8 + 1)) → p byte = true := by
      intro byte low high
      have first := here (8 * byte) (by omega) (by omega)
      rwa [Nat.mul_div_cancel_left byte (by decide)] at first
    rw [bind_eq_bind, bind_some, onlyBytes_fillBytes _ _ whole, bind_some]
    by_cases rest : (start + len) / 8 * 8 < start + len
    · rw [if_pos rest, if_pos rest]
      have last := here ((start + len) / 8 * 8) (by omega) rest
      rw [Nat.mul_div_cancel _ (by decide)] at last
      exact onlyBytes_modify _ last
    · rw [if_neg rest, if_neg rest]

/-- `set_bits` finds all its bytes wherever the bytes of the range exist, sets the bits of the
range and leaves every other bit as it was. -/
theorem partialTable_setBits (p : Nat → Bool) (tab : Nat → BitVec 8) (start len : Nat)
    (here : ∀ o, start ≤ o → o < start + len → p (o / 8) = true) :
    ∃ tab', (onlyBytes p tab).setBits start len = some (onlyBytes p tab') ∧
      ∀ o, bitAt tab' o = (bitAt tab o || decide (start ≤ o ∧ o < start + len)) :=
  ⟨setBits tab start len, onlyBytes_setBits start len here, bitAt_setBits tab start len⟩

/-- The last sixteen bits of a table of two bytes. -/
theorem partialTable_setBits_whole : (∀ o, 3 ≤ o → o < 3 + 13 → decide (o / 8 < 2) = true) ∧
    ∃ tab', (onlyBytes (fun byte => decide (byte < 2)) fun _ => 0).setBits 3 13 =
        some (onlyBytes (fun byte => decide (byte < 2)) tab') ∧
      ∀ o, bitAt tab' o = (bitAt (fun _ => 0) o || decide (3 ≤ o ∧ o < 3 + 13)) :=
  have here : ∀ o, 3 ≤ o → o < 3 + 13 → decide (o / 8 < 2) = true := fun o _ less =>
    decide_eq_true (by omega)
  ⟨here, partialTable_setBits _ _ 3 13 here⟩

end Touched

/-! ### The bitmap of a list -/

def TranslationBlock.EntryCovers (T : Target) (tb : TranslationBlock) (n : Fin 2) (o : Nat) : Prop :=
  if n = 0 then T.pageOffset tb.pc ≤ o ∧ o < T.pageOffset tb.pc + tb.size
  else o < T.pageOffset (T.toUlong (tb.pc + tb.size))

def State.OnPage (s : State) (p : Nat) (entry : Slot) : Prop :=
  Reaches pageRoots.toThreading s.page (.firstTb p) entry

/-- The bits of every bitmap are those of the bytes that are covered by entries of its page. -/
structure BitmapsAgree (T : Target) (s : State) : Prop where
  leaf : ∀ p bits, s.codeBitmap p = some bits → s.leafAllocated (leafOf p) = true
  agree : ∀ p bits, s.codeBitmap p = some bits → ∀ o < T.pageSize,
    (bitAt bits o = true ↔ ∃ entry, s.OnPage p entry ∧ (s.tbs entry.1).EntryCovers T entry.2 o)

structure BitmapsKept (s s' : State) : Prop where
  leaf : ∀ i, s.leafAllocated i = true → s'.leafAllocated i = true
  bitmap : ∀ p bits, s'.codeBitmap p = some bits → s.codeBitmap p = some bits
  list : ∀ p, s'.codeBitmap p ≠ none → ∀ entry, s'.OnPage p entry ↔ s.OnPage p entry
  record : ∀ p, s'.codeBitmap p ≠ none → ∀ entry, s.OnPage p entry →
    (s'.tbs entry.1).pc = (s.tbs entry.1).pc ∧ (s'.tbs entry.1).size = (s.tbs entry.1).size

section Agree

variable {T : Target} {s s' : State} {σ : Shape}

theorem Represents.onPage_iff (rep : Represents T s σ) (p : Nat) (entry : Slot) :
    s.OnPage p entry ↔ entry ∈ σ.pageList p :=
  (rep.pages.family.segment p trivial).reaches_iff (fun a => pageRoots.ptr_ne_stop a p) entry

theorem TranslationBlock.entryCovers_congr {tb tb' : TranslationBlock}
    (same : tb'.pc = tb.pc ∧ tb'.size = tb.size) (n : Fin 2) (o : Nat) :
    tb'.EntryCovers T n o ↔ tb.EntryCovers T n o := by
  unfold EntryCovers
  rw [same.1, same.2]

theorem BitmapsKept.agree (kept : BitmapsKept s s') (agree : BitmapsAgree T s) :
    BitmapsAgree T s' := by
  refine ⟨fun p bits here => kept.leaf _ (agree.leaf p bits (kept.bitmap p bits here)), ?_⟩
  intro p bits here o inPage
  have notNone : s'.codeBitmap p ≠ none := by
    rw [here]
    exact some_ne_none bits
  rw [agree.agree p bits (kept.bitmap p bits here) o inPage]
  refine exists_congr fun entry => ?_
  rw [kept.list p notNone]
  exact and_congr_right fun onPage =>
    (TranslationBlock.entryCovers_congr (kept.record p notNone entry onPage) _ o).symm

theorem BitmapsKept.of_same (page : s'.page = s.page) (bitmap : s'.codeBitmap = s.codeBitmap)
    (leaf : s'.leafAllocated = s.leafAllocated) (tbs : s'.tbs = s.tbs) : BitmapsKept s s' := by
  constructor
  · intro i
    rw [leaf]
    exact id
  · intro p bits here
    rwa [bitmap] at here
  · intro p _ entry
    rw [State.OnPage, page]
    rfl
  · intro p _ entry _
    rw [tbs]
    exact ⟨rfl, rfl⟩

theorem markCode_bitAt {cell : PageCell} {l : List Slot} {fuel : Nat} {tab marked : Nat → BitVec 8}
    (segment : Segment pageRoots.toThreading s.page cell l none)
    (walked : markCode T s fuel tab (s.page cell) = some marked) {o : Nat} (inPage : o < T.pageSize) :
    bitAt marked o = true ↔
      bitAt tab o = true ∨ ∃ entry ∈ l, (s.tbs entry.1).EntryCovers T entry.2 o := by
  induction l generalizing cell fuel tab with
  | nil =>
    rw [segment] at walked
    cases fuel with
    | zero => cases walked
    | succ fuel =>
      rw [markCode, some.injEq] at walked
      rw [walked]
      simp
  | cons entry rest ih =>
    obtain ⟨tb, n⟩ := entry
    obtain ⟨first, tail⟩ := segment
    rw [show s.page cell = some (tb, n) from first] at walked
    cases fuel with
    | zero => cases walked
    | succ fuel =>
      rw [ih tail walked, bitAt_setBits, or_eq_true, decide_eq_true_eq,
        List.exists_mem_cons_iff, or_assoc]
      refine or_congr_right (or_congr_left ?_)
      unfold TranslationBlock.EntryCovers
      dsimp only
      split_ifs <;> omega

theorem buildPageBitmap_agree (rep : Represents T s σ) (agree : BitmapsAgree T s) {p : Nat}
    (leaf : s.leafAllocated (leafOf p) = true) (built : buildPageBitmap T s p = some s') :
    BitmapsAgree T s' := by
  unfold buildPageBitmap at built
  rw [map_eq_some_iff] at built
  obtain ⟨marked, walked, rfl⟩ := built
  constructor
  · intro q bits here
    by_cases isP : q = p
    · rw [isP]
      exact leaf
    · dsimp only at here
      rw [update_of_ne isP] at here
      exact agree.leaf q bits here
  · intro q bits here o inPage
    by_cases isP : q = p
    · dsimp only at here
      rw [isP, update_self, some.injEq] at here
      rw [isP, ← here, markCode_bitAt (rep.pages.family.segment p trivial) walked inPage]
      have clear : bitAt (fun _ => 0) o = false := getLsbD_zero
      rw [clear, or_iff_right Bool.false_ne_true]
      exact exists_congr fun entry => and_congr_left' (rep.onPage_iff p entry).symm
    · dsimp only at here
      rw [update_of_ne isP] at here
      exact agree.agree q bits here o inPage

/-! ### Invalidations -/

variable {tb : TbId}

theorem removeFromPage_bitmap {pageAddr : Address}
    (removed : removeFromPage T s tb pageAddr = some s') :
    s'.codeBitmap = update s.codeBitmap (T.pageIndex pageAddr) none := by
  simp only [removeFromPage, bind_eq_bind, bind_eq_some_iff] at removed
  obtain ⟨p, found, page, -, equal⟩ := removed
  unfold pageFind at found
  split_ifs at found
  cases found
  cases equal
  rfl

theorem removeFromPages_bitmap (removed : removeFromPages T s tb none = some s')
    {p : Nat} {bits : Nat → BitVec 8} (here : s'.codeBitmap p = some bits) :
    s.codeBitmap p = some bits ∧ ∀ n, (s.tbs tb).pageOf T n ≠ some p := by
  have cleared : ∀ {s₁ s₂ : State} {pageAddr : Address},
      removeFromPage T s₁ tb pageAddr = some s₂ → s₂.codeBitmap p = some bits →
      s₁.codeBitmap p = some bits ∧ T.pageIndex pageAddr ≠ p := by
    intro s₁ s₂ pageAddr removed here
    rw [removeFromPage_bitmap removed] at here
    by_cases isP : p = T.pageIndex pageAddr
    · rw [isP, update_self] at here
      cases here
    · rw [update_of_ne isP] at here
      exact ⟨here, fun same => isP same.symm⟩
  rw [removeFromPages, if_neg (by simp), bind_eq_bind, bind_eq_some_iff] at removed
  obtain ⟨s₁, first, rest⟩ := removed
  cases second : (s.tbs tb).pageAddr1 with
  | none =>
    rw [second] at rest
    cases rest
    obtain ⟨before, apart⟩ := cleared first here
    refine ⟨before, fun n home => ?_⟩
    unfold TranslationBlock.pageOf at home
    split_ifs at home
    · exact apart (some.inj home)
    · rw [second] at home
      cases home
  | some pageAddr1 =>
    rw [second] at rest
    obtain ⟨between, apart₁⟩ := cleared rest here
    obtain ⟨before, apart₀⟩ := cleared first between
    refine ⟨before, fun n home => ?_⟩
    unfold TranslationBlock.pageOf at home
    split_ifs at home
    · exact apart₀ (some.inj home)
    · rw [second] at home
      exact apart₁ (some.inj home)

theorem tbPhysInvalidate_kept (rep : Represents T s σ)
    (done : tbPhysInvalidate T s tb none = some s') : BitmapsKept s s' := by
  by_cases member : tb ∈ σ.bucket ((s.tbs tb).hashIndex T)
  · obtain ⟨s₁, done₁, rep₁, effect⟩ := tbPhysInvalidate_of_mem rep member
    rw [done, some.injEq] at done₁
    rw [← done₁] at rep₁ effect
    have bitmap : ∀ p bits, s'.codeBitmap p = some bits →
        s.codeBitmap p = some bits ∧ ∀ n, (s.tbs tb).pageOf T n ≠ some p := by
      intro p bits here
      obtain ⟨hash, removedHash, -⟩ := tbRemove_of_mem rep.buckets member
        (Nat.lt_succ_of_le (rep.bucket_length_le ((s.tbs tb).hashIndex T)))
      rw [tbPhysInvalidate, removedHash] at done
      simp only [bind_eq_bind, bind_some, if_true, bind_eq_some_iff] at done
      obtain ⟨s₂, removed, ⟨jump, jmpTarget⟩, -, equal⟩ := done
      obtain ⟨jmpCache, same, -⟩ := tbJmpCacheRemove_same T { s₂ with tbInvalidatedFlag := true } tb
      rw [same] at equal
      cases equal
      exact removeFromPages_bitmap removed here
    constructor
    · intro i
      rw [effect.same.leafAllocated]
      exact id
    · exact fun p bits here => (bitmap p bits here).1
    · intro p notNone entry
      obtain ⟨bits, here⟩ := ne_none_iff_exists'.mp notNone
      rw [rep₁.onPage_iff, rep.onPage_iff]
      show entry ∈ withoutTb tb (σ.pageList p) ↔ _
      rw [mem_withoutTb]
      refine and_iff_left_of_imp fun onPage isTb => (bitmap p bits here).2 entry.2 ?_
      rw [← isTb]
      exact rep.pages.home p entry onPage
    · intro p _ entry _
      rw [effect.same.tbs]
      exact ⟨rfl, rfl⟩
  · rw [tbPhysInvalidate_of_absent rep member, some.injEq] at done
    rw [← done]
    exact BitmapsKept.of_same rfl rfl rfl rfl

theorem invalidateAll_agree (rep : Represents T s σ) (agree : BitmapsAgree T s) {l : List TbId}
    (done : invalidateAll T s l = some s') : BitmapsAgree T s' := by
  induction l generalizing s σ with
  | nil =>
    rw [invalidateAll, some.injEq] at done
    rwa [← done]
  | cons tb rest ih =>
    obtain ⟨s₁, σ₁, first, effect⟩ := tbPhysInvalidate_after rep tb
    rw [invalidateAll, first, bind_some] at done
    exact ih effect.rep ((tbPhysInvalidate_kept rep first).agree agree) done

/-! ### New blocks -/

theorem takeTb_kept (rep : Represents T s σ) (pc : Address) : BitmapsKept s (takeTb s pc) := by
  obtain ⟨rep', -⟩ := takeTb_represents rep pc
  constructor
  · exact fun _ allocated => allocated
  · exact fun _ _ here => here
  · intro p _ entry
    rw [rep'.onPage_iff, rep.onPage_iff]
  · intro p _ entry onPage
    have below := rep.lt_of_live ⟨p, entry.2, (rep.onPage_iff p entry).mp onPage⟩
    have same : (takeTb s pc).tbs entry.1 = s.tbs entry.1 :=
      update_of_ne (Nat.ne_of_lt below) _ s.tbs
    rw [same]
    exact ⟨rfl, rfl⟩

theorem tbFlush_agree (agree : BitmapsAgree T s) (codeBuffer : CodeBuffer) :
    BitmapsAgree T { tbFlush s with codeBuffer := codeBuffer } := by
  have nothing : ∀ p bits, (tbFlush s).codeBitmap p ≠ some bits := by
    intro p bits here
    change (if s.leafAllocated (leafOf p) then none else s.codeBitmap p) = some bits at here
    split_ifs at here with leaf
    exact leaf (agree.leaf p bits here)
  exact ⟨fun p bits here => (nothing p bits here).elim, fun p bits here => (nothing p bits here).elim⟩

theorem allocOrFlush_agree (rep : Represents T s σ) (agree : BitmapsAgree T s) {pc : Address}
    {expanded : CodeBuffer} (done : allocOrFlush s pc expanded = some (s', tb)) :
    BitmapsAgree T s' := by
  unfold allocOrFlush tbAlloc at done
  cases full : s.full with
  | false =>
    rw [full, if_neg Bool.false_ne_true, some.injEq, Prod.mk.injEq] at done
    rw [← done.1]
    exact (takeTb_kept rep pc).agree agree
  | true =>
    rw [full, if_pos rfl, CodeBuffer.room s expanded, if_neg Bool.false_ne_true] at done
    simp only [bind_eq_bind, bind_some, some.injEq, Prod.mk.injEq] at done
    rw [← done.1]
    have taken := (takeTb_kept (tbFlush_represents rep expanded) pc).agree
      (tbFlush_agree agree expanded)
    exact ⟨taken.leaf, taken.agree⟩

theorem setTb_kept (rep : Represents T s σ) (dead : ¬σ.Live tb)
    (block : TranslationBlock) : BitmapsKept s (s.setTb tb block) := by
  constructor
  · exact fun _ allocated => allocated
  · exact fun _ _ here => here
  · exact fun _ _ _ => Iff.rfl
  · intro p _ entry onPage
    rw [s.setTb_of_ne block]
    · exact ⟨rfl, rfl⟩
    · intro isTb
      rw [rep.onPage_iff] at onPage
      exact dead ⟨p, entry.2, by rwa [← isTb]⟩

theorem tbAllocPage_bitmap {n : Fin 2} {pageAddr : Address} {p : Nat}
    {bits : Nat → BitVec 8} (here : (tbAllocPage T s tb n pageAddr).codeBitmap p = some bits) :
    s.codeBitmap p = some bits ∧ p ≠ T.pageIndex (clearExecutableIo pageAddr) := by
  change update s.codeBitmap (T.pageIndex (clearExecutableIo pageAddr)) none p = _ at here
  by_cases isP : p = T.pageIndex (clearExecutableIo pageAddr)
  · rw [isP, update_self] at here
    cases here
  · rw [update_of_ne isP] at here
    exact ⟨here, isP⟩

theorem tbAllocPage_leaf {n : Fin 2} {pageAddr : Address} {i : Nat}
    (allocated : s.leafAllocated i = true) :
    (tbAllocPage T s tb n pageAddr).leafAllocated i = true := by
  change update s.leafAllocated (leafOf (T.pageIndex (clearExecutableIo pageAddr))) true i = _
  by_cases isLeaf : i = leafOf (T.pageIndex (clearExecutableIo pageAddr))
  · rw [isLeaf, update_self]
  · rwa [update_of_ne isLeaf]

theorem tbLinkPage_kept (rep : Represents T s σ) (fresh : Fresh s σ tb)
    (physPage1 : Address) (physPage2 : Option Address) :
    BitmapsKept s (tbLinkPage T s tb physPage1 physPage2) := by
  obtain ⟨rep', -⟩ := tbLinkPage_represents rep fresh physPage1 physPage2
  have bitmap : ∀ p bits, (tbLinkPage T s tb physPage1 physPage2).codeBitmap p = some bits →
      s.codeBitmap p = some bits ∧ p ≠ T.pageIndex (clearExecutableIo physPage1) ∧
      (physPage2.map fun page => T.pageIndex (clearExecutableIo page)) ≠ some p := by
    intro p bits here
    cases physPage2 with
    | none =>
      obtain ⟨before, apart⟩ := tbAllocPage_bitmap (T := T) (n := 0) here
      exact ⟨before, apart, fun same => by cases same⟩
    | some page =>
      obtain ⟨between, apart₁⟩ := tbAllocPage_bitmap (T := T) (n := 1) here
      obtain ⟨before, apart₀⟩ := tbAllocPage_bitmap between
      exact ⟨before, apart₀, fun same => apart₁ (some.inj same).symm⟩
  constructor
  · intro i allocated
    have first := @tbAllocPage_leaf T s tb 0 physPage1 i allocated
    cases physPage2 with
    | none => exact first
    | some page => exact @tbAllocPage_leaf T _ tb 1 page i first
  · exact fun p bits here => (bitmap p bits here).1
  · intro p notNone entry
    obtain ⟨bits, here⟩ := ne_none_iff_exists'.mp notNone
    obtain ⟨-, notFirst, notSecond⟩ := bitmap p bits here
    rw [rep'.onPage_iff, rep.onPage_iff]
    change entry ∈ linkPages tb _ _ σ.pageList p ↔ _
    rw [mem_linkPages]
    exact or_iff_left fun isNew => isNew.elim (fun isFirst => notFirst isFirst.2)
      fun isSecond => notSecond isSecond.2
  · intro p _ entry onPage
    rw [tbLinkPage_tbs, update_of_ne]
    · exact ⟨rfl, rfl⟩
    · intro isTb
      rw [rep.onPage_iff] at onPage
      exact fresh.dead rep ⟨p, entry.2, by rwa [← isTb]⟩

theorem tbGenCode_agree (rep : Represents T s σ) (agree : BitmapsAgree T s) {pages : PageMap}
    {pc csBase flags : Nat} {gen : Generation}
    (done : tbGenCode T s pages pc csBase flags gen = some (s', tb)) : BitmapsAgree T s' := by
  obtain ⟨s₁, σ₁, before, effect₁⟩ := invalidateAll_after rep gen.beforeAlloc
  have agree₁ := invalidateAll_agree rep agree before
  obtain ⟨s₂, tb₂, allocated, rep₂, fresh₂, -⟩ := allocOrFlush_eq effect₁.rep pc gen.expanded
  have agree₂ := allocOrFlush_agree effect₁.rep agree₁ allocated
  have dead₂ := fresh₂.dead rep₂
  have rep₃ := rep₂.setTb dead₂ { s₂.tbs tb₂ with csBase := csBase, flags := flags }
  have agree₃ :=
    (setTb_kept rep₂ dead₂ { s₂.tbs tb₂ with csBase := csBase, flags := flags }).agree agree₂
  obtain ⟨s₄, σ₄, during, effect₄⟩ := invalidateAll_after rep₃ gen.duringTranslation
  have agree₄ := invalidateAll_agree rep₃ agree₃ during
  have fresh₄ : Fresh s₄ σ₄ tb₂ := by
    constructor
    · rw [effect₄.same.nbTbs]
      exact fresh₂.allocated
    · rw [effect₄.linked]
      exact fresh₂.unlinked
    · rw [effect₄.hashNext tb₂ (fresh₂.notMem_bucket rep₂)]
      exact fresh₂.nextNull
  have dead₄ := fresh₄.dead effect₄.rep
  have rep₅ := effect₄.rep.setTb dead₄ { s₄.tbs tb₂ with
    size := gen.size, icount := gen.icount, wasCut := gen.wasCut, tbNextOffset := gen.tbNextOffset }
  have rep₆ : Represents T (finishTranslation s₄ tb₂ gen) σ₄ :=
    ⟨rep₅.buckets, rep₅.bucketHome, rep₅.bucketLive, rep₅.pages, rep₅.graph, rep₅.liveLinked,
      rep₅.unpatched⟩
  have agree₅ := (setTb_kept effect₄.rep dead₄ { s₄.tbs tb₂ with
    size := gen.size, icount := gen.icount, wasCut := gen.wasCut
    tbNextOffset := gen.tbNextOffset }).agree agree₄
  have agree₆ : BitmapsAgree T (finishTranslation s₄ tb₂ gen) := ⟨agree₅.leaf, agree₅.agree⟩
  have linked := tbLinkPage_kept rep₆ ⟨fresh₄.allocated, fresh₄.unlinked, fresh₄.nextNull⟩
    (getPageAddrCode T pages pc) (secondPage T pages pc gen.size)
  simp only [tbGenCode, before, allocated, during, bind_eq_bind, bind_some,
    some.injEq, Prod.mk.injEq] at done
  rw [← done.1]
  exact linked.agree agree₆

/-! ### Steps -/

theorem BitmapsAgree.clearFlag (agree : BitmapsAgree T s) : BitmapsAgree T s.clearFlag :=
  ⟨agree.leaf, agree.agree⟩

theorem BitmapsAgree.returnFound (agree : BitmapsAgree T s) (req : FindRequest) (ptb1 : HashCell)
    (prevRelatedTb : Option TbId) (tb : TbId) :
    BitmapsAgree T (returnFound T s req ptb1 prevRelatedTb tb) :=
  ⟨agree.leaf, agree.agree⟩

theorem generateFound_agree (rep : Represents T s σ) (agree : BitmapsAgree T s) {req : FindRequest}
    {ptb1 : HashCell} {prevRelatedTb : Option TbId}
    (done : generateFound T s req ptb1 prevRelatedTb = some (s', tb)) : BitmapsAgree T s' := by
  unfold generateFound at done
  rw [bind_eq_bind, bind_eq_some_iff] at done
  obtain ⟨⟨s₁, tb₁⟩, generated, rest⟩ := done
  have agree₁ := tbGenCode_agree rep agree generated
  dsimp only at rest
  split_ifs at rest <;> cases rest <;> exact agree₁.returnFound req _ _ _

theorem tbFindSlow_agree (rep : Represents T s σ) (agree : BitmapsAgree T s) {req : FindRequest}
    (done : tbFindSlow T s req = some (s', tb)) : BitmapsAgree T s' := by
  unfold tbFindSlow at done
  split_ifs at done
  · exact generateFound_agree rep.clearFlag agree.clearFlag done
  · rw [bind_eq_bind, bind_eq_some_iff] at done
    obtain ⟨⟨ptb1, prevRelatedTb, found⟩, -, rest⟩ := done
    cases found with
    | some tb₁ =>
      cases rest
      exact agree.clearFlag.returnFound req _ _ _
    | none => exact generateFound_agree rep.clearFlag agree.clearFlag rest

theorem Step.bitmapsAgree {event : Event} (step : Step T s event s') (rep : Represents T s σ)
    (agree : BitmapsAgree T s) : BitmapsAgree T s' := by
  cases step with
  | findSlow req done => exact tbFindSlow_agree rep agree done
  | link pages pc csBase flags gen done => exact tbGenCode_agree rep agree done
  | insert pages pc csBase flags gen done =>
    simp only [tbGenAndInsert, tbPhysHashInsert, bind_eq_bind, bind_eq_some_iff,
      map_eq_some_iff] at done
    obtain ⟨⟨s₁, tb⟩, generated, s₂, ⟨hash, -, rfl⟩, equal⟩ := done
    cases equal
    have agree₁ := tbGenCode_agree rep agree generated
    exact ⟨agree₁.leaf, agree₁.agree⟩
  | addJump tb n tbNext source target =>
    obtain ⟨jump, jmpTarget, same⟩ := tbAddJump_same s tb n tbNext
    rw [same]
    exact ⟨agree.leaf, agree.agree⟩
  | invalidate tb done => exact (tbPhysInvalidate_kept rep done).agree agree
  | flush => exact tbFlush_agree agree s.codeBuffer
  | markDirty tb =>
    refine BitmapsKept.agree (s := s) ⟨fun _ allocated => allocated, fun _ _ here => here,
      fun _ _ _ => Iff.rfl, fun p _ entry _ => ?_⟩ agree
    by_cases isTb : entry.1 = tb
    · rw [isTb, s.setTb_self]
      exact ⟨rfl, rfl⟩
    · rw [s.setTb_of_ne _ isTb]
      exact ⟨rfl, rfl⟩
  | forget tbJmpCache _ => exact ⟨agree.leaf, agree.agree⟩

/-! ### Ranges -/

theorem invalidateEntries_agree (start stop : Address) {fuel : Nat} {cell : Option Slot}
    (rep : Represents T s σ) (agree : BitmapsAgree T s)
    (walked : invalidateEntries T start stop fuel s cell = some s') : BitmapsAgree T s' := by
  induction fuel generalizing s σ cell with
  | zero => cases walked
  | succ fuel ih =>
    cases cell with
    | none =>
      rw [invalidateEntries, some.injEq] at walked
      rwa [← walked]
    | some entry =>
      obtain ⟨tb, n⟩ := entry
      rw [invalidateEntries] at walked
      split_ifs at walked
      · obtain ⟨s₁, σ₁, first, effect⟩ := tbPhysInvalidate_after rep tb
        rw [first, bind_some] at walked
        exact ih effect.rep ((tbPhysInvalidate_kept rep first).agree agree) walked
      · exact ih rep agree walked

theorem invalidatePageBitmap_kept (s : State) (p : Nat) :
    BitmapsKept s (invalidatePageBitmap s p) := by
  refine ⟨fun _ allocated => allocated, fun q bits here => ?_, fun _ _ _ => Iff.rfl,
    fun _ _ _ _ => ⟨rfl, rfl⟩⟩
  change update s.codeBitmap p none q = some bits at here
  by_cases isP : q = p
  · rw [isP, update_self] at here
    cases here
  · rwa [update_of_ne isP] at here

variable {isCpuWriteAccess : Bool}

theorem countWrite_agree (rep : Represents T s σ) (agree : BitmapsAgree T s) {p : Nat}
    (leaf : s.leafAllocated (leafOf p) = true)
    (counted : countWrite T s p isCpuWriteAccess = some s') : BitmapsAgree T s' := by
  have counts := rep.afterBitmaps s.codeBitmap
    (update s.codeWriteCount p (s.codeWriteCount p + 1))
  unfold countWrite at counted
  dsimp only at counted
  split_ifs at counted
  · cases counted
    exact agree
  · exact buildPageBitmap_agree counts.rep ⟨agree.leaf, agree.agree⟩ leaf counted
  · cases counted
    exact ⟨agree.leaf, agree.agree⟩

theorem tbInvalidatePhysPageRangeInner_agree {start stop : Address}
    (rep : Represents T s σ) (agree : BitmapsAgree T s)
    (done : tbInvalidatePhysPageRangeInner T s start stop isCpuWriteAccess = some s') :
    BitmapsAgree T s' := by
  unfold tbInvalidatePhysPageRangeInner pageFind at done
  split_ifs at done with apart leaf
  · simp only [bind_eq_bind, bind_eq_some_iff, some.injEq] at done
    obtain ⟨s₁, counted, s₂, walked, equal⟩ := done
    obtain ⟨s₁', counted', samePage, effect⟩ := countWrite_after rep (T.pageIndex start)
      isCpuWriteAccess
    rw [counted, some.injEq] at counted'
    rw [← counted'] at effect
    have agree₂ := invalidateEntries_agree start stop effect.rep
      (countWrite_agree rep agree leaf counted) walked
    split_ifs at equal
    · rw [← equal]
      exact (invalidatePageBitmap_kept s₂ _).agree agree₂
    · rwa [← equal]
  · cases done
    exact agree

theorem tbInvalidatePhysPageRangeInner_after {start stop : Address}
    (rep : Represents T s σ)
    (done : tbInvalidatePhysPageRangeInner T s start stop isCpuWriteAccess = some s') :
    ∃ σ' l, AfterInvalidations T s σ l s' σ' := by
  have onePage : T.pageIndex start = T.pageIndex (stop - 1) := by
    by_contra apart
    have aborts : start / T.pageSize ≠ (stop - 1) / T.pageSize := apart
    rw [tbInvalidatePhysPageRangeInner, if_pos aborts] at done
    cases done
  obtain ⟨s₁, σ₁, l, done₁, effect, -⟩ := tbInvalidatePhysPageRangeInner_eq rep onePage isCpuWriteAccess
  rw [done, some.injEq] at done₁
  rw [done₁]
  exact ⟨σ₁, l, effect⟩

/-! ### The bytes of the bits -/

/-- A block of the guest's address space that ends before its second page does. -/
structure TranslationBlock.OnTwoPages (T : Target) (tb : TranslationBlock) : Prop where
  generated : IsGenerated T tb
  pc_lt : tb.pc < 2 ^ T.longBits
  ends : T.pageOffset tb.pc + tb.size < 2 * T.pageSize

theorem Target.pageBase_add_of_lt (T : Target) {pc k : Nat} (pc_lt : pc < 2 ^ T.longBits)
    (inPage : T.pageOffset pc + k < T.pageSize) : T.pageBase (T.toUlong (pc + k)) = T.pageBase pc := by
  obtain ⟨pages, whole⟩ : T.pageSize ∣ 2 ^ T.longBits := Nat.pow_dvd_pow 2 T.pageBits_le
  have split := T.pageBase_add_pageOffset pc
  have inside : T.pageBase pc + T.pageSize ≤ 2 ^ T.longBits := by
    have less : pc / T.pageSize < pages := Nat.div_lt_of_lt_mul (by rwa [← whole])
    calc T.pageBase pc + T.pageSize = (pc / T.pageSize + 1) * T.pageSize := by
          rw [Nat.add_mul, Nat.one_mul, Target.pageBase]
      _ ≤ pages * T.pageSize := Nat.mul_le_mul_right _ less
      _ = 2 ^ T.longBits := by rw [whole, Nat.mul_comm]
  have sum : pc + k = T.pageBase pc + (T.pageOffset pc + k) := by omega
  rw [Target.toUlong, Nat.mod_eq_of_lt (by omega), sum,
    T.pageBase_add (T.pageBase_pageBase pc) inPage]

theorem IsGenerated.crosses {tb : TranslationBlock} (isGenerated : IsGenerated T tb)
    (pc_lt : tb.pc < 2 ^ T.longBits) {page : Address} (second : tb.pageAddr1 = some page) :
    T.pageSize < T.pageOffset tb.pc + tb.size := by
  obtain ⟨pages, pc, csBase, flags, gen, dirtyFlag, record⟩ := isGenerated
  rw [record] at second pc_lt ⊢
  change secondPage T pages pc gen.size = some page at second
  change T.pageSize < T.pageOffset pc + gen.size
  unfold secondPage at second
  dsimp only at second
  split_ifs at second with crossing
  obtain ⟨positive, apart⟩ := crossing
  by_contra short
  refine apart ?_
  rw [Nat.add_sub_assoc positive]
  have inPage : T.pageOffset pc + (gen.size - 1) < T.pageSize := by
    omega
  exact (T.pageBase_add_of_lt pc_lt inPage).symm

theorem TranslationBlock.OnTwoPages.entryCovers_iff {tb : TranslationBlock} (block : tb.OnTwoPages T)
    {p o : Nat} (inPage : o < T.pageSize) :
    (∃ n, tb.pageOf T n = some p ∧ tb.EntryCovers T n o) ↔ tb.Contains T (p * T.pageSize + o) := by
  have aligned := block.generated.pagesAligned
  have ends := block.ends
  have small := T.pageOffset_lt tb.pc
  have ofPage : T.pageBase (p * T.pageSize) = p * T.pageSize := by
    rw [Target.pageBase, Nat.mul_div_cancel _ T.pageSize_pos]
  constructor
  · rintro ⟨n, home, covers⟩
    unfold TranslationBlock.pageOf at home
    unfold TranslationBlock.EntryCovers at covers
    unfold TranslationBlock.Contains TranslationBlock.byteAt
    split_ifs at home covers with isFirst
    · have base : tb.pageAddr0 = p * T.pageSize := by
        rw [← aligned.first, Target.pageBase, ← some.inj home]
        rfl
      refine ⟨o - T.pageOffset tb.pc, by omega, ?_⟩
      rw [Nat.add_sub_cancel' covers.1, if_pos inPage, base]
    · obtain ⟨page, isPage, rfl⟩ := map_eq_some_iff.mp home
      have crosses := block.generated.crosses block.pc_lt isPage
      rw [T.pageOffset_toUlong, T.pageOffset_crossing (Nat.le_of_lt crosses) ends] at covers
      refine ⟨T.pageSize + o - T.pageOffset tb.pc, by omega, ?_⟩
      rw [if_neg (by omega), isPage, map_some]
      have base : T.pageIndex page * T.pageSize = page := aligned.second page isPage
      rw [base]
      congr 2
      omega
  · rintro ⟨i, below, isByte⟩
    unfold TranslationBlock.byteAt at isByte
    dsimp only at isByte
    split_ifs at isByte with first
    · rw [some.injEq] at isByte
      have home : T.pageIndex tb.pageAddr0 = p := by
        rw [← T.pageIndex_add aligned.first first, isByte, T.pageIndex_add ofPage inPage]
        exact Nat.mul_div_cancel _ T.pageSize_pos
      have offset : T.pageOffset tb.pc + i = o := by
        rw [← T.pageOffset_add aligned.first first, isByte, T.pageOffset_add ofPage inPage]
      refine ⟨0, congrArg some home, ?_, ?_⟩
      · omega
      · omega
    · obtain ⟨page, isPage, isByte⟩ := map_eq_some_iff.mp isByte
      have inside : T.pageOffset tb.pc + i - T.pageSize < T.pageSize := by omega
      have home : T.pageIndex page = p := by
        rw [← T.pageIndex_add (aligned.second page isPage) inside, isByte,
          T.pageIndex_add ofPage inPage]
        exact Nat.mul_div_cancel _ T.pageSize_pos
      have offset : T.pageOffset tb.pc + i - T.pageSize = o := by
        rw [← T.pageOffset_add (aligned.second page isPage) inside, isByte,
          T.pageOffset_add ofPage inPage]
      refine ⟨1, ?_, ?_⟩
      · rw [TranslationBlock.pageOf, isPage]
        exact congrArg some home
      · show o < T.pageOffset (T.toUlong (tb.pc + tb.size))
        rw [T.pageOffset_toUlong, T.pageOffset_crossing (by omega) ends]
        omega

end Agree

end Tlib.TranslationCache
