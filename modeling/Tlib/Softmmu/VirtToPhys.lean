import Tlib.Softmmu.FillResults
import Tlib.Softmmu.TlbFlush

/-!
Contract: physical addresses of virtual ones, through the TLB.

Owns: `virt_to_phys`, with its search of the TLB of every mode. Does not own: the translation of
the architecture and of the external MMU, and the filling of the TLB.
-/

namespace Tlib.Softmmu

open Tlib.TranslationCache List Nat

/-- What a translation depends on, in every mode. -/
structure MmuModes where
  base : FillContext
  nbMmuModes : Nat
  archIn : Nat → Nat → AccessType → Option ArchTranslation
  /-- `cpu_mmu_index` -/
  current : Nat
  current_lt : current < nbMmuModes

/-- What a call comes to; a fault leaves it through `longjmp`. -/
inductive PhysAnswer where
  | value (value : Nat)
  | fault
deriving DecidableEq, Repr

namespace MmuModes

variable (X : MmuModes)

abbrev target : Target := X.base.target

def fillsIn (mode : Nat) (nofault : Bool) : FillContext :=
  { X.base with arch := X.archIn mode, mmuIdx := mode, noPageFault := nofault }

/-! ### The code -/

/-- `(word & TARGET_PAGE_MASK) == masked_virtual` -/
def isFor (virtual : Nat) (word : Option TlbAddress) : Bool :=
  wordBits X.target word &&& pageMask X.target = X.target.pageBase virtual

def entryAt (s : FillState) (mode virtual : Nat) : CPUTLBEntry :=
  s.tlb mode (tlbIndex X.target virtual)

def probe (s : FillState) (virtual mode : Nat) : Bool :=
  X.isFor virtual (X.entryAt s mode virtual).addrWrite ||
    X.isFor virtual (X.entryAt s mode virtual).addrRead ||
    X.isFor virtual (X.entryAt s mode virtual).addrCode

/-- `found_idx` after the search; `none` stands for `-1`. -/
def foundIdx (s : FillState) (virtual : Nat) : Option Nat :=
  if X.probe s virtual X.current then some X.current
  else (range X.nbMmuModes).find? fun idx => idx != X.current && X.probe s virtual idx

def physicalOf (entry : CPUTLBEntry) (virtual : Nat) : Nat :=
  let physical := X.target.toUlong (X.target.toPhysAddr (X.target.pageBase virtual + entry.iotlb))
  X.target.pageBase physical + X.target.pageOffset virtual

/-- `-1` as a `target_ulong` -/
def minusOne : Nat := 2 ^ X.target.longBits - 1

/-- What a call comes to when the fill fails. -/
def unfilled (nofault : Bool) : PhysAnswer := if nofault then .value X.minusOne else .fault

def virtToPhys (s : FillState) (virtual : Nat) (access : AccessType) (nofault : Bool) :
    PhysAnswer × FillState :=
  match X.foundIdx s virtual with
  | some mode => (.value (X.physicalOf (X.entryAt s mode virtual) virtual), s)
  | none =>
    match (X.fillsIn X.current nofault).tlbFill s (X.target.pageBase virtual) access with
    | (s, false) => (X.unfilled nofault, s)
    | (s, true) =>
      let entry := X.entryAt s X.current virtual
      if X.isFor virtual (entry.word access) then
        (.value (X.physicalOf entry virtual), s)
      else (.value X.minusOne, s)

/-! ### What the TLB holds -/

def Holds (s : FillState) (virtual mode : Nat) : Prop :=
  ∃ kind, Grants X.target s.tlb mode virtual kind

def Maps (mmu : ExternalMmu) (mode virtual paddr prot : Nat) : Prop :=
  ∃ v kind nofault, X.target.pageBase v = X.target.pageBase virtual ∧
    (X.fillsIn mode nofault).lastPage mmu v kind = some (paddr, prot)

def EnteredFor (s : FillState) (virtual mode paddr : Nat) : Prop :=
  ∃ prot size, X.Maps s.mmu mode virtual paddr prot ∧
    X.entryAt s mode virtual = tlbEntry X.target X.base.memory (X.target.pageBase virtual)
      (X.target.pageBase paddr) prot size

def Consistent (s : FillState) : Prop :=
  ∀ mode < X.nbMmuModes, ∀ i, (∀ kind, (s.tlb mode i).word kind = none) ∨
    ∃ virtual < 2 ^ X.target.longBits, tlbIndex X.target virtual = i ∧
      ∃ paddr, X.EnteredFor s virtual mode paddr

/-! ### Independence of the history -/

/-- What the current mode's translation gives for an access, or `-1`. -/
def expected (mmu : ExternalMmu) (virtual : Nat) (access : AccessType) (nofault : Bool) :
    PhysAnswer :=
  match (X.fillsIn X.current nofault).lastPage mmu virtual access with
  | none => X.unfilled nofault
  | some (paddr, prot) =>
    if permits prot access then .value (X.target.pageBase paddr + X.target.pageOffset virtual)
    else .value X.minusOne

/-- The address is translated as the current mode does, and no empty entry is a hit. -/
structure Right (s : FillState) (virtual : Nat) (access : AccessType) (nofault : Bool) : Prop where
  answer : (X.virtToPhys s virtual access nofault).1 = X.expected s.mmu virtual access nofault
  noEmptyHit : ∀ mode, X.foundIdx s virtual = some mode → X.Holds s virtual mode

/-- Two states of the TLB make no difference, and the answer is right. -/
def Independent (s t : FillState) (virtual : Nat) (access : AccessType) (nofault : Bool) : Prop :=
  (X.virtToPhys s virtual access nofault).1 = (X.virtToPhys t virtual access nofault).1 ∧
    X.Right s virtual access nofault ∧ X.Right t virtual access nofault

/-! ### What the code does -/

def pageIn (virtual paddr : Nat) : Nat :=
  X.target.pageBase (X.target.toUlong (X.target.toPhysAddr (X.target.pageBase virtual +
    (tlbEntry X.target X.base.memory (X.target.pageBase virtual) (X.target.pageBase paddr) 0
      X.target.pageSize).iotlb)))

def addressIn (virtual paddr : Nat) : Nat := X.pageIn virtual paddr + X.target.pageOffset virtual

/-- The mode that answers for a page: the current one, or else the first that holds it. -/
structure Holder (s : FillState) (virtual mode : Nat) : Prop where
  lt : mode < X.nbMmuModes
  holds : X.Holds s virtual mode
  first : mode = X.current ∨
    ¬ X.Holds s virtual X.current ∧ ∀ other < mode, ¬ X.Holds s virtual other

def pageAnswer (mmu : ExternalMmu) (virtual : Nat) (access : AccessType) (nofault : Bool) :
    PhysAnswer :=
  match (X.fillsIn X.current nofault).lastPage mmu (X.target.pageBase virtual) access with
  | none => X.unfilled nofault
  | some (paddr, prot) =>
    if permits prot access then .value (X.addressIn virtual paddr) else .value X.minusOne

def OnePage (mmu : ExternalMmu) (virtual mode : Nat) : Prop :=
  ∀ paddr prot paddr' prot', X.Maps mmu mode virtual paddr prot →
    X.Maps mmu mode virtual paddr' prot' → X.target.pageBase paddr = X.target.pageBase paddr'

/-- The history of the TLB shows only in the mode that holds the page. -/
structure ThroughHolder (s t : FillState) (virtual : Nat) (access : AccessType)
    (nofault : Bool) : Prop where
  found : ∀ mode, X.foundIdx s virtual = some mode ↔ X.Holder s virtual mode
  held : ∀ mode, X.Holder s virtual mode → ∃ paddr prot, X.Maps s.mmu mode virtual paddr prot ∧
    (X.virtToPhys s virtual access nofault).1 = .value (X.addressIn virtual paddr)
  anew : (∀ mode, ¬ X.Holder s virtual mode) →
    (X.virtToPhys s virtual access nofault).1 = X.pageAnswer s.mmu virtual access nofault
  alike : (∀ mode, X.Holder s virtual mode ↔ X.Holder t virtual mode) →
    (∀ mode, X.Holder s virtual mode → X.OnePage s.mmu virtual mode) →
    (X.virtToPhys s virtual access nofault).1 = (X.virtToPhys t virtual access nofault).1

variable {X} {s t : FillState} {virtual mode : Nat} {access : AccessType} {nofault : Bool}

/-! ### Words -/

theorem isFor_none (X : MmuModes) (virtual : Nat) :
    X.isFor virtual none = true ↔ X.target.pageBase virtual = pageMask X.target := by
  have positive := Nat.two_pow_pos X.target.pageBits
  have whole := Nat.two_pow_pos X.target.longBits
  have below : pageMask X.target < 2 ^ X.target.longBits := by
    unfold pageMask
    omega
  unfold isFor wordBits
  rw [decide_eq_true_iff, Nat.and_comm, and_two_pow_sub_one_of_lt_two_pow below, eq_comm]

theorem isFor_some {word : TlbAddress} (small : word.page < 2 ^ X.target.longBits) :
    X.isFor virtual (some word) = true ↔
      X.target.pageBase word.page = X.target.pageBase virtual := by
  have room : (2 : Nat) ^ 7 ≤ 2 ^ X.target.longBits :=
    Nat.pow_le_pow_right (by decide) (X.target.pageBits_ge.trans X.target.pageBits_le)
  have bits : word.page ||| word.flags < 2 ^ X.target.longBits :=
    or_lt_two_pow small (word.flags_lt.trans_le room)
  unfold isFor wordBits
  rw [decide_eq_true_iff, and_pageMask bits, pageBase_or_flags]

theorem isFor_entered (paddr prot size : Nat) (access : AccessType)
    (small : virtual < 2 ^ X.target.longBits) :
    X.isFor virtual ((tlbEntry X.target X.base.memory (X.target.pageBase virtual)
        (X.target.pageBase paddr) prot size).word access) = true ↔
      permits prot access = true ∨ X.target.pageBase virtual = pageMask X.target := by
  have below : X.target.pageBase virtual < 2 ^ X.target.longBits :=
    (div_mul_le_self _ _).trans_lt small
  have words : (∃ word, (tlbEntry X.target X.base.memory (X.target.pageBase virtual)
      (X.target.pageBase paddr) prot size).word access = some word ∧
        word.page = X.target.pageBase virtual) ↔ permits prot access = true := tlbEntry_word access
  by_cases permitted : permits prot access = true
  · obtain ⟨word, here, page⟩ := words.mpr permitted
    rw [here, isFor_some (page ▸ below), page, X.target.pageBase_pageBase]
    exact iff_of_true rfl (Or.inl permitted)
  · have missing : (tlbEntry X.target X.base.memory (X.target.pageBase virtual)
        (X.target.pageBase paddr) prot size).word access = none := by
      rw [Option.eq_none_iff_forall_ne_some]
      intro word here
      exact permitted (words.mp ⟨word, here, tlbEntry_page here⟩)
    rw [missing, isFor_none]
    exact ⟨Or.inr, fun either => either.resolve_left permitted⟩

theorem physicalOf_entered {paddr prot size : Nat} :
    X.physicalOf (tlbEntry X.target X.base.memory (X.target.pageBase virtual)
      (X.target.pageBase paddr) prot size) virtual = X.addressIn virtual paddr := rfl

theorem addressIn_of_page {paddr paddr' : Nat}
    (same : X.target.pageBase paddr = X.target.pageBase paddr') :
    X.addressIn virtual paddr = X.addressIn virtual paddr' := by
  unfold addressIn pageIn
  rw [same]

/-! ### Entries -/

theorem Maps.of_page {mmu : ExternalMmu} {other paddr prot : Nat}
    (same : X.target.pageBase other = X.target.pageBase virtual)
    (maps : X.Maps mmu mode other paddr prot) : X.Maps mmu mode virtual paddr prot := by
  obtain ⟨v, kind, nofault, page, last⟩ := maps
  exact ⟨v, kind, nofault, page.trans same, last⟩

theorem EnteredFor.of_page {other paddr : Nat}
    (same : X.target.pageBase other = X.target.pageBase virtual)
    (entered : X.EnteredFor s other mode paddr) : X.EnteredFor s virtual mode paddr := by
  obtain ⟨prot, size, maps, entry⟩ := entered
  refine ⟨prot, size, maps.of_page same, ?_⟩
  rw [entryAt, ← tlbIndex_of_page same, ← same]
  exact entry

section

variable (consistent : X.Consistent s) (lt : mode < X.nbMmuModes)

include consistent lt

theorem Consistent.word
    {kind : AccessType} {word : TlbAddress}
    (here : (X.entryAt s mode virtual).word kind = some word) :
    ∃ other < 2 ^ X.target.longBits, word.page = X.target.pageBase other ∧
      tlbIndex X.target other = tlbIndex X.target virtual ∧
      ∃ paddr, X.EnteredFor s other mode paddr := by
  obtain empty | ⟨other, small, index, paddr, prot, size, maps, entry⟩ :=
    consistent mode lt (tlbIndex X.target virtual)
  · exact absurd ((empty kind).symm.trans here) (by simp)
  · refine ⟨other, small, ?_, index, paddr, prot, size, maps, entry⟩
    rw [entryAt, ← index] at here
    rw [entryAt] at entry
    rw [entry] at here
    exact tlbEntry_page here

theorem Consistent.enteredFor
    (holds : X.Holds s virtual mode) : ∃ paddr, X.EnteredFor s virtual mode paddr := by
  obtain ⟨kind, word, here, page⟩ := holds
  obtain ⟨other, -, origin, -, paddr, entered⟩ := consistent.word lt here
  exact ⟨paddr, entered.of_page (origin.symm.trans page)⟩

theorem Consistent.grants_of_isFor
    (inner : X.target.pageBase virtual ≠ pageMask X.target) {kind : AccessType}
    (passes : X.isFor virtual ((X.entryAt s mode virtual).word kind) = true) :
    Grants X.target s.tlb mode virtual kind := by
  cases here : (X.entryAt s mode virtual).word kind with
  | none =>
    rw [here, isFor_none] at passes
    exact absurd passes inner
  | some word =>
    obtain ⟨other, small, origin, -⟩ := consistent.word lt here
    have below : word.page < 2 ^ X.target.longBits :=
      origin ▸ (div_mul_le_self _ _).trans_lt small
    rw [here, isFor_some below, origin, X.target.pageBase_pageBase] at passes
    exact ⟨word, here, origin.trans passes⟩

end

theorem isFor_of_grants (small : virtual < 2 ^ X.target.longBits) {kind : AccessType}
    (grants : Grants X.target s.tlb mode virtual kind) :
    X.isFor virtual ((X.entryAt s mode virtual).word kind) = true := by
  obtain ⟨word, here, page⟩ := grants
  have below : word.page < 2 ^ X.target.longBits := page ▸ (div_mul_le_self _ _).trans_lt small
  rw [entryAt, here, isFor_some below, page, X.target.pageBase_pageBase]

theorem probe_eq_true_iff : X.probe s virtual mode = true ↔
    ∃ kind, X.isFor virtual ((X.entryAt s mode virtual).word kind) = true := by
  unfold probe
  rw [Bool.or_eq_true, Bool.or_eq_true]
  constructor
  · rintro ((write | read) | code)
    · exact ⟨.dataStore, write⟩
    · exact ⟨.dataLoad, read⟩
    · exact ⟨.instFetch, code⟩
  · rintro ⟨kind, passes⟩
    cases kind with
    | dataLoad => exact .inl (.inr passes)
    | dataStore => exact .inl (.inl passes)
    | instFetch => exact .inr passes

theorem Consistent.probe_iff (consistent : X.Consistent s) (lt : mode < X.nbMmuModes)
    (small : virtual < 2 ^ X.target.longBits)
    (inner : X.target.pageBase virtual ≠ pageMask X.target) :
    X.probe s virtual mode = true ↔ X.Holds s virtual mode := by
  rw [probe_eq_true_iff]
  constructor
  · rintro ⟨kind, passes⟩
    exact ⟨kind, consistent.grants_of_isFor lt inner passes⟩
  · rintro ⟨kind, grants⟩
    exact ⟨kind, isFor_of_grants small grants⟩

/-! ### The search -/

theorem foundIdx_eq_some_iff : X.foundIdx s virtual = some mode ↔
    mode < X.nbMmuModes ∧ X.probe s virtual mode = true ∧
      (mode = X.current ∨ X.probe s virtual X.current = false ∧
        ∀ other < mode, X.probe s virtual other = false) := by
  unfold foundIdx
  split_ifs with here
  · constructor
    · intro same
      obtain rfl := Option.some.inj same
      exact ⟨X.current_lt, here, .inl rfl⟩
    · rintro ⟨-, -, rfl | ⟨missing, -⟩⟩
      · rfl
      · exact absurd here (by simp [missing])
  · rw [Bool.not_eq_true] at here
    rw [List.find?_range_eq_some]
    constructor
    · rintro ⟨found, lt, before⟩
      rw [Bool.and_eq_true] at found
      refine ⟨mem_range.mp lt, found.2, .inr ⟨here, ?_⟩⟩
      intro other less
      have skipped := before other less
      by_cases same : other = X.current
      · rw [same]
        exact here
      · simpa [same] using skipped
    · rintro ⟨lt, found, first⟩
      have other : mode ≠ X.current := by
        rintro rfl
        exact absurd found (by simp [here])
      obtain ⟨-, before⟩ := first.resolve_left other
      refine ⟨by simp [other, found], mem_range.mpr lt, ?_⟩
      intro j less
      simp [before j less]

theorem Consistent.foundIdx_iff (consistent : X.Consistent s)
    (small : virtual < 2 ^ X.target.longBits)
    (inner : X.target.pageBase virtual ≠ pageMask X.target) :
    X.foundIdx s virtual = some mode ↔ X.Holder s virtual mode := by
  have held : ∀ other < X.nbMmuModes, (X.probe s virtual other = true ↔ X.Holds s virtual other) :=
    fun other lt => consistent.probe_iff lt small inner
  have missing : ∀ other < X.nbMmuModes,
      (X.probe s virtual other = false ↔ ¬ X.Holds s virtual other) := by
    intro other lt
    rw [← held other lt, Bool.not_eq_true]
  rw [foundIdx_eq_some_iff]
  constructor
  · rintro ⟨lt, found, first⟩
    refine ⟨lt, (held mode lt).mp found, first.imp_right ?_⟩
    rintro ⟨current, before⟩
    exact ⟨(missing _ X.current_lt).mp current,
      fun other less => (missing other (less.trans lt)).mp (before other less)⟩
  · rintro ⟨lt, holds, first⟩
    refine ⟨lt, (held mode lt).mpr holds, first.imp_right ?_⟩
    rintro ⟨current, before⟩
    exact ⟨(missing _ X.current_lt).mpr current,
      fun other less => (missing other (less.trans lt)).mpr (before other less)⟩

/-! ### The call -/

theorem virtToPhys_hit (access : AccessType) (nofault : Bool)
    (hit : X.foundIdx s virtual = some mode) :
    (X.virtToPhys s virtual access nofault).1 =
      .value (X.physicalOf (X.entryAt s mode virtual) virtual) := by
  rw [virtToPhys, hit]

theorem virtToPhys_entered {paddr : Nat} (access : AccessType) (nofault : Bool)
    (hit : X.foundIdx s virtual = some mode) (entered : X.EnteredFor s virtual mode paddr) :
    (X.virtToPhys s virtual access nofault).1 = .value (X.addressIn virtual paddr) := by
  obtain ⟨prot, size, -, entry⟩ := entered
  rw [virtToPhys_hit access nofault hit, entry, physicalOf_entered]

theorem virtToPhys_miss (access : AccessType) (nofault : Bool)
    (small : virtual < 2 ^ X.target.longBits) (miss : X.foundIdx s virtual = none) :
    (X.virtToPhys s virtual access nofault).1 =
      match (X.fillsIn X.current nofault).lastPage s.mmu (X.target.pageBase virtual) access with
      | none => X.unfilled nofault
      | some (paddr, prot) =>
        if permits prot access = true ∨ X.target.pageBase virtual = pageMask X.target then
          .value (X.addressIn virtual paddr)
        else .value X.minusOne := by
  have filled := (X.fillsIn X.current nofault).tlbFill_lastPage s (X.target.pageBase virtual) access
  rw [virtToPhys, miss]
  cases last : (X.fillsIn X.current nofault).lastPage s.mmu (X.target.pageBase virtual) access with
  | none =>
    rw [last] at filled
    generalize (X.fillsIn X.current nofault).tlbFill s (X.target.pageBase virtual) access =
      result at filled
    obtain ⟨after, success⟩ := result
    subst filled
    rfl
  | some page =>
    rw [last] at filled
    obtain ⟨after, size, done, -, entry⟩ := filled
    have entered : X.entryAt after X.current virtual = tlbEntry X.target X.base.memory
        (X.target.pageBase virtual) (X.target.pageBase page.1) page.2 size := by
      have here : after.tlb X.current (tlbIndex X.target (X.target.pageBase virtual)) =
          tlbEntry X.target X.base.memory (X.target.pageBase (X.target.pageBase virtual))
            (X.target.pageBase page.1) page.2 size := entry
      rw [tlbIndex_pageBase, Target.pageBase_pageBase] at here
      exact here
    rw [done]
    dsimp only
    rw [entered]
    have test := @isFor_entered X virtual page.1 page.2 size access small
    split_ifs with passes permitted permitted
    · rw [physicalOf_entered]
    · exact absurd (test.mp passes) permitted
    · exact absurd (test.mpr permitted) passes
    · rfl

theorem virtToPhys_held (access : AccessType) (nofault : Bool) (consistent : X.Consistent s)
    (small : virtual < 2 ^ X.target.longBits)
    (inner : X.target.pageBase virtual ≠ pageMask X.target) (holder : X.Holder s virtual mode) :
    ∃ paddr prot, X.Maps s.mmu mode virtual paddr prot ∧
      (X.virtToPhys s virtual access nofault).1 = .value (X.addressIn virtual paddr) := by
  obtain ⟨paddr, entered⟩ := consistent.enteredFor holder.lt holder.holds
  have hit := (consistent.foundIdx_iff small inner).mpr holder
  have answer := virtToPhys_entered access nofault hit entered
  obtain ⟨prot, size, maps, -⟩ := entered
  exact ⟨paddr, prot, maps, answer⟩

theorem virtToPhys_anew (access : AccessType) (nofault : Bool) (consistent : X.Consistent s)
    (small : virtual < 2 ^ X.target.longBits)
    (inner : X.target.pageBase virtual ≠ pageMask X.target)
    (none : ∀ mode, ¬ X.Holder s virtual mode) :
    (X.virtToPhys s virtual access nofault).1 = X.pageAnswer s.mmu virtual access nofault := by
  have miss : X.foundIdx s virtual = Option.none := by
    rw [Option.eq_none_iff_forall_ne_some]
    intro mode hit
    exact none mode ((consistent.foundIdx_iff small inner).mp hit)
  rw [virtToPhys_miss access nofault small miss, pageAnswer]
  cases (X.fillsIn X.current nofault).lastPage s.mmu (X.target.pageBase virtual) access with
  | none => rfl
  | some page =>
    simp [inner]

/-- The answer depends on the TLB only through the mode that holds the page. -/
theorem virtToPhys_throughHolder (consistent : X.Consistent s) (consistent' : X.Consistent t)
    (same : t.mmu = s.mmu) (small : virtual < 2 ^ X.target.longBits)
    (inner : X.target.pageBase virtual ≠ pageMask X.target) :
    X.ThroughHolder s t virtual access nofault where
  found _ := consistent.foundIdx_iff small inner
  held _ holder := virtToPhys_held access nofault consistent small inner holder
  anew none := virtToPhys_anew access nofault consistent small inner none
  alike holders onePage := by
    by_cases held : ∃ mode, X.Holder s virtual mode
    · obtain ⟨mode, holder⟩ := held
      obtain ⟨paddr, prot, maps, answer⟩ :=
        virtToPhys_held access nofault consistent small inner holder
      obtain ⟨paddr', prot', maps', answer'⟩ :=
        virtToPhys_held access nofault consistent' small inner ((holders mode).mp holder)
      rw [same] at maps'
      have page := onePage mode holder paddr prot paddr' prot' maps maps'
      rw [answer, answer', addressIn_of_page page]
    · have none : ∀ mode, ¬ X.Holder s virtual mode := not_exists.mp held
      have none' : ∀ mode, ¬ X.Holder t virtual mode :=
        fun mode holder => none mode ((holders mode).mpr holder)
      rw [virtToPhys_anew access nofault consistent small inner none,
        virtToPhys_anew access nofault consistent' small inner none', same]

/-! ### Runs -/

/-- What happens to the TLB of a CPU without an external MMU. -/
inductive TlbEvent where
  | access (mode addr : Nat) (kind : AccessType) (nofault : Bool)
  | translate (virtual : Nat) (kind : AccessType) (nofault : Bool)
  | flush

def emptiedTable (s : FillState) : FillState :=
  { s with tlb := fun mode i => (s.tlb mode i).emptied }

def runEvent (X : MmuModes) (s : FillState) : TlbEvent → FillState
  | .access mode addr kind nofault =>
    ((X.fillsIn mode nofault).tlbFill s (X.target.toUlong addr) kind).1
  | .translate virtual kind nofault => (X.virtToPhys s (X.target.toUlong virtual) kind nofault).2
  | .flush => emptiedTable s

theorem consistent_emptied (X : MmuModes) (s : FillState) : X.Consistent (emptiedTable s) :=
  fun _ _ _ => .inl fun _ => emptied_word _ _

theorem tlbSetPage_left {T : Target} {M : MemoryMap} {tlb : TlbTable}
    {addr paddr prot filled size i : Nat} (other : ¬ (mode = filled ∧ tlbIndex T addr = i)) :
    tlbSetPage T M tlb (T.pageBase addr) paddr prot filled size mode i = tlb mode i := by
  unfold tlbSetPage
  by_cases same : mode = filled
  · subst same
    have index : i ≠ tlbIndex T (T.pageBase addr) := by
      rw [tlbIndex_pageBase]
      exact fun same => other ⟨rfl, same.symm⟩
    rw [Function.update_self, Function.update_of_ne index]
  · rw [Function.update_of_ne same]

theorem Consistent.tlbFill (consistent : X.Consistent s) (position : s.mmu.position = .none)
    (filled : Nat) (nofault : Bool) {addr : Nat} (small : addr < 2 ^ X.target.longBits)
    (kind : AccessType) :
    X.Consistent ((X.fillsIn filled nofault).tlbFill s addr kind).1 ∧
      ((X.fillsIn filled nofault).tlbFill s addr kind).1.mmu = s.mmu := by
  rw [FillContext.tlbFill_none position]
  cases translation : (X.fillsIn filled nofault).arch addr kind with
  | none => exact ⟨consistent, rfl⟩
  | some found =>
    refine ⟨?_, rfl⟩
    intro mode lt i
    by_cases here : mode = filled ∧ tlbIndex X.target addr = i
    · obtain ⟨rfl, index⟩ := here
      have last : (X.fillsIn mode nofault).lastPage s.mmu addr kind =
          some (found.paddr, found.prot) := by
        unfold FillContext.lastPage
        rw [position]
        rw [translation]
        rfl
      refine .inr ⟨addr, small, index, found.paddr, found.prot, found.size, ?_, ?_⟩
      · exact ⟨addr, kind, nofault, rfl, last⟩
      · exact FillContext.setPage_entry
    · have left : ((X.fillsIn filled nofault).setPage s addr found.paddr found.prot
          found.size).tlb mode i = s.tlb mode i := by
        exact tlbSetPage_left here
      obtain empty | ⟨other, below, index, paddr, prot, size, maps, entry⟩ := consistent mode lt i
      · exact .inl fun kind => left ▸ empty kind
      · refine .inr ⟨other, below, index, paddr, prot, size, maps, ?_⟩
        rw [entryAt, index] at entry ⊢
        rw [left]
        exact entry

theorem virtToPhys_state (s : FillState) (virtual : Nat) (access : AccessType) (nofault : Bool) :
    (X.virtToPhys s virtual access nofault).2 = s ∨ (X.virtToPhys s virtual access nofault).2 =
        ((X.fillsIn X.current nofault).tlbFill s (X.target.pageBase virtual) access).1 := by
  unfold virtToPhys
  cases X.foundIdx s virtual with
  | some mode => exact .inl rfl
  | none =>
    refine .inr ?_
    generalize (X.fillsIn X.current nofault).tlbFill s (X.target.pageBase virtual) access = result
    obtain ⟨after, success⟩ := result
    cases success with
    | false => rfl
    | true =>
      dsimp only
      split_ifs
      · rfl
      · rfl

theorem Consistent.runEvent (consistent : X.Consistent s) (position : s.mmu.position = .none)
    (event : TlbEvent) :
    X.Consistent (X.runEvent s event) ∧ (X.runEvent s event).mmu = s.mmu := by
  have small : ∀ addr, X.target.toUlong addr < 2 ^ X.target.longBits :=
    fun _ => mod_lt _ (Nat.two_pow_pos _)
  cases event with
  | access mode addr kind nofault =>
    exact consistent.tlbFill position mode nofault (small addr) kind
  | flush => exact ⟨consistent_emptied X s, rfl⟩
  | translate virtual kind nofault =>
    have below : X.target.pageBase (X.target.toUlong virtual) < 2 ^ X.target.longBits :=
      (div_mul_le_self _ _).trans_lt (small virtual)
    have filled := consistent.tlbFill position X.current nofault below kind
    unfold MmuModes.runEvent
    dsimp only
    obtain same | same := virtToPhys_state s (X.target.toUlong virtual) kind nofault
    · rw [same]
      exact ⟨consistent, rfl⟩
    · rw [same]
      exact filled

theorem consistent_of_run (position : s.mmu.position = .none) (events : List TlbEvent) :
    X.Consistent (events.foldl X.runEvent (emptiedTable s)) ∧
      (events.foldl X.runEvent (emptiedTable s)).mmu = s.mmu := by
  induction events using reverseRecOn with
  | nil => exact ⟨consistent_emptied X s, rfl⟩
  | append_singleton events event ih =>
    obtain ⟨consistent, mmu⟩ := ih
    obtain ⟨next, nextMmu⟩ := consistent.runEvent (mmu ▸ position) event
    rw [foldl_append]
    exact ⟨next, nextMmu.trans mmu⟩

/-! ### Two modes -/

/-- The current mode maps every page to itself, for loads; the other one to the next page. -/
def twoModes : MmuModes where
  base := FillContext.sampleFill
  nbMmuModes := 2
  archIn mode addr access :=
    if mode = 1 then some { paddr := addr + 2 ^ 12, prot := 3, size := 2 ^ 12 }
    else if access = .dataLoad then some { paddr := addr, prot := 1, size := 2 ^ 12 }
    else none
  current := 0
  current_lt := by decide

def accessed (events : List TlbEvent) : FillState :=
  events.foldl twoModes.runEvent
    (emptiedTable ⟨FillContext.emptyTlb, FillContext.sampleMmu .none⟩)

theorem consistent_accessed (events : List TlbEvent) :
    twoModes.Consistent (accessed events) ∧ (accessed events).mmu = FillContext.sampleMmu .none :=
  consistent_of_run rfl events

theorem virtToPhys_throughHolder_accessed :
    twoModes.ThroughHolder (accessed [.access 0 0x1000 .dataLoad false])
      (accessed [.access 1 0x1000 .dataStore false, .access 0 0x1020 .dataLoad false]) 0x1010
      .dataLoad true :=
  virtToPhys_throughHolder (consistent_accessed _).1 (consistent_accessed _).1
    ((consistent_accessed _).2.trans (consistent_accessed _).2.symm) (by decide) (by decide)

/-- An earlier load gives the address of a read-only page to a store; a page that only the
other mode has accessed is answered as that mode maps it; and on the last page an empty entry
is a hit. -/
theorem virtToPhys_not_independent : (∀ events, twoModes.Consistent (accessed events) ∧
        (accessed events).mmu = FillContext.sampleMmu .none) ∧
      ¬ twoModes.Independent (accessed []) (accessed [.access 0 0x1000 .dataLoad false]) 0x1010
        .dataStore true ∧
      ¬ twoModes.Independent (accessed []) (accessed [.access 1 0x1000 .dataLoad false]) 0x1010
        .dataLoad true ∧
      twoModes.foundIdx (accessed []) 0xfffff000 = some 0 := by
  refine ⟨consistent_accessed, ?_, ?_, by decide⟩
  · rintro ⟨same, -, -⟩
    exact absurd same (by decide)
  · rintro ⟨same, -, -⟩
    exact absurd same (by decide)

end MmuModes

end Tlib.Softmmu
