import Tlib.Riscv.PageWalk
import Tlib.Riscv.TrapEntry

/-!
Contract: `get_physical_address` against the specified walk.

Owns: what it means that a walk conforms.
-/

namespace Tlib.Riscv.Paging

open Tlib.Library.BitFields Nat
open Tlib.Riscv.Trap
open Tlib.Softmmu (AccessType)

variable {xlen : Nat}

structure Conforms (levels : Nat) (p : Privileges) (mem : Memory xlen) (access : AccessType)
    (place : Leaf xlen → Nat) (specified : List Nat × Option (Leaf xlen)) (w : Walk xlen) :
    Prop where
  reads : w.reads = specified.1
  terminates : w.reads.length ≤ levels
  failed : specified.2 = none → w.outcome = .fail ∧ w.memory = mem
  succeeded : ∀ leaf, specified.2 = some leaf → ∃ physical prot,
    w.outcome = .success physical prot ∧ physical.toNat = place leaf ∧
      (∀ kind, Softmmu.permits prot kind = true → p.permits leaf.pte kind = true) ∧
      w.memory = Function.update mem leaf.address (markUsed leaf.pte access)

def Overgranted (p : Privileges) (pte : BitVec xlen) : Prop :=
  p.supervisor = true ∧ pteU pte = true ∧ pteX pte = true ∧ p.userFetch = false

/-- Pointers have no stray bits, and a leaf that permits the access is in good order. -/
def Scheme.CleanFrom (scheme : Scheme) (p : Privileges) (mem : Memory xlen) (address : BitVec xlen)
    (access : AccessType) : Nat → Nat → Prop
  | 0, _ => True
  | level + 1, table =>
    let pte := mem (scheme.pteAddress address level table)
    match pteKind pte with
    | .invalid => True
    | .pointer =>
      (0 < level → FrameFits (pte >>> 10)) ∧
        CleanFrom scheme p mem address access level (ptePpn pte)
    | .leaf =>
      p.permits pte access = true →
        ptePpn pte % 2 ^ (level * scheme.ptidxbits) = 0 ∧ FrameFits (pte >>> 10) ∧
          ¬ Overgranted p pte

theorem pteTable_iff (pte : BitVec xlen) : pteTable pte = true ↔ pteKind pte = .pointer := by
  unfold pteTable pteKind
  cases pteV pte <;> cases pteR pte <;> cases pteW pte <;> cases pteX pte <;> decide

theorem refused_of_invalid {pte : BitVec xlen} (kind : pteKind pte = .invalid) (p : Privileges)
    (access : AccessType) : refused p pte access = true := by
  have broken : (!pteV pte || (!pteR pte && pteW pte)) = true := by
    by_contra sound
    rw [pteKind, if_neg sound] at kind
    split_ifs at kind
  simp [refused, broken]

theorem refused_of_leaf {pte : BitVec xlen} (kind : pteKind pte = .leaf) (p : Privileges)
    (access : AccessType) : refused p pte access = !p.permits pte access := by
  have sound : (!pteV pte || (!pteR pte && pteW pte)) = false := by
    by_contra broken
    rw [Bool.not_eq_false] at broken
    rw [pteKind, if_pos broken] at kind
    exact PteKind.noConfusion kind
  have reached : (pteU pte && p.supervisor && (!p.sum || (!p.userFetch && access = .instFetch)) ||
      (!pteU pte && !p.supervisor)) = !p.reaches pte access := by
    unfold Privileges.reaches
    cases pteU pte <;> cases p.supervisor <;> cases p.sum <;> cases p.userFetch <;> cases access <;>
      decide
  -- an entry that is sound is readable where it is writable
  have readable : (pteR pte && pteW pte) = pteW pte := by
    have paired := (Bool.or_eq_false_iff.mp sound).2
    cases writable : pteW pte with
    | false => rw [Bool.and_false]
    | true =>
      rw [writable, Bool.and_true, Bool.not_eq_false'] at paired
      rw [paired, Bool.and_true]
  unfold refused Privileges.permits
  rw [reached, sound, Bool.or_false]
  cases access with
  | dataLoad =>
    simp
  | dataStore =>
    dsimp only
    rw [readable, Bool.not_and]
  | instFetch =>
    dsimp only
    rw [Bool.not_and]

theorem permits_leafProt (p : Privileges) (pte : BitVec xlen) (access kind : AccessType) :
    Softmmu.permits (leafProt p pte access) kind = match kind with
      | .dataLoad => pteR pte || (pteX pte && p.mxr)
      | .dataStore => pteW pte && (access = .dataStore || pteD pte)
      | .instFetch => pteX pte := by
  unfold leafProt
  generalize (pteR pte || (pteX pte && p.mxr)) = read
  generalize (pteW pte && (decide (access = .dataStore) || pteD pte)) = write
  cases kind <;> cases read <;> cases write <;> cases pteX pte <;> decide

theorem reaches_data {p : Privileges} {pte : BitVec xlen} {access kind : AccessType}
    (reached : p.reaches pte access = true) (data : kind ≠ .instFetch) :
    p.reaches pte kind = true := by
  unfold Privileges.reaches at reached ⊢
  split_ifs at reached ⊢
  · simp only [Bool.or_eq_true, Bool.and_eq_true, decide_eq_true_eq] at reached ⊢
    exact reached.imp_right fun both => ⟨both.1, Or.inl data⟩
  · exact reached

theorem leafProt_iff {p : Privileges} {pte : BitVec xlen} {access : AccessType}
    (permitted : p.permits pte access = true) :
    (∀ kind, Softmmu.permits (leafProt p pte access) kind = true → p.permits pte kind = true) ↔
      ¬ Overgranted p pte := by
  constructor
  · rintro all ⟨supervisor, user, executable, forbidden⟩
    have fetch := all .instFetch (by rw [permits_leafProt]; exact executable)
    simp [Privileges.permits, Privileges.reaches, supervisor, user, forbidden] at fetch
  · intro sound kind granted
    have reached : p.reaches pte access = true := (Bool.and_eq_true_iff.mp permitted).1
    rw [permits_leafProt] at granted
    cases kind with
    | dataLoad =>
      rw [Privileges.permits, reaches_data reached (by decide), Bool.true_and]
      rwa [Bool.and_comm p.mxr]
    | dataStore =>
      rw [Privileges.permits, reaches_data reached (by decide), Bool.true_and]
      exact (Bool.and_eq_true_iff.mp granted).1
    | instFetch =>
      have executable : pteX pte = true := granted
      rw [Privileges.permits, executable, Bool.and_true]
      unfold Privileges.reaches at reached ⊢
      split_ifs at reached ⊢ with user
      · simp only [Bool.or_eq_true, Bool.and_eq_true, decide_eq_true_eq, ne_eq,
          not_true_eq_false, false_or, Bool.not_eq_true'] at reached ⊢
        rcases reached with userMode | ⟨allowed, -⟩
        · exact Or.inl userMode
        · by_cases supervisor : p.supervisor = true
          · have fetches : p.userFetch = true := by
              by_contra forbidden
              exact sound ⟨supervisor, user, executable, by simpa using forbidden⟩
            exact Or.inr ⟨allowed, fetches⟩
          · exact Or.inl (by simpa using supervisor)
      · exact reached

section Levels

variable {scheme : Scheme} {p : Privileges} {mem : Memory xlen} {addr : BitVec xlen}
  {access : AccessType}

theorem walkTables_terminates (level : Nat) (base : BitVec xlen) :
    (walkTables scheme p mem addr access level base).reads.length ≤ level := by
  induction level generalizing base with
  | zero => exact Nat.le_refl _
  | succ level ih =>
    rw [walkTables]
    split_ifs
    · exact succ_le_succ (ih _)
    · exact Nat.le_add_left _ _
    · exact Nat.le_add_left _ _

theorem walkTables_head (level : Nat) (base : BitVec xlen) :
    (walkTables scheme p mem addr access (level + 1) base).reads.head? =
      some (pteAddr scheme addr level base).toNat := by
  rw [walkTables]
  split_ifs <;> rfl

theorem walk_head (level table : Nat) :
    (scheme.walk addr mem (level + 1) table).1.head? = some (scheme.pteAddress addr level table) := by
  rw [Scheme.walk]
  split <;> rfl

def Scheme.accepted (scheme : Scheme) (p : Privileges) (access : AccessType)
    (found : List Nat × Option (Leaf xlen)) : List Nat × Option (Leaf xlen) :=
  (found.1, found.2.filter fun leaf => scheme.Grants p access leaf)

variable {place : Leaf xlen → Nat} {levels : Nat}

theorem conforms_cons_iff {found : List Nat × Option (Leaf xlen)} {w : Walk xlen} (entry : Nat) :
    Conforms (levels + 1) p mem access place (entry :: found.1, found.2)
        { w with reads := entry :: w.reads } ↔
      Conforms levels p mem access place found w := by
  constructor
  · rintro ⟨reads, terminates, failed, succeeded⟩
    exact ⟨(List.cons.inj reads).2, le_of_succ_le_succ terminates, failed, succeeded⟩
  · rintro ⟨reads, terminates, failed, succeeded⟩
    exact ⟨congrArg (entry :: ·) reads, succ_le_succ terminates, failed, succeeded⟩

theorem conforms_fail (entries : List Nat) (short : entries.length ≤ levels) :
    Conforms levels p mem access place (entries, none) ⟨.fail, mem, entries⟩ :=
  ⟨rfl, short, fun _ => ⟨rfl, rfl⟩, fun _ isLeaf => absurd isLeaf (by simp)⟩

theorem storeUsed_eq (entry : BitVec xlen) : storeUsed mem entry access =
      Function.update mem entry.toNat (markUsed (mem entry.toNat) access) := by
  unfold storeUsed markUsed
  dsimp only
  rw [BitVec.or_assoc]
  generalize (mem entry.toNat ||| (0x40 ||| if access = .dataStore then 0x80 else 0)) = used
  split_ifs with changed
  · rfl
  · rw [← not_not.mp changed, Function.update_eq_self]

section

variable (fits : scheme.Fits xlen)

include fits

theorem leaf_conforms_iff {level : Nat} (less : level < scheme.levels)
    {entry : BitVec xlen} (permitted : p.permits (mem entry.toNat) access = true) :
    Conforms (level + 1) p mem access (fun leaf => scheme.page addr leaf * 2 ^ pgshift)
        (scheme.accepted p access ([entry.toNat], some ⟨level, entry.toNat, mem entry.toNat⟩))
        ⟨.success (leafPhysical scheme addr level (mem entry.toNat >>> 10))
            (leafProt p (mem entry.toNat) access),
          storeUsed mem entry access, [entry.toNat]⟩ ↔
      ptePpn (mem entry.toNat) % 2 ^ (level * scheme.ptidxbits) = 0 ∧
        FrameFits (mem entry.toNat >>> 10) ∧ ¬ Overgranted p (mem entry.toNat) := by
  by_cases aligned : ptePpn (mem entry.toNat) % 2 ^ (level * scheme.ptidxbits) = 0
  · have grants : scheme.Grants p access ⟨level, entry.toNat, mem entry.toNat⟩ :=
      ⟨aligned, permitted⟩
    have kept : scheme.accepted p access
        ([entry.toNat], some ⟨level, entry.toNat, mem entry.toNat⟩) =
        ([entry.toNat], some ⟨level, entry.toNat, mem entry.toNat⟩) := by
      simp [Scheme.accepted, grants]
    rw [kept, ← leafPage_iff fits addr _ less aligned, ← leafProt_iff permitted]
    simp only [aligned, true_and]
    constructor
    · intro conforms
      obtain ⟨physical, prot, outcome, place, within, -⟩ := conforms.succeeded _ rfl
      cases outcome
      exact ⟨place, within⟩
    · rintro ⟨place, within⟩
      refine ⟨rfl, Nat.le_add_left _ _, fun isNone => absurd isNone (by simp), ?_⟩
      intro leaf isLeaf
      cases isLeaf
      exact ⟨_, _, rfl, place, within, storeUsed_eq entry⟩
  · refine iff_of_false (fun conforms => ?_) fun clean => aligned clean.1
    have rejected : (scheme.accepted p access
        ([entry.toNat], some ⟨level, entry.toNat, mem entry.toNat⟩)).2 = none := by
      have notGranted : ¬ scheme.Grants p access ⟨level, entry.toNat, mem entry.toNat⟩ :=
        fun grants => aligned grants.1
      simp [Scheme.accepted, notGranted]
    exact absurd (conforms.failed rejected).1 (by simp)

theorem frameFits_of_conforms {level : Nat} (positive : 0 < level)
    {ppn : BitVec xlen} (conforms : Conforms levels p mem access place
      (scheme.accepted p access (scheme.walk addr mem level (pageNumber ppn)))
      (walkTables scheme p mem addr access level (ppn <<< pgshift))) : FrameFits ppn := by
  obtain ⟨next, rfl⟩ := exists_eq_succ_of_ne_zero (Nat.ne_of_gt positive)
  have heads := congrArg List.head? conforms.reads
  rw [Scheme.accepted, walkTables_head, walk_head, Option.some.injEq] at heads
  have multiple : (ppn <<< pgshift).toNat % 2 ^ pgshift = 0 := by
    rw [toNat_shiftPage ppn fits.pgshift_le, mul_mod_left]
  rw [toNat_pteAddr fits addr _ next multiple, Scheme.pteAddress] at heads
  exact (frameFits_iff fits.width ppn).mp (Nat.add_right_cancel heads)

theorem pointer_conforms_iff {level : Nat} (ppn : BitVec xlen) (entry : Nat)
    (below : level = 0 ∨ FrameFits ppn → (Conforms level p mem access place
        (scheme.accepted p access (scheme.walk addr mem level (pageNumber ppn)))
        (walkTables scheme p mem addr access level (ppn <<< pgshift)) ↔
      scheme.CleanFrom p mem addr access level (pageNumber ppn))) :
    Conforms (level + 1) p mem access place
        (scheme.accepted p access
          (entry :: (scheme.walk addr mem level (pageNumber ppn)).1,
            (scheme.walk addr mem level (pageNumber ppn)).2))
        { walkTables scheme p mem addr access level (ppn <<< pgshift) with
          reads := entry :: (walkTables scheme p mem addr access level (ppn <<< pgshift)).reads } ↔
      (0 < level → FrameFits ppn) ∧ scheme.CleanFrom p mem addr access level (pageNumber ppn) := by
  change Conforms (level + 1) p mem access place
    (entry :: (scheme.accepted p access (scheme.walk addr mem level (pageNumber ppn))).1,
      (scheme.accepted p access (scheme.walk addr mem level (pageNumber ppn))).2) _ ↔ _
  rw [conforms_cons_iff entry]
  by_cases framed : 0 < level → FrameFits ppn
  · have ready : level = 0 ∨ FrameFits ppn := by
      rcases Nat.eq_zero_or_pos level with zero | positive
      · exact Or.inl zero
      · exact Or.inr (framed positive)
    rw [and_iff_right framed]
    exact below ready
  · refine iff_of_false (fun conforms => framed fun positive => ?_) fun clean => framed clean.1
    exact frameFits_of_conforms fits positive conforms

theorem walkTables_conforms_iff {level table : Nat} {base : BitVec xlen}
    (le : level ≤ scheme.levels) (same : level = 0 ∨ base.toNat = table * 2 ^ pgshift) :
    Conforms level p mem access (fun leaf => scheme.page addr leaf * 2 ^ pgshift)
        (scheme.accepted p access (scheme.walk addr mem level table))
        (walkTables scheme p mem addr access level base) ↔
      scheme.CleanFrom p mem addr access level table := by
  induction level generalizing table base with
  | zero => exact iff_of_true (conforms_fail [] (Nat.le_refl 0)) trivial
  | succ level ih =>
    have start := same.resolve_left (succ_ne_zero level)
    have multiple : base.toNat % 2 ^ pgshift = 0 := by rw [start, mul_mod_left]
    have entry : scheme.pteAddress addr level table = (pteAddr scheme addr level base).toNat := by
      rw [toNat_pteAddr fits addr base level multiple, start, Scheme.pteAddress]
    rw [walkTables, Scheme.walk, Scheme.CleanFrom, entry]
    generalize pteAddr scheme addr level base = address
    cases kind : pteKind (mem address.toNat) with
    | invalid =>
      have notTable : ¬ pteTable (mem address.toNat) = true := by
        rw [pteTable_iff, kind]
        decide
      rw [if_neg notTable, if_pos (refused_of_invalid kind p access)]
      exact iff_of_true (conforms_fail [address.toNat] (Nat.le_add_left _ _)) trivial
    | pointer =>
      rw [if_pos ((pteTable_iff _).mpr kind)]
      apply pointer_conforms_iff fits
      intro ready
      apply ih (le_of_succ_le le)
      exact ready.imp_right (frameFits_iff fits.width _).mpr
    | leaf =>
      have notTable : ¬ pteTable (mem address.toNat) = true := by
        rw [pteTable_iff, kind]
        decide
      rw [if_neg notTable, refused_of_leaf kind]
      by_cases permitted : p.permits (mem address.toNat) access = true
      · rw [if_neg (by simp [permitted]), leaf_conforms_iff fits le permitted]
        simp [permitted]
      · rw [if_pos (by simpa using permitted)]
        refine iff_of_true ?_ fun granted => absurd granted permitted
        have rejected : scheme.accepted p access
            ([address.toNat], some ⟨level, address.toNat, mem address.toNat⟩) =
            ([address.toNat], none) := by
          have notGranted : ¬ scheme.Grants p access
              ⟨level, address.toNat, mem address.toNat⟩ := fun grants => permitted grants.2
          simp [Scheme.accepted, notGranted]
        rw [rejected]
        exact conforms_fail [address.toNat] (Nat.le_add_left _ _)

theorem walkTables_physical {level : Nat} {base physical : BitVec xlen}
    {prot : Nat}
    (success : (walkTables scheme p mem addr access level base).outcome = .success physical prot) :
    physical.toNat % 2 ^ pgshift = 0 := by
  induction level generalizing base with
  | zero => exact absurd success (by simp [walkTables])
  | succ level ih =>
    rw [walkTables] at success
    split_ifs at success
    · exact ih success
    · cases success
      rw [leafPhysical, toNat_shiftPage _ fits.pgshift_le, mul_mod_left]

end

theorem walkTables_fail {level : Nat} {base : BitVec xlen}
    (fail : (walkTables scheme p mem addr access level base).outcome = .fail) :
    (walkTables scheme p mem addr access level base).memory = mem := by
  induction level generalizing base with
  | zero => rfl
  | succ level ih =>
    rw [walkTables] at fail ⊢
    split_ifs at fail ⊢
    · exact ih fail
    · rfl

theorem conforms_physical_iff {specified : List Nat × Option (Leaf xlen)} {w : Walk xlen}
    (pages : ∀ physical prot, w.outcome = .success physical prot →
      physical.toNat % 2 ^ pgshift = 0) :
    Conforms levels p mem access (scheme.physical addr) specified w ↔
      Conforms levels p mem access (fun leaf => scheme.page addr leaf * 2 ^ pgshift) specified w ∧
        (specified.2.isSome = true → addr.toNat % 2 ^ pgshift = 0) := by
  have small : addr.toNat % 2 ^ pgshift < 2 ^ pgshift := mod_lt _ (Nat.two_pow_pos _)
  constructor
  · rintro ⟨reads, terminates, failed, succeeded⟩
    have offset : ∀ leaf, specified.2 = some leaf → addr.toNat % 2 ^ pgshift = 0 := by
      intro leaf isLeaf
      obtain ⟨physical, prot, outcome, place, -⟩ := succeeded leaf isLeaf
      have page := pages physical prot outcome
      rwa [place, Scheme.physical, mul_add_mod_self_right, mod_eq_of_lt small] at page
    refine ⟨⟨reads, terminates, failed, fun leaf isLeaf => ?_⟩, fun isSome => ?_⟩
    · obtain ⟨physical, prot, outcome, place, rest⟩ := succeeded leaf isLeaf
      rw [Scheme.physical, offset leaf isLeaf, Nat.add_zero] at place
      exact ⟨physical, prot, outcome, place, rest⟩
    · obtain ⟨leaf, isLeaf⟩ := Option.isSome_iff_exists.mp isSome
      exact offset leaf isLeaf
  · rintro ⟨⟨reads, terminates, failed, succeeded⟩, offset⟩
    refine ⟨reads, terminates, failed, fun leaf isLeaf => ?_⟩
    obtain ⟨physical, prot, outcome, place, rest⟩ := succeeded leaf isLeaf
    refine ⟨physical, prot, outcome, ?_, rest⟩
    rw [place, Scheme.physical, offset (by rw [isLeaf]; rfl), Nat.add_zero]

end Levels

section Hart

variable (H : Hart xlen) (regs : Registers xlen) {scheme : Scheme}

theorem mem_schemes_of_valid (valid : validateVm H (vmField H regs) = true)
    (paged : vmMode H regs = .paged scheme) : scheme ∈ schemes xlen := by
  unfold vmMode at paged
  unfold validateVm at valid
  generalize (vmField H regs).toNat = vm at paged valid
  have width := H.xlen_eq
  cases since : H.privilegeArchitecture.since110 with
  | true =>
    rw [since] at paged valid
    rw [if_pos rfl] at paged
    split at paged <;> cases paged <;> rcases width with rfl | rfl <;>
      first
        | exact absurd valid (by decide)
        | decide
  | false =>
    rw [since] at paged valid
    rw [if_neg Bool.false_ne_true] at paged
    split at paged <;> cases paged <;> rcases width with rfl | rfl <;>
      first
        | exact absurd valid (by decide)
        | decide

def WalksCleanly (scheme : Scheme) (mem : Memory xlen) (address : BitVec xlen)
    (access : AccessType) (mmuIdx : BitVec xlen) : Prop :=
  scheme.Canonical address → FrameFits (rootPpn H regs) ∧
    scheme.CleanFrom (privileges H regs (effectiveMode regs mmuIdx access)) mem address access
      scheme.levels (pageNumber (rootPpn H regs))

def specifiedWalk (scheme : Scheme) (mem : Memory xlen) (address : BitVec xlen)
    (access : AccessType) (mmuIdx : BitVec xlen) : List Nat × Option (Leaf xlen) :=
  scheme.specified address (privileges H regs (effectiveMode regs mmuIdx access)) mem
    (pageNumber (rootPpn H regs)) access

/-- `getPhysicalAddress` walks as specified. -/
def ConformsAt (scheme : Scheme) (place : Leaf xlen → Nat) (mem : Memory xlen)
    (address : BitVec xlen) (access : AccessType) (mmuIdx : BitVec xlen) (noPageFault : Bool) :
    Prop :=
  Conforms scheme.levels (privileges H regs (effectiveMode regs mmuIdx access)) mem access place
    (specifiedWalk H regs scheme mem address access mmuIdx)
    (getPhysicalAddress H regs mem address access mmuIdx noPageFault)

variable {H regs} {mem : Memory xlen} {address mmuIdx : BitVec xlen} {access : AccessType}
  {noPageFault : Bool}

theorem getPhysicalAddress_paged (fits : scheme.Fits xlen)
    (paged : vmMode H regs = .paged scheme) (translated : effectiveMode regs mmuIdx access ≠ prvM) :
    getPhysicalAddress H regs mem address access mmuIdx noPageFault =
      if scheme.Canonical address then
        walkTables scheme (privileges H regs (effectiveMode regs mmuIdx access)) mem address access
          scheme.levels (rootPpn H regs <<< pgshift)
      else ⟨.fail, mem, []⟩ := by
  rw [getPhysicalAddress]
  simp only [if_neg translated, paged]
  by_cases canonical : scheme.Canonical address
  · rw [if_pos canonical, if_neg]
    rw [canonical_iff fits] at canonical
    tauto
  · rw [if_neg canonical, if_pos]
    rw [canonical_iff fits] at canonical
    tauto

theorem conformsAt_page_iff (fits : scheme.Fits xlen) (paged : vmMode H regs = .paged scheme)
    (translated : effectiveMode regs mmuIdx access ≠ prvM) :
    ConformsAt H regs scheme (fun leaf => scheme.page address leaf * 2 ^ pgshift) mem address
        access mmuIdx noPageFault ↔
      WalksCleanly H regs scheme mem address access mmuIdx := by
  rw [ConformsAt, getPhysicalAddress_paged fits paged translated, specifiedWalk, Scheme.specified,
    WalksCleanly]
  by_cases canonical : scheme.Canonical address
  · rw [if_pos canonical, if_pos canonical, forall_prop_of_true canonical]
    constructor
    · intro conforms
      have framed := frameFits_of_conforms fits fits.levels_pos conforms
      have same := (frameFits_iff fits.width _).mpr framed
      exact ⟨framed, (walkTables_conforms_iff fits (Nat.le_refl _) (Or.inr same)).mp conforms⟩
    · rintro ⟨framed, clean⟩
      have same := (frameFits_iff fits.width _).mpr framed
      exact (walkTables_conforms_iff fits (Nat.le_refl _) (Or.inr same)).mpr clean
  · rw [if_neg canonical, if_neg canonical]
    exact iff_of_true (conforms_fail [] (Nat.zero_le _)) fun isCanonical => absurd isCanonical canonical

/-- The walk is the specified one, up to the page of the address, exactly if the specified
walk is clean; with the offset, exactly if moreover the address of a successful access is
the start of a page. In any case it ends within the levels, and a failure stores nothing. -/
theorem getPhysicalAddress_conforms_iff (valid : validateVm H (vmField H regs) = true)
    (paged : vmMode H regs = .paged scheme) (translated : effectiveMode regs mmuIdx access ≠ prvM) :
    (ConformsAt H regs scheme (fun leaf => scheme.page address leaf * 2 ^ pgshift) mem address
        access mmuIdx noPageFault ↔
      WalksCleanly H regs scheme mem address access mmuIdx) ∧
    (ConformsAt H regs scheme (scheme.physical address) mem address access mmuIdx noPageFault ↔
      WalksCleanly H regs scheme mem address access mmuIdx ∧
        ((specifiedWalk H regs scheme mem address access mmuIdx).2.isSome = true →
          address.toNat % 2 ^ pgshift = 0)) ∧
    (getPhysicalAddress H regs mem address access mmuIdx noPageFault).reads.length ≤ scheme.levels ∧
    ((getPhysicalAddress H regs mem address access mmuIdx noPageFault).outcome = .fail →
      (getPhysicalAddress H regs mem address access mmuIdx noPageFault).memory = mem) := by
  have fits := fits_of_mem H.xlen_eq (mem_schemes_of_valid H regs valid paged)
  have pageLevel : ConformsAt H regs scheme (fun leaf => scheme.page address leaf * 2 ^ pgshift)
      mem address access mmuIdx noPageFault ↔ WalksCleanly H regs scheme mem address access mmuIdx :=
    conformsAt_page_iff fits paged translated
  have equation : getPhysicalAddress H regs mem address access mmuIdx noPageFault =
      if scheme.Canonical address then
        walkTables scheme (privileges H regs (effectiveMode regs mmuIdx access)) mem address access
          scheme.levels (rootPpn H regs <<< pgshift)
      else ⟨.fail, mem, []⟩ := getPhysicalAddress_paged fits paged translated
  refine ⟨pageLevel, ?_, ?_, ?_⟩
  · rw [← pageLevel]
    apply conforms_physical_iff
    intro physical prot success
    rw [equation] at success
    split_ifs at success
    exact walkTables_physical fits success
  · rw [equation]
    split_ifs
    · exact walkTables_terminates _ _
    · exact Nat.zero_le _
  · rw [equation]
    intro fail
    split_ifs at fail ⊢
    · exact walkTables_fail fail
    · rfl

end Hart

/-- Sv39 with the root table at `0x80000`. -/
def sampleRegisters : Registers 64 where
  mstatus := 0
  satp := 0x8000000000000080
  sptbr := 0

def superpage (ppn : BitVec 64) : Memory 64 := fun address =>
  if address = 0x80000 then (ppn <<< 10) ||| 0xDF else 0

/-- A load of user code through a leaf at the top level. -/
theorem getPhysicalAddress_conforms_iff_sample :
    ConformsAt sampleHart sampleRegisters sv39 (fun leaf => sv39.page 0x1234 leaf * 2 ^ pgshift)
      (superpage 0x40000) 0x1234 .dataLoad prvU false := by
  have clean : WalksCleanly sampleHart sampleRegisters sv39 (superpage 0x40000) 0x1234 .dataLoad
      prvU := by
    have root : FrameFits (rootPpn sampleHart sampleRegisters) :=
      (frameFits_iff (.inr rfl) _).mp (by decide)
    have leaf : FrameFits (superpage 0x40000 0x80000 >>> 10) :=
      (frameFits_iff (.inr rfl) _).mp (by decide)
    have userMode : ¬ Overgranted (privileges sampleHart sampleRegisters prvU)
        (superpage 0x40000 0x80000) := fun exceeded => absurd exceeded.1 (by decide)
    exact fun _ => ⟨root, fun _ => ⟨by decide, leaf, userMode⟩⟩
  exact (getPhysicalAddress_conforms_iff (by decide) rfl (by decide)).1.mpr clean

/-- A leaf at the top level whose page number is not a multiple of its size: the
specified walk finds no leaf that permits the access, and the code succeeds. -/
theorem getPhysicalAddress_accepts_misaligned :
    validateVm sampleHart (vmField sampleHart sampleRegisters) = true ∧
      vmMode sampleHart sampleRegisters = .paged sv39 ∧
      (specifiedWalk sampleHart sampleRegisters sv39 (superpage 1) 0 .dataLoad prvU).2.isNone = true ∧
      (getPhysicalAddress sampleHart sampleRegisters (superpage 1) 0 .dataLoad prvU false).outcome =
        .success 0x1000 7 := by
  refine ⟨by decide, by decide, by decide, by decide⟩

end Tlib.Riscv.Paging
