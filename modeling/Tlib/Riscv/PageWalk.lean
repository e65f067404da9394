import Tlib.Library.BitMasks
import Tlib.Riscv.PageTables

/-!
Contract: `get_physical_address`.

Owns: the choice of the translation mode and the walk with its stores. Does not own: physical
memory protection and the TLB, which the callers consult with the result. The result is a page;
the offset is added by the TLB.
-/

namespace Tlib.Riscv.Paging

open Tlib.Library.BitFields Tlib.Library.BitMasks BitVec Nat
open Tlib.Riscv.Trap
open Tlib.Softmmu (AccessType)

variable {xlen : Nat}

/-- The registers of the hart that `get_physical_address` reads. -/
structure Registers (xlen : Nat) where
  (mstatus satp sptbr : BitVec xlen)
  deriving DecidableEq, Repr

def satpPpn (xlen : Nat) : Field := if xlen = 32 then ⟨0, 22⟩ else ⟨0, 44⟩
def satpMode (xlen : Nat) : Field := if xlen = 32 then ⟨31, 1⟩ else ⟨60, 4⟩
/-- `MSTATUS_PUM`, the bit that became `MSTATUS_SUM`. -/
def mstatusPum : Field := mstatusSum

inductive VmMode where
  | mbare
  | paged (scheme : Scheme)
  | unsupported
  deriving DecidableEq, Repr

section Modes

variable (H : Hart xlen) (regs : Registers xlen)

/-- `vm` -/
def vmField : BitVec xlen :=
  if H.privilegeArchitecture.since110 then getField regs.satp (satpMode xlen)
  else getField regs.mstatus mstatusVm

def vmMode : VmMode :=
  if H.privilegeArchitecture.since110 then
    match (vmField H regs).toNat with
    | 0 => .mbare
    | 1 => .paged sv32
    | 8 => .paged sv39
    | 9 => .paged sv48
    | 10 => .paged sv57
    | _ => .unsupported
  else
    match (vmField H regs).toNat with
    | 0 => .mbare
    | 8 => .paged sv32
    | 9 => .paged sv39
    | 10 => .paged sv48
    | _ => .unsupported

/-- The page number of the root table, before the shift by `PGSHIFT`. -/
def rootPpn : BitVec xlen :=
  if H.privilegeArchitecture.since110 then getField regs.satp (satpPpn xlen) else regs.sptbr

/-- `mode`: `MSTATUS_MPRV` replaces M-mode for loads and stores. -/
def effectiveMode (mmuIdx : BitVec xlen) (access : AccessType) : BitVec xlen :=
  if mmuIdx = prvM && access ≠ .instFetch && getField regs.mstatus mstatusMprv ≠ 0 then
    getField regs.mstatus mstatusMpp
  else mmuIdx

/-- `mode == PRV_S`, `sum`, `mxr`, and whether `sum` holds for fetches. -/
def privileges (mode : BitVec xlen) : Privileges where
  supervisor := mode = prvS
  sum :=
    if H.privilegeArchitecture.since110 then getField regs.mstatus mstatusSum ≠ 0
    else getField regs.mstatus mstatusPum = 0
  mxr := getField regs.mstatus mstatusMxr ≠ 0
  userFetch := !H.privilegeArchitecture.since111

end Modes

/-- `TRANSLATE_SUCCESS` with `*physical` and `*prot`, `TRANSLATE_FAIL`, or an abort. -/
inductive Outcome (xlen : Nat) where
  | success (physical : BitVec xlen) (prot : Nat)
  | fail
  | abort
  deriving DecidableEq, Repr

/-- The outcome, the memory afterwards, and the entries that were read. -/
structure Walk (xlen : Nat) where
  outcome : Outcome xlen
  memory : Memory xlen
  reads : List Nat

/-- `is_within_legal_address_space`; `none` is an abort. -/
def isWithinLegalAddressSpace (address : BitVec xlen) (access : AccessType) (noPageFault : Bool) :
    Option Bool :=
  if xlen = 32 then some true
  else
    let mask : BitVec xlen := ((1 : BitVec xlen) <<< 56) - 1
    if address &&& ~~~mask = 0 then some true
    else if !noPageFault && access = .instFetch then none
    else some false

def untranslated (mem : Memory xlen) (address : BitVec xlen) (access : AccessType)
    (noPageFault : Bool) : Walk xlen :=
  match isWithinLegalAddressSpace address access noPageFault with
  | none => ⟨.abort, mem, []⟩
  | some false => ⟨.fail, mem, []⟩
  | some true => ⟨.success address 7, mem, []⟩

def pteTable (pte : BitVec xlen) : Bool := pteV pte && !pteR pte && !pteW pte && !pteX pte

/-- The four conditions that leave the loop with `TRANSLATE_FAIL`, in order. -/
def refused (p : Privileges) (pte : BitVec xlen) (access : AccessType) : Bool :=
  (pteU pte && p.supervisor && (!p.sum || (!p.userFetch && access = .instFetch))) ||
  (!pteU pte && !p.supervisor) ||
  (!pteV pte || (!pteR pte && pteW pte)) ||
  match access with
  | .instFetch => !pteX pte
  | .dataLoad => !pteR pte && !(p.mxr && pteX pte)
  | .dataStore => !(pteR pte && pteW pte)

/-- `*prot` at the leaf. -/
def leafProt (p : Privileges) (pte : BitVec xlen) (access : AccessType) : Nat :=
  (if pteX pte then AccessType.instFetch.mask else 0) |||
  (if pteW pte && (access = .dataStore || pteD pte) then AccessType.dataStore.mask else 0) |||
  (if pteR pte || (pteX pte && p.mxr) then AccessType.dataLoad.mask else 0)

/-- `pte_addr`, with `level * ptidxbits` for `ptshift` -/
def pteAddr (scheme : Scheme) (addr : BitVec xlen) (level : Nat) (base : BitVec xlen) :
    BitVec xlen :=
  let ptshift := level * scheme.ptidxbits
  let idx := (addr >>> (pgshift + ptshift)) &&& (((1 : BitVec xlen) <<< scheme.ptidxbits) - 1)
  base + idx * BitVec.ofNat xlen scheme.ptesize

/-- `*physical`: for superpage mappings, a fake leaf PTE for the TLB's benefit. -/
def leafPhysical (scheme : Scheme) (addr : BitVec xlen) (level : Nat) (ppn : BitVec xlen) :
    BitVec xlen :=
  let ptshift := level * scheme.ptidxbits
  let vpn := addr >>> pgshift
  (ppn ||| (vpn &&& (((1 : BitVec xlen) <<< ptshift) - 1))) <<< pgshift

def storeUsed (mem : Memory xlen) (pteAddr : BitVec xlen) (access : AccessType) : Memory xlen :=
  let pte := mem pteAddr.toNat
  let updatedPte := pte ||| 0x40 ||| (if access = .dataStore then 0x80 else 0)
  if pte ≠ updatedPte then Function.update mem pteAddr.toNat updatedPte else mem

/-- The loop, with `levels - i` as the first argument. -/
def walkTables (scheme : Scheme) (p : Privileges) (mem : Memory xlen) (addr : BitVec xlen)
    (access : AccessType) : Nat → BitVec xlen → Walk xlen
  | 0, _ => ⟨.fail, mem, []⟩
  | level + 1, base =>
    let pteAddr := pteAddr scheme addr level base
    let pte := mem pteAddr.toNat
    let ppn := pte >>> 10
    if pteTable pte then
      let rest := walkTables scheme p mem addr access level (ppn <<< pgshift)
      { rest with reads := pteAddr.toNat :: rest.reads }
    else if refused p pte access then ⟨.fail, mem, [pteAddr.toNat]⟩
    else
      ⟨.success (leafPhysical scheme addr level ppn) (leafProt p pte access),
        storeUsed mem pteAddr access, [pteAddr.toNat]⟩

def maskedMsbs (scheme : Scheme) (addr : BitVec xlen) : BitVec xlen :=
  (addr >>> (scheme.vaBits - 1)) &&& (((1 : BitVec xlen) <<< (xlen - (scheme.vaBits - 1))) - 1)

def getPhysicalAddress (H : Hart xlen) (regs : Registers xlen) (mem : Memory xlen)
    (address : BitVec xlen) (access : AccessType) (mmuIdx : BitVec xlen) (noPageFault : Bool) :
    Walk xlen :=
  let mode := effectiveMode regs mmuIdx access
  if mode = prvM then untranslated mem address access noPageFault
  else
    match vmMode H regs with
    | .mbare => untranslated mem address access noPageFault
    | .unsupported => ⟨.abort, mem, []⟩
    | .paged scheme =>
      let mask : BitVec xlen := ((1 : BitVec xlen) <<< (xlen - (scheme.vaBits - 1))) - 1
      let masked := maskedMsbs scheme address
      if masked ≠ 0 ∧ masked ≠ mask then ⟨.fail, mem, []⟩
      else
        walkTables scheme (privileges H regs mode) mem address access scheme.levels
          (rootPpn H regs <<< pgshift)

/-- The bits of a page number that only one of code and architecture uses. -/
def strayBits (xlen : Nat) : Field := if xlen = 32 then ⟨20, 2⟩ else ⟨44, 8⟩

def FrameFits (ppn : BitVec xlen) : Prop := ∀ i, (strayBits xlen).Has i → ppn.getLsbD i = false

theorem toNat_shiftPage (ppn : BitVec xlen) (le : pgshift ≤ xlen) :
    (ppn <<< pgshift).toNat = ppn.toNat % 2 ^ (xlen - pgshift) * 2 ^ pgshift := by
  have split : 2 ^ xlen = 2 ^ (xlen - pgshift) * 2 ^ pgshift := by
    rw [← Nat.pow_add, Nat.sub_add_cancel le]
  rw [toNat_shiftLeft, Nat.shiftLeft_eq, split, mul_mod_mul_right]

theorem frameFits_iff (width : xlen = 32 ∨ xlen = 64) (ppn : BitVec xlen) :
    (ppn <<< pgshift).toNat = pageNumber ppn * 2 ^ pgshift ↔ FrameFits ppn := by
  have cut : ∀ m n, m * 2 ^ pgshift = n * 2 ^ pgshift ↔ m = n := fun m n =>
    Nat.mul_left_inj (by decide)
  rcases width with rfl | rfl
  · rw [toNat_shiftPage ppn (by decide), cut, eq_comm]
    refine (mod_two_pow_eq_iff (by decide)).trans (forall_congr' fun i => ?_)
    exact and_imp.symm
  · rw [toNat_shiftPage ppn (by decide), cut]
    refine (mod_two_pow_eq_iff (by decide)).trans (forall_congr' fun i => ?_)
    exact and_imp.symm

structure Scheme.Fits (scheme : Scheme) (xlen : Nat) : Prop where
  width : xlen = 32 ∨ xlen = 64
  levels_pos : 0 < scheme.levels
  vaBits_le : scheme.vaBits ≤ xlen
  table_size : 2 ^ scheme.ptidxbits * scheme.ptesize = 2 ^ pgshift
  below : (scheme.levels - 1) * scheme.ptidxbits ≤ (strayBits xlen).shift
  ptidxbits_lt : scheme.ptidxbits < xlen

theorem fits_of_mem (width : xlen = 32 ∨ xlen = 64) {scheme : Scheme}
    (member : scheme ∈ schemes xlen) : scheme.Fits xlen := by
  rcases width with rfl | rfl
  · rw [schemes, if_pos rfl, List.mem_singleton] at member
    rw [member]
    exact ⟨.inl rfl, by decide, by decide, by decide, by decide, by decide⟩
  · simp only [schemes, show ¬ (64 = 32) by decide, if_false, List.mem_cons, List.not_mem_nil,
      or_false] at member
    rcases member with rfl | rfl | rfl <;>
      exact ⟨.inr rfl, by decide, by decide, by decide, by decide, by decide⟩

section Fits

variable {scheme : Scheme} (fits : scheme.Fits xlen)
include fits

theorem Scheme.Fits.pgshift_le : pgshift ≤ xlen := by
  rcases fits.width with rfl | rfl <;> decide

theorem Scheme.Fits.ptshift_le {level : Nat} (less : level < scheme.levels) :
    level * scheme.ptidxbits ≤ (strayBits xlen).shift :=
  Nat.le_trans (Nat.mul_le_mul_right _ (le_sub_one_of_lt less)) fits.below

theorem Scheme.Fits.strayBits_shift_lt : (strayBits xlen).shift < xlen := by
  rcases fits.width with rfl | rfl <;> decide

theorem canonical_iff (addr : BitVec xlen) : scheme.Canonical addr ↔ maskedMsbs scheme addr = 0 ∨
      maskedMsbs scheme addr = ((1 : BitVec xlen) <<< (xlen - (scheme.vaBits - 1))) - 1 := by
  have positive : pgshift ≤ scheme.vaBits := Nat.le_add_right _ _
  have long : 1 < scheme.vaBits := Nat.lt_of_lt_of_le (by decide) positive
  have less : xlen - (scheme.vaBits - 1) < xlen := by
    have := fits.vaBits_le
    omega
  have maskBit : ∀ i < xlen, (((1 : BitVec xlen) <<< (xlen - (scheme.vaBits - 1))) - 1).getLsbD i =
      decide (i < xlen - (scheme.vaBits - 1)) := by
    intro i _
    rw [← testBit_toNat, toNat_lowMask less, testBit_two_pow_sub_one]
  have bit : ∀ i < xlen, (maskedMsbs scheme addr).getLsbD i =
      (decide (i < xlen - (scheme.vaBits - 1)) && addr.getLsbD (scheme.vaBits - 1 + i)) := by
    intro i inside
    rw [maskedMsbs, getLsbD_and, maskBit i inside, getLsbD_ushiftRight, Bool.and_comm]
  constructor
  · intro canonical
    have same : ∀ i < xlen - (scheme.vaBits - 1),
        addr.getLsbD (scheme.vaBits - 1 + i) = addr.getLsbD (scheme.vaBits - 1) := by
      intro i inside
      by_cases first : i = 0
      · rw [first, Nat.add_zero]
      · exact canonical _ (by omega) (by omega)
    cases top : addr.getLsbD (scheme.vaBits - 1) with
    | false =>
      left
      apply eq_of_bits
      intro i inside
      rw [bit i inside]
      by_cases high : i < xlen - (scheme.vaBits - 1)
      · simp [same i high, top]
      · simp [high]
    | true =>
      right
      apply eq_of_bits
      intro i inside
      rw [bit i inside, maskBit i inside]
      by_cases high : i < xlen - (scheme.vaBits - 1)
      · simp [same i high, top]
      · simp [high]
  · intro either
    have constant : ∃ value, ∀ i < xlen - (scheme.vaBits - 1),
        addr.getLsbD (scheme.vaBits - 1 + i) = value := by
      rcases either with zero | ones
      · refine ⟨false, fun i inside => ?_⟩
        have here := bit i (by omega)
        rw [zero] at here
        simpa [inside] using here.symm
      · refine ⟨true, fun i inside => ?_⟩
        have here := bit i (by omega)
        rw [ones, maskBit i (by omega)] at here
        simpa [inside] using here.symm
    obtain ⟨value, all⟩ := constant
    intro j less above
    have first := all 0 (by omega)
    have here := all (j - (scheme.vaBits - 1)) (by omega)
    rw [Nat.add_zero] at first
    rw [Nat.add_sub_cancel' (by omega)] at here
    rw [here, first]

theorem toNat_pteAddr (addr base : BitVec xlen) (level : Nat)
    (aligned : base.toNat % 2 ^ pgshift = 0) :
    (pteAddr scheme addr level base).toNat =
      base.toNat + scheme.vpn addr level * scheme.ptesize := by
  have index : ((addr >>> (pgshift + level * scheme.ptidxbits)) &&&
      (((1 : BitVec xlen) <<< scheme.ptidxbits) - 1)).toNat = scheme.vpn addr level := by
    rw [toNat_and_lowMask _ fits.ptidxbits_lt, toNat_ushiftRight,
      shiftRight_eq_div_pow, Scheme.vpn]
  have digit : scheme.vpn addr level < 2 ^ scheme.ptidxbits := mod_lt _ (Nat.two_pow_pos _)
  have size_pos : 0 < scheme.ptesize := by
    apply Nat.pos_of_ne_zero
    intro zero
    have table := fits.table_size
    rw [zero, Nat.mul_zero] at table
    exact absurd table (by decide)
  have offset : scheme.vpn addr level * scheme.ptesize < 2 ^ pgshift := by
    rw [← fits.table_size]
    exact Nat.mul_lt_mul_of_pos_right digit size_pos
  have size : scheme.ptesize ≤ 2 ^ pgshift := by
    rw [← fits.table_size]
    exact Nat.le_mul_of_pos_left _ (Nat.two_pow_pos _)
  have pages : 2 ^ xlen = 2 ^ pgshift * 2 ^ (xlen - pgshift) := by
    rw [← Nat.pow_add, Nat.add_sub_cancel' fits.pgshift_le]
  have wide : 2 ^ pgshift < 2 ^ xlen :=
    Nat.pow_lt_pow_right (by decide) (by rcases fits.width with rfl | rfl <;> decide)
  -- the last page ends at the end of the address space
  have room : base.toNat + 2 ^ pgshift ≤ 2 ^ xlen := by
    have quotient : base.toNat / 2 ^ pgshift < 2 ^ (xlen - pgshift) := by
      rw [Nat.div_lt_iff_lt_mul (Nat.two_pow_pos _), Nat.mul_comm, ← pages]
      exact base.isLt
    have parts := div_add_mod base.toNat (2 ^ pgshift)
    rw [aligned, Nat.add_zero] at parts
    calc base.toNat + 2 ^ pgshift
        = 2 ^ pgshift * (base.toNat / 2 ^ pgshift + 1) := by rw [Nat.mul_add, parts, Nat.mul_one]
      _ ≤ 2 ^ xlen := by
        rw [pages]
        exact Nat.mul_le_mul_left _ quotient
  rw [pteAddr, toNat_add, toNat_mul, index, toNat_ofNat,
    mod_eq_of_lt (Nat.lt_of_le_of_lt size wide), mod_eq_of_lt (offset.trans wide),
    mod_eq_of_lt (by omega)]

theorem leafPage_iff (addr ppn : BitVec xlen) {level : Nat} (less : level < scheme.levels)
    (aligned : pageNumber ppn % 2 ^ (level * scheme.ptidxbits) = 0) :
    (leafPhysical scheme addr level ppn).toNat =
      (pageNumber ppn / 2 ^ (level * scheme.ptidxbits) * 2 ^ (level * scheme.ptidxbits) +
        addr.toNat / 2 ^ pgshift % 2 ^ (level * scheme.ptidxbits)) * 2 ^ pgshift ↔
      FrameFits ppn := by
  have small := fits.ptshift_le less
  have inside := Nat.lt_of_le_of_lt small fits.strayBits_shift_lt
  have page : (strayBits xlen).shift ≤ ppnBits xlen := by
    rcases fits.width with rfl | rfl <;> decide
  unfold leafPhysical
  dsimp only
  generalize low_eq : (addr >>> pgshift) &&&
    (((1 : BitVec xlen) <<< (level * scheme.ptidxbits)) - 1) = low
  have low_toNat : low.toNat = addr.toNat / 2 ^ pgshift % 2 ^ (level * scheme.ptidxbits) := by
    rw [← low_eq, toNat_and_lowMask _ inside, toNat_ushiftRight, shiftRight_eq_div_pow]
  have low_lt : low.toNat < 2 ^ (level * scheme.ptidxbits) := by
    rw [low_toNat]
    exact mod_lt _ (Nat.two_pow_pos _)
  have low_bit : ∀ i, level * scheme.ptidxbits ≤ i → low.getLsbD i = false := by
    intro i above
    exact testBit_lt_two_pow (low_lt.trans_le (Nat.pow_le_pow_right (by decide) above))
  have number : pageNumber (ppn ||| low) =
      pageNumber ppn / 2 ^ (level * scheme.ptidxbits) * 2 ^ (level * scheme.ptidxbits) +
        low.toNat := by
    have multiple : pageNumber ppn / 2 ^ (level * scheme.ptidxbits) *
        2 ^ (level * scheme.ptidxbits) = pageNumber ppn := by
      have parts := div_add_mod (pageNumber ppn) (2 ^ (level * scheme.ptidxbits))
      rwa [aligned, Nat.add_zero, Nat.mul_comm] at parts
    have fitsPage : low.toNat % 2 ^ ppnBits xlen = low.toNat :=
      mod_eq_of_lt (low_lt.trans_le (Nat.pow_le_pow_right (by decide) (small.trans page)))
    calc pageNumber (ppn ||| low)
        = pageNumber ppn ||| low.toNat := by
          rw [pageNumber, toNat_or, or_mod_two_pow, fitsPage, ← pageNumber]
      _ = pageNumber ppn / 2 ^ (level * scheme.ptidxbits) * 2 ^ (level * scheme.ptidxbits) |||
            low.toNat := by rw [multiple]
      _ = _ := by
          rw [Nat.mul_comm]
          exact (two_pow_add_eq_or_of_lt low_lt _).symm
  rw [← low_toNat, ← number, frameFits_iff fits.width]
  refine forall₂_congr fun i has => ?_
  rw [getLsbD_or, low_bit i (small.trans has.1), Bool.or_false]

end Fits

end Tlib.Riscv.Paging
