import Mathlib.Data.List.Induction
import Mathlib.Logic.Function.Basic
import Mathlib.Tactic.ByContra
import Tlib.Riscv.TrapEntry

/-!
Contract: the registers that an external handler implements.

Owns: the bitmap of installed numbers, and the route of an access before and after it is looked up
there.
-/

namespace Tlib.Riscv.CustomCsrs

open BitVec List

open Tlib.Riscv.Trap (PrivilegeArchitecture prvU prvS prvM intShift intShift_bit)

variable {xlen : Nat}

def maxCsrId : Nat := 0xFFF

def csrsPerSlot : Nat := 64

/-- The words of `custom_csrs`. -/
abbrev Slots := Nat → BitVec 64

/-- `1 << slotOffset`, an `int` that is converted to the type of a slot. -/
def slotBit (id : Nat) : BitVec 64 := intShift (BitVec.ofNat 64 (id % csrsPerSlot))

def hasCustomCsr (slots : Slots) (id : Nat) : Bool :=
  if id > maxCsrId then false else slots (id / csrsPerSlot) &&& slotBit id ≠ 0

def tlibInstallCustomCsr (slots : Slots) (id : BitVec 16) : Slots × Int :=
  if id.toNat > maxCsrId then (slots, -1)
  else
    let slotId := id.toNat / csrsPerSlot
    (Function.update slots slotId (slots slotId ||| slotBit id.toNat), 0)

def installAll (ids : List (BitVec 16)) : Slots :=
  ids.foldl (fun slots id => (tlibInstallCustomCsr slots id).1) fun _ => 0

/-- What decides where an access goes. -/
structure Hart (xlen : Nat) where
  privilegeArchitecture : PrivilegeArchitecture
  /-- `riscv_has_ext(env, RISCV_FEATURE_RVS)` -/
  rvs : Bool
  (priv mcounteren scounteren : BitVec xlen)
  (mscounteren mucounteren : BitVec 32)
  deriving DecidableEq, Repr

def csrUnhandled : Nat := 0xFFFF

def notPresent : PrivilegeArchitecture → Nat → Bool
  | .priv111, csrno => csrno = 0x321
  | .priv110, csrno => csrno = 0x320 || csrno = 0x321
  | .priv109, csrno =>
    csrno = 0x106 || csrno = 0x306 || (0x3A0 ≤ csrno && csrno ≤ 0x3AF) ||
      (0x3B0 ≤ csrno && csrno ≤ 0x3EF) || (0x323 ≤ csrno && csrno ≤ 0x33F)
  | _, _ => false

def privVersionCsrFilter (H : Hart xlen) (csrno : Nat) : Nat :=
  if notPresent H.privilegeArchitecture csrno then csrUnhandled else csrno

/-- The ranges from `CSR_CYCLE`, `CSR_MCYCLE` and, on RV32, their upper halves. -/
def isCounterCsr (xlen csrno : Nat) : Bool :=
  (0xC00 ≤ csrno && csrno ≤ 0xC1F) || (0xB00 ≤ csrno && csrno ≤ 0xB1F) ||
    (xlen = 32 && ((0xC80 ≤ csrno && csrno ≤ 0xC9F) || (0xB80 ≤ csrno && csrno ≤ 0xB9F)))

/-- `none` stands for an abort. -/
def getCounterEnabledMask (H : Hart xlen) : Option (BitVec xlen) :=
  if H.priv = prvM then some (BitVec.ofNat xlen 0xFFFFFFFF)
  else if H.privilegeArchitecture.since110 then
    if H.priv = prvS then some H.mcounteren
    else if H.priv = prvU then
      some (if H.rvs then H.mcounteren &&& H.scounteren else H.mcounteren)
    else none
  else if H.priv = prvS then some (H.mscounteren.setWidth xlen)
  else if H.priv = prvU then some (H.mucounteren.setWidth xlen)
  else none

/-- Where an access goes. -/
inductive Route where
  /-- `tlib_read_csr` or `tlib_write_csr` -/
  | external (csrno : Nat)
  | own (csrno : Nat)
  | illegalInstruction
  | abort
  deriving DecidableEq, Repr

def routeOf (slots : Slots) (csrno : Nat) : Route :=
  if hasCustomCsr slots csrno then .external csrno else .own csrno

def csrWriteHelper (H : Hart xlen) (slots : Slots) (csrno : Nat) : Route :=
  routeOf slots (privVersionCsrFilter H csrno)

def csrReadHelper (H : Hart xlen) (slots : Slots) (csrno : Nat) : Route :=
  let csrno := privVersionCsrFilter H csrno
  if isCounterCsr xlen csrno then
    match getCounterEnabledMask H with
    | none => .abort
    | some enabled =>
      if enabled.getLsbD (csrno % 32) then routeOf slots csrno else .illegalInstruction
  else routeOf slots csrno

def Installed (ids : List (BitVec 16)) (id : Nat) : Prop := id ≤ maxCsrId ∧ ∃ n ∈ ids, n.toNat = id

def Route.IsExternal : Route → Prop
  | .external _ => True
  | _ => False

/-- The set of installed numbers is exact for a number, and so are the accessors. -/
structure Follows (H : Hart xlen) (ids : List (BitVec 16)) (id : Nat) : Prop where
  has : hasCustomCsr (installAll ids) id = true ↔ Installed ids id
  writes : Installed ids id → csrWriteHelper H (installAll ids) id = .external id
  reads : Installed ids id → csrReadHelper H (installAll ids) id = .external id
  keepsWrites : ¬Installed ids id → ¬(csrWriteHelper H (installAll ids) id).IsExternal
  keepsReads : ¬Installed ids id → ¬(csrReadHelper H (installAll ids) id).IsExternal

def partner (id : Nat) : Nat := if id % csrsPerSlot < 32 then id + 32 else id - 32

def Readable (H : Hart xlen) (id : Nat) : Prop :=
  isCounterCsr xlen id = true →
    ∃ enabled, getCounterEnabledMask H = some enabled ∧ enabled.getLsbD (id % 32) = true

variable {H : Hart xlen} {slots : Slots} {ids : List (BitVec 16)} {id n i : Nat}

theorem slotBit_bit (less : i < 64) :
    (slotBit id).getLsbD i = decide (if i < 32 then i = id % 32 else id % 32 = 31) := by
  have offset : id % 64 % 32 = id % 32 := Nat.mod_mod_of_dvd id (by decide)
  have small : (BitVec.ofNat 64 (id % 64)).toNat = id % 64 := by
    rw [toNat_ofNat]
    omega
  unfold slotBit csrsPerSlot
  rw [intShift_bit _ less, small, offset]

theorem slotBit_and_ne_zero_iff : slotBit n &&& slotBit id ≠ 0 ↔ n % 32 = id % 32 := by
  rw [Tlib.Library.BitFields.ne_zero_iff]
  constructor
  · rintro ⟨i, less, set⟩
    rw [getLsbD_and, slotBit_bit less, slotBit_bit less, Bool.and_eq_true,
      decide_eq_true_eq, decide_eq_true_eq] at set
    obtain ⟨left, right⟩ := set
    by_cases low : i < 32
    · rw [if_pos low] at left right
      exact left.symm.trans right
    · rw [if_neg low] at left right
      exact left.trans right.symm
  · intro same
    have less : id % 32 < 32 := Nat.mod_lt _ (by decide)
    refine ⟨id % 32, by omega, ?_⟩
    rw [getLsbD_and, slotBit_bit (by omega), slotBit_bit (by omega)]
    simp [less, same]

theorem and_or_ne_zero_iff (x y z : BitVec 64) :
    (x ||| y) &&& z ≠ 0 ↔ x &&& z ≠ 0 ∨ y &&& z ≠ 0 := by
  rw [Tlib.Library.BitFields.ne_zero_iff, Tlib.Library.BitFields.ne_zero_iff,
    Tlib.Library.BitFields.ne_zero_iff, ← exists_or]
  refine exists_congr fun i => ?_
  simp only [getLsbD_and, getLsbD_or, Bool.and_eq_true, Bool.or_eq_true]
  rw [or_and_right, and_or_left]

theorem hasCustomCsr_install (id : Nat) (n : BitVec 16) :
    hasCustomCsr (tlibInstallCustomCsr slots n).1 id = true ↔
      hasCustomCsr slots id = true ∨ id ≤ maxCsrId ∧ n.toNat ≤ maxCsrId ∧
        n.toNat / csrsPerSlot = id / csrsPerSlot ∧ n.toNat % 32 = id % 32 := by
  unfold hasCustomCsr tlibInstallCustomCsr
  by_cases beyond : id > maxCsrId
  · simp [Nat.not_le.mpr beyond]
  · rw [if_neg beyond, if_neg beyond]
    by_cases refused : n.toNat > maxCsrId
    · simp [refused, Nat.not_le.mpr refused]
    · rw [if_neg refused]
      by_cases slot : n.toNat / csrsPerSlot = id / csrsPerSlot
      · simp only [slot, Function.update_self, decide_eq_true_eq, and_or_ne_zero_iff,
          slotBit_and_ne_zero_iff]
        simp [Nat.le_of_not_gt beyond, Nat.le_of_not_gt refused]
      · simp [Function.update_of_ne (Ne.symm slot), slot]

theorem hasCustomCsr_iff : hasCustomCsr (installAll ids) id = true ↔
      id ≤ maxCsrId ∧ ∃ n ∈ ids, n.toNat ≤ maxCsrId ∧
        n.toNat / csrsPerSlot = id / csrsPerSlot ∧ n.toNat % 32 = id % 32 := by
  unfold installAll
  induction ids using reverseRecOn with
  | nil =>
    unfold hasCustomCsr
    simp
  | append_singleton first n ih =>
    rw [foldl_append, foldl_cons, foldl_nil, hasCustomCsr_install, ih]
    constructor
    · rintro (⟨small, earlier, member, same⟩ | ⟨small, same⟩)
      · exact ⟨small, earlier, mem_append_left _ member, same⟩
      · exact ⟨small, n, mem_append_right _ (mem_singleton_self n), same⟩
    · rintro ⟨small, m, member, same⟩
      rcases mem_append.mp member with earlier | last
      · exact .inl ⟨small, m, earlier, same⟩
      · rw [mem_singleton] at last
        exact .inr ⟨small, last ▸ same⟩

theorem same_bit_iff :
    n / csrsPerSlot = id / csrsPerSlot ∧ n % 32 = id % 32 ↔ n = id ∨ n = partner id := by
  unfold partner csrsPerSlot
  split <;> omega

theorem hasCustomCsr_iff_partner : hasCustomCsr (installAll ids) id = true ↔
      Installed ids id ∨ id ≤ maxCsrId ∧ Installed ids (partner id) := by
  have reach : id ≤ maxCsrId → partner id ≤ maxCsrId := by
    unfold partner csrsPerSlot maxCsrId
    split <;> omega
  rw [hasCustomCsr_iff]
  constructor
  · rintro ⟨small, n, member, _, same⟩
    rcases same_bit_iff.mp same with self | other
    · exact .inl ⟨small, n, member, self⟩
    · exact .inr ⟨small, reach small, n, member, other⟩
  · rintro (⟨small, n, member, self⟩ | ⟨small, _, n, member, other⟩)
    · exact ⟨small, n, member, by omega, same_bit_iff.mpr (.inl self)⟩
    · have := reach small
      exact ⟨small, n, member, by omega, same_bit_iff.mpr (.inr other)⟩

theorem csrUnhandled_not_custom : hasCustomCsr slots csrUnhandled = false := rfl

theorem routeOf_external_iff {csrno : Nat} :
    (routeOf slots csrno).IsExternal ↔ hasCustomCsr slots csrno = true := by
  unfold routeOf
  cases hasCustomCsr slots csrno <;> simp [Route.IsExternal]

theorem csrWriteHelper_eq_external_iff (present : hasCustomCsr slots id = true) :
    csrWriteHelper H slots id = .external id ↔ notPresent H.privilegeArchitecture id = false := by
  unfold csrWriteHelper privVersionCsrFilter routeOf
  cases notPresent H.privilegeArchitecture id with
  | true => simp [csrUnhandled_not_custom]
  | false => simp [present]

theorem csrReadHelper_present (present : notPresent H.privilegeArchitecture id = false)
    (readable : Readable H id) : csrReadHelper H slots id = routeOf slots id := by
  unfold csrReadHelper privVersionCsrFilter
  rw [present]
  simp only [Bool.false_eq_true, if_false]
  split
  next counter =>
    obtain ⟨enabled, mask, bit⟩ := readable counter
    rw [mask]
    simp [bit]
  next => rfl

theorem csrReadHelper_external {csrno : Nat} (read : csrReadHelper H slots id = .external csrno) :
    Readable H (privVersionCsrFilter H id) ∧ hasCustomCsr slots (privVersionCsrFilter H id) = true ∧
      privVersionCsrFilter H id = csrno := by
  unfold csrReadHelper at read
  simp only at read
  generalize privVersionCsrFilter H id = filtered at read ⊢
  have custom (route : routeOf slots filtered = .external csrno) :
      hasCustomCsr slots filtered = true ∧ filtered = csrno := by
    unfold routeOf at route
    split at route
    next has => exact ⟨has, Route.external.inj route⟩
    next => cases route
  split at read
  next counter =>
    split at read
    · cases read
    next enabled mask =>
      split at read
      next bit => exact ⟨fun _ => ⟨enabled, mask, bit⟩, custom read⟩
      next => cases read
  next plain => exact ⟨fun counter => absurd counter plain, custom read⟩

theorem filtered_custom (has : hasCustomCsr slots (privVersionCsrFilter H id) = true) :
    notPresent H.privilegeArchitecture id = false := by
  unfold privVersionCsrFilter at has
  cases absent : notPresent H.privilegeArchitecture id with
  | true =>
    rw [absent, if_pos rfl, csrUnhandled_not_custom] at has
    cases has
  | false => rfl

theorem privVersionCsrFilter_present (present : notPresent H.privilegeArchitecture id = false) :
    privVersionCsrFilter H id = id := by
  unfold privVersionCsrFilter
  rw [present]
  rfl

/-- An installed number is implemented and enabled, and its partner is installed too. -/
def Separate (H : Hart xlen) (ids : List (BitVec 16)) (id : Nat) : Prop :=
  (Installed ids id → notPresent H.privilegeArchitecture id = false ∧ Readable H id) ∧
    (¬Installed ids id → id ≤ maxCsrId → ¬Installed ids (partner id))

/-- After any sequence of calls a number is redirected exactly if it is installed, exactly for
the separate ones. -/
theorem follows_iff (H : Hart xlen) (ids : List (BitVec 16)) (id : Nat) :
    Follows H ids id ↔ Separate H ids id := by
  have found : Installed ids id → hasCustomCsr (installAll ids) id = true :=
    fun installed => hasCustomCsr_iff_partner.mpr (.inl installed)
  constructor
  · intro follows
    refine ⟨fun installed => ?_, fun other small partner => ?_⟩
    · have present := (csrWriteHelper_eq_external_iff (found installed)).mp
        (follows.writes installed)
      have readable := (csrReadHelper_external (follows.reads installed)).1
      rw [privVersionCsrFilter_present present] at readable
      exact ⟨present, readable⟩
    · exact other (follows.has.mp (hasCustomCsr_iff_partner.mpr (.inr ⟨small, partner⟩)))
  · rintro ⟨reached, apart⟩
    have has : hasCustomCsr (installAll ids) id = true ↔ Installed ids id := by
      refine ⟨fun custom => ?_, found⟩
      rcases hasCustomCsr_iff_partner.mp custom with installed | ⟨small, partner⟩
      · exact installed
      · by_contra other
        exact apart other small partner
    refine ⟨has, fun installed => ?_, fun installed => ?_, fun other external => ?_,
      fun other external => ?_⟩
    · exact (csrWriteHelper_eq_external_iff (found installed)).mpr (reached installed).1
    · obtain ⟨present, readable⟩ := reached installed
      rw [csrReadHelper_present present readable]
      unfold routeOf
      rw [if_pos (found installed)]
    · have custom := routeOf_external_iff.mp external
      rw [privVersionCsrFilter_present (filtered_custom custom)] at custom
      exact other (has.mp custom)
    · generalize route : csrReadHelper H (installAll ids) id = way at external
      cases way with
      | external csrno =>
        have custom := (csrReadHelper_external route).2.1
        rw [privVersionCsrFilter_present (filtered_custom custom)] at custom
        exact other (has.mp custom)
      | own => exact external
      | illegalInstruction => exact external
      | abort => exact external

def sampleHart : Hart 64 where
  privilegeArchitecture := .priv111
  rvs := true
  priv := prvM
  mcounteren := 0
  scounteren := 0
  mscounteren := 0
  mucounteren := 0

/-- With `0x7C0` installed, accesses of `0x7E0` go to the handler as well. -/
theorem install_redirects_partner :
    ¬∀ (H : Hart 64) (ids : List (BitVec 16)) (id : Nat), Follows H ids id := by
  intro exact_
  have redirected : (csrWriteHelper sampleHart (installAll [0x7C0]) 0x7E0).IsExternal := by
    trivial
  refine (exact_ sampleHart [0x7C0] 0x7E0).keepsWrites ?_ redirected
  rintro ⟨_, n, member, same⟩
  rw [mem_singleton.mp member] at same
  exact absurd same (by decide)

end Tlib.Riscv.CustomCsrs
