import Mathlib.Tactic.IntervalCases
import Tlib.CortexM.ProtectionUnit

/-!
Contract: the regions and subregions of the protection unit of ARMv7.

Owns: `get_phys_addr_mpu`, the subregions that a page covers, and when its answer holds for the
page.
-/

namespace Tlib.CortexM

open Nat Option
open BitVec hiding not_not

/-- The registers of the regions, and what the background depends on. -/
structure Pmsav7 where
  numberOfMpuRegions : Nat
  (c6BaseAddress c6SizeAndEnable c6AccessControl c6SubregionDisable : Nat → Word)
  /-- `ARM_FEATURE_PMSA`, the bits `BR` and `V` of `SCTLR`, and `TARGET_PROTO_ARM_M` -/
  (pmsa backgroundRegion highVectors protoArmM : Bool)

inductive MpuResult where
  | success
  | permissionFault
  | backgroundFault
  /-- What `cortexm_check_default_mapping` returns where nothing is mapped. -/
  | unmapped
  deriving DecidableEq, Repr

def Prot.readExec : Prot := { read := true, write := false, exec := true }

def checked (prot : Prot) (access : AccessType) : MpuResult :=
  if prot.allows access then .success else .permissionFault

def cortexmCheckDefaultMapping (address : Nat) (access : AccessType) : Prot × MpuResult :=
  if 0xE0100000 ≤ address then (.none, .unmapped)
  else
    let prot :=
      if address < 0x1FFF0000 then .all
      else if address < 0x1FFF7800 then .readExec
      else if address < 0x40000000 then .all
      else if address < 0x60000000 then .readWrite
      else if address < 0xA0000000 then .all
      else .readWrite
    (prot, checked prot access)

def pmsav7CheckDefaultMapping (highVectors : Bool) (address : Nat) (access : AccessType) :
    Prot × MpuResult :=
  let prot : Prot :=
    if 0xF0000000 ≤ address ∧ highVectors = true ∨ address < 0x80000000 then .all else .readWrite
  (prot, checked prot access)

/-- `1 << count`, which is undefined from the width of the type on. -/
def shiftOne (count : Nat) : Option Nat := if count < 32 then some (2 ^ count) else none

def getMpuSubregionNumber (base size address : Nat) : Option Nat := do
  let subregionSize ← shiftOne ((size + (2 ^ 32 - 3)) % 2 ^ 32)
  some ((address + (2 ^ 32 - base)) % 2 ^ 32 / subregionSize)

def subregionDisabled (disable : Word) (number : Nat) : Option Bool := do
  let bit ← shiftOne number
  some (disable &&& BitVec.ofNat 32 bit ≠ 0#32)

/-- The loop over the subregions of a page. -/
def sameState (disable : Word) (enabled : Bool) : List Nat → Option Bool
  | [] => some true
  | i :: rest => do
    let disabled ← subregionDisabled disable i
    if enabled = !disabled then sameState disable enabled rest else some false

/-- `page_with_address_is_fully_covered_by_consistent_mpu_subregions` -/
def pageFullyCovered (disable : Word) (base size address : Nat) : Option Bool :=
  let pageStart := address / 1024 * 1024
  if pageStart < base ∨ (base + size) % 2 ^ 32 < (pageStart + 1024) % 2 ^ 32 then some false
  else do
    let first ← getMpuSubregionNumber base size pageStart
    let last ← getMpuSubregionNumber base size (pageStart + 1023)
    if first = last then some true
    else
      let disabled ← subregionDisabled disable first
      sameState disable (!disabled) (List.range' (first + 1) (last - first))

def Pmsav7.sizeField (mpu : Pmsav7) (n : Nat) : Nat :=
  ((mpu.c6SizeAndEnable n &&& 0x3E#32) >>> 1).toNat

/-- `size`, the exponent, and `base` with the bits below it cleared. -/
def Pmsav7.size (mpu : Pmsav7) (n : Nat) : Nat := mpu.sizeField n + 1

def Pmsav7.base (mpu : Pmsav7) (n : Nat) : Nat :=
  (mpu.c6BaseAddress n).toNat / 2 ^ mpu.size n * 2 ^ mpu.size n

/-- One turn of the loop over the regions. -/
structure Turn where
  (ends notWhole inPage : Bool)
  deriving DecidableEq

def Pmsav7.turn (mpu : Pmsav7) (address n : Nat) : Option Turn :=
  if mpu.c6SizeAndEnable n &&& 1#32 = 0#32 ∨ mpu.sizeField n ≤ 3 then
    some { ends := false, notWhole := false, inPage := false }
  else
    let size := mpu.size n
    let base := mpu.base n
    let inPage := address / 1024 = base / 1024
    if base ≤ address ∧ address ≤ (base + (2 ^ size - 1)) % 2 ^ 32 then
      if 8 ≤ size then do
        let bytes ← shiftOne size
        let covered ← pageFullyCovered (mpu.c6SubregionDisable n) base bytes address
        let number ← getMpuSubregionNumber base size address
        let disabled ← subregionDisabled (mpu.c6SubregionDisable n) number
        some { ends := !disabled, notWhole := !covered, inPage := inPage }
      else some { ends := true, notWhole := true, inPage := inPage }
    else some { ends := false, notWhole := false, inPage := inPage }

structure Scan where
  region : Option Nat
  pageSize : Nat
  pageContainsMpuRegion : Bool

/-- The loop, from the region below a number down. -/
def Pmsav7.scan (mpu : Pmsav7) (address : Nat) : Nat → Nat → Bool → Option Scan
  | 0, pageSize, contains =>
    some { region := none, pageSize := pageSize, pageContainsMpuRegion := contains }
  | n + 1, pageSize, contains => do
    let turn ← mpu.turn address n
    let pageSize := if turn.notWhole then 0 else pageSize
    let contains := contains || turn.inPage
    if turn.ends then
      some { region := some n, pageSize := pageSize, pageContainsMpuRegion := contains }
    else mpu.scan address n pageSize contains

def Pmsav7.regionPerms (mpu : Pmsav7) (n : Nat) (isUser : Bool) : Option Prot :=
  let xn := mpu.c6AccessControl n &&& 0x1000#32 ≠ 0#32
  let strip (prot : Prot) : Prot := { prot with exec := prot.exec && !xn }
  match ((mpu.c6AccessControl n &&& 0x700#32) >>> 8).toNat with
  | 0 => none
  | 1 => if isUser then none else some (strip .all)
  | 2 => some (strip { read := true, write := !isUser, exec := true })
  | 3 => some (strip .all)
  | 5 => if isUser then none else some (strip .readExec)
  | 6 => some (strip .readExec)
  | 7 => some (strip (if mpu.protoArmM then .readExec else .none))
  | _ => some .none

def Pmsav7.byRegion (mpu : Pmsav7) (n : Nat) (access : AccessType) (isUser : Bool) :
    Prot × MpuResult :=
  match mpu.regionPerms n isUser with
  | none => (.none, .permissionFault)
  | some prot => (prot, checked prot access)

def Pmsav7.background (mpu : Pmsav7) (address : Nat) (access : AccessType) (isUser : Bool) :
    Prot × MpuResult :=
  if mpu.pmsa then
    if isUser || !mpu.backgroundRegion then (.none, .backgroundFault)
    else pmsav7CheckDefaultMapping mpu.highVectors address access
  else if !isUser then cortexmCheckDefaultMapping address access
  else (.none, .permissionFault)

/-- What is answered: `prot` and the return value, the address and the size to cache. -/
structure MpuAnswer where
  decision : Prot × MpuResult
  physPtr : Word
  pageSize : Nat
  deriving DecidableEq

/-- `get_phys_addr_mpu`, called with the size of a page; `none` after an undefined shift. -/
def getPhysAddrMpu (mpu : Pmsav7) (address : Word) (access : AccessType) (isUser : Bool) :
    Option MpuAnswer := do
  let scan ← mpu.scan address.toNat mpu.numberOfMpuRegions targetPageSize false
  match scan.region with
  | some n =>
    some { decision := mpu.byRegion n access isUser, physPtr := address, pageSize := scan.pageSize }
  | none =>
    let decision := mpu.background address.toNat access isUser
    some
      { decision := decision
        physPtr := address
        pageSize :=
          if decision.2 = .success ∧ scan.pageContainsMpuRegion then 0 else scan.pageSize }

def Pmsav7.Active (mpu : Pmsav7) (n : Nat) : Prop :=
  mpu.c6SizeAndEnable n &&& 1#32 ≠ 0#32 ∧ 4 ≤ mpu.sizeField n

def Pmsav7.Contains (mpu : Pmsav7) (n address : Nat) : Prop :=
  mpu.Active n ∧ mpu.base n ≤ address ∧ address < mpu.base n + 2 ^ mpu.size n

def Pmsav7.Matches (mpu : Pmsav7) (n address : Nat) : Prop :=
  mpu.Contains n address ∧ (8 ≤ mpu.size n →
    (mpu.c6SubregionDisable n).getLsbD ((address - mpu.base n) / 2 ^ (mpu.size n - 3)) = false)

def Pmsav7.NoneAbove (mpu : Pmsav7) (n address : Nat) : Prop :=
  ∀ m, n ≤ m → m < mpu.numberOfMpuRegions → ¬ mpu.Matches m address

structure DecidedRight (mpu : Pmsav7) (address : Word) (access : AccessType) (isUser : Bool) :
    Prop where
  decides : ∃ answer, getPhysAddrMpu mpu address access isUser = some answer ∧
    ((∃ n < mpu.numberOfMpuRegions, mpu.Matches n address.toNat ∧
        mpu.NoneAbove (n + 1) address.toNat ∧ answer.decision = mpu.byRegion n access isUser) ∨
      mpu.NoneAbove 0 address.toNat ∧ answer.decision = mpu.background address.toNat access isUser)
  cached : ∀ answer, getPhysAddrMpu mpu address access isUser = some answer →
    answer.decision.2 = .success → answer.pageSize = targetPageSize →
    ∀ other : Word, other.toNat / 1024 = address.toNat / 1024 →
    ∀ kind, answer.decision.1.allows kind = true →
    ∃ there, getPhysAddrMpu mpu other kind isUser = some there ∧ there.decision.2 = .success

def Pmsav7.ShiftsTooFar (mpu : Pmsav7) (n address : Nat) : Prop :=
  mpu.Contains n address ∧ 8 ≤ mpu.size n ∧ (mpu.size n = 32 ∨ mpu.base n ≤ address / 1024 * 1024 ∧
      (address / 1024 * 1024 + 1024) % 2 ^ 32 ≤ (mpu.base n + 2 ^ mpu.size n) % 2 ^ 32)

variable {mpu : Pmsav7} {address other n : Nat} {access kind : AccessType} {isUser : Bool}

theorem size_le (mpu : Pmsav7) (n : Nat) : mpu.size n ≤ 32 := by
  have field : mpu.sizeField n ≤ 31 := by
    unfold Pmsav7.sizeField
    rw [toNat_ushiftRight, toNat_and, shiftRight_eq_div_pow]
    have masked : (mpu.c6SizeAndEnable n).toNat &&& (0x3E#32).toNat ≤ 0x3E := and_le_right
    omega
  unfold Pmsav7.size
  omega

theorem base_add_le (mpu : Pmsav7) (n : Nat) : mpu.base n + 2 ^ mpu.size n ≤ 2 ^ 32 := by
  have whole : 2 ^ 32 = 2 ^ (32 - mpu.size n) * 2 ^ mpu.size n := by
    rw [← Nat.pow_add, Nat.sub_add_cancel (size_le mpu n)]
  have below : (mpu.c6BaseAddress n).toNat / 2 ^ mpu.size n < 2 ^ (32 - mpu.size n) := by
    apply Nat.div_lt_of_lt_mul
    rw [Nat.mul_comm, ← whole]
    exact (mpu.c6BaseAddress n).isLt
  unfold Pmsav7.base
  rw [whole, ← Nat.succ_mul]
  exact Nat.mul_le_mul_right _ below

theorem subregionDisabled_eq (disable : Word) {number : Nat} (few : number < 32) :
    subregionDisabled disable number = some (disable.getLsbD number) := by
  have bit : BitVec.ofNat 32 (2 ^ number) = twoPow 32 number := by
    apply eq_of_toNat_eq
    rw [toNat_ofNat, toNat_twoPow]
  unfold subregionDisabled shiftOne
  rw [if_pos few]
  show some _ = _
  rw [bit, and_twoPow]
  cases disable.getLsbD number with
  | false => simp
  | true =>
    have nonzero : twoPow 32 number ≠ 0#32 := by
      intro zero
      have value := congrArg BitVec.toNat zero
      rw [toNat_twoPow, mod_eq_of_lt (Nat.pow_lt_pow_right (by decide) few)] at value
      exact absurd value (Nat.two_pow_pos number).ne'
    simp [nonzero]

theorem getMpuSubregionNumber_eq (contains : mpu.Contains n address) (subregions : 8 ≤ mpu.size n) :
    getMpuSubregionNumber (mpu.base n) (mpu.size n) address =
        some ((address - mpu.base n) / 2 ^ (mpu.size n - 3)) ∧
      (address - mpu.base n) / 2 ^ (mpu.size n - 3) < 32 := by
  have size := size_le mpu n
  have bound := base_add_le mpu n
  have count : (mpu.size n + (2 ^ 32 - 3)) % 2 ^ 32 = mpu.size n - 3 := by omega
  have offset : (address + (2 ^ 32 - mpu.base n)) % 2 ^ 32 = address - mpu.base n := by
    have inside := contains.2
    omega
  have eighth : 2 ^ mpu.size n = 2 ^ (mpu.size n - 3) * 8 := by
    rw [show (8 : Nat) = 2 ^ 3 from rfl, ← Nat.pow_add, Nat.sub_add_cancel (by omega)]
  constructor
  · unfold getMpuSubregionNumber shiftOne
    rw [count, if_pos (by omega)]
    show some ((address + (2 ^ 32 - mpu.base n)) % 2 ^ 32 / _) = _
    rw [offset]
  · have less : (address - mpu.base n) / 2 ^ (mpu.size n - 3) < 8 := by
      apply Nat.div_lt_of_lt_mul
      have inside := contains.2
      omega
    omega

theorem pageFullyCovered_eq (disable : Word) (base size : Nat) (large : 8 ≤ size)
    (fits : size < 32) :
    pageFullyCovered disable base (2 ^ size) address = if base ≤ address / 1024 * 1024 ∧
          (address / 1024 * 1024 + 1024) % 2 ^ 32 ≤ (base + 2 ^ size) % 2 ^ 32 then none
      else some false := by
  have least : 2 ^ 8 ≤ 2 ^ size := Nat.pow_le_pow_right (by decide) large
  have greatest : 2 ^ size ≤ 2 ^ 31 := Nat.pow_le_pow_right (by decide) (by omega)
  have undefined (a : Nat) : getMpuSubregionNumber base (2 ^ size) a = none := by
    unfold getMpuSubregionNumber shiftOne
    rw [if_neg (by omega)]
    rfl
  unfold pageFullyCovered
  by_cases reached : base ≤ address / 1024 * 1024 ∧
      (address / 1024 * 1024 + 1024) % 2 ^ 32 ≤ (base + 2 ^ size) % 2 ^ 32
  · rw [if_neg (by omega), if_pos reached, undefined]
    rfl
  · rw [if_pos (by omega), if_neg reached]

theorem inactive_iff (mpu : Pmsav7) (n : Nat) :
    (mpu.c6SizeAndEnable n &&& 1#32 = 0#32 ∨ mpu.sizeField n ≤ 3) ↔ ¬ mpu.Active n := by
  unfold Pmsav7.Active
  rw [not_and_or, not_not, Nat.not_le, Nat.lt_succ_iff]

theorem contains_iff (active : mpu.Active n) :
    (mpu.base n ≤ address ∧ address ≤ (mpu.base n + (2 ^ mpu.size n - 1)) % 2 ^ 32) ↔
      mpu.Contains n address := by
  have bound := base_add_le mpu n
  have positive := Nat.two_pow_pos (mpu.size n)
  unfold Pmsav7.Contains
  rw [mod_eq_of_lt (by omega), and_iff_right active]
  omega

theorem turn_subregions (contains : mpu.Contains n address) (subregions : 8 ≤ mpu.size n) :
    mpu.turn address n = (shiftOne (mpu.size n)).bind fun bytes =>
      (pageFullyCovered (mpu.c6SubregionDisable n) (mpu.base n) bytes address).bind fun covered =>
        some
          { ends := !(mpu.c6SubregionDisable n).getLsbD
              ((address - mpu.base n) / 2 ^ (mpu.size n - 3))
            notWhole := !covered
            inPage := address / 1024 = mpu.base n / 1024 } := by
  have number := getMpuSubregionNumber_eq contains subregions
  unfold Pmsav7.turn
  rw [if_neg (by rw [inactive_iff]; exact not_not.mpr contains.1)]
  rw [if_pos ((contains_iff contains.1).mpr contains), if_pos subregions, number.1]
  show (shiftOne (mpu.size n)).bind (fun bytes => (pageFullyCovered _ _ bytes address).bind
    fun covered => (subregionDisabled _ _).bind _) = _
  rw [subregionDisabled_eq _ number.2]
  rfl

theorem turn_undefined (far : mpu.ShiftsTooFar n address) : mpu.turn address n = none := by
  obtain ⟨contains, subregions, reached⟩ := far
  rw [turn_subregions contains subregions]
  by_cases four : mpu.size n = 32
  · rw [four]
    rfl
  · have fits : mpu.size n < 32 := lt_of_le_of_ne (size_le mpu n) four
    unfold shiftOne
    rw [if_pos fits, bind_some, pageFullyCovered_eq _ _ _ subregions fits,
      if_pos (reached.resolve_left four)]
    rfl

structure TurnSpec (mpu : Pmsav7) (address n : Nat) (turn : Turn) : Prop where
  ends : turn.ends = true ↔ mpu.Matches n address
  notWhole : turn.notWhole = true ↔ mpu.Contains n address
  inPage : turn.inPage = true ↔ mpu.Active n ∧ address / 1024 = mpu.base n / 1024

theorem turn_defined (near : ¬ mpu.ShiftsTooFar n address) :
    ∃ turn, mpu.turn address n = some turn ∧ TurnSpec mpu address n turn := by
  by_cases active : mpu.Active n
  · by_cases contains : mpu.Contains n address
    · by_cases subregions : 8 ≤ mpu.size n
      · have few : ¬ (mpu.size n = 32 ∨ _) := fun reached => near ⟨contains, subregions, reached⟩
        have fits : mpu.size n < 32 := lt_of_le_of_ne (size_le mpu n) fun four => few (Or.inl four)
        have defined : mpu.turn address n = some
            { ends := !(mpu.c6SubregionDisable n).getLsbD
                ((address - mpu.base n) / 2 ^ (mpu.size n - 3))
              notWhole := true
              inPage := address / 1024 = mpu.base n / 1024 } := by
          rw [turn_subregions contains subregions]
          unfold shiftOne
          rw [if_pos fits, bind_some, pageFullyCovered_eq _ _ _ subregions fits,
            if_neg fun reached => few (Or.inr reached), bind_some]
          rfl
        refine ⟨_, defined, ?_⟩
        exact ⟨by simp [Pmsav7.Matches, contains, subregions], by simp [contains], by simp [active]⟩
      · refine ⟨{ ends := true, notWhole := true, inPage := address / 1024 = mpu.base n / 1024 },
          ?_, ?_⟩
        · unfold Pmsav7.turn
          rw [if_neg (by rw [inactive_iff]; exact not_not.mpr active)]
          exact (if_pos ((contains_iff active).mpr contains)).trans (if_neg subregions)
        · exact ⟨by simp [Pmsav7.Matches, contains, subregions], by simp [contains],
            by simp [active]⟩
    · refine ⟨{ ends := false, notWhole := false, inPage := address / 1024 = mpu.base n / 1024 },
        ?_, ?_⟩
      · unfold Pmsav7.turn
        rw [if_neg (by rw [inactive_iff]; exact not_not.mpr active)]
        exact if_neg fun inside => contains ((contains_iff active).mp inside)
      · exact ⟨by simp [Pmsav7.Matches, contains], by simp [contains], by simp [active]⟩
  · have outside : ¬ mpu.Contains n address := fun contains => active contains.1
    refine ⟨{ ends := false, notWhole := false, inPage := false }, ?_, ?_⟩
    · exact if_pos ((inactive_iff mpu n).mpr active)
    · exact ⟨by simp [Pmsav7.Matches, outside], by simp [outside], by simp [active]⟩

/-- What the loop below a number finds. -/
structure ScanSpec (mpu : Pmsav7) (address n pageSize : Nat) (contains : Bool) (scan : Scan) :
    Prop where
  found : ∀ k, scan.region = some k →
    k < n ∧ mpu.Matches k address ∧ ∀ m, k < m → m < n → ¬ mpu.Matches m address
  absent : scan.region = none → ∀ m < n, ¬ mpu.Matches m address
  whole : scan.pageSize ≠ 0 → pageSize ≠ 0 ∧ scan.region = none ∧ ∀ m < n, ¬ mpu.Contains m address
  inPage : scan.pageContainsMpuRegion = false → contains = false ∧ (scan.region = none →
    ∀ m < n, ¬ (mpu.Active m ∧ address / 1024 = mpu.base m / 1024))

theorem scan_undefined {k : Nat} (less : k < n)
    (above : ∀ m, k < m → m < n → ¬ mpu.Matches m address) (far : mpu.ShiftsTooFar k address)
    (pageSize : Nat) (contains : Bool) : mpu.scan address n pageSize contains = none := by
  induction n generalizing pageSize contains with
  | zero => exact absurd less (Nat.not_lt_zero k)
  | succ n ih =>
    unfold Pmsav7.scan
    rcases Nat.lt_succ_iff_lt_or_eq.mp less with below | last
    · by_cases near : mpu.ShiftsTooFar n address
      · rw [turn_undefined near]
        rfl
      · obtain ⟨turn, defined, spec⟩ := turn_defined near
        have goesOn : turn.ends = false := by
          rw [← Bool.not_eq_true, spec.ends]
          exact above n below (lt_succ_self n)
        rw [defined]
        show (if turn.ends then _ else mpu.scan address n _ _) = _
        rw [goesOn, if_neg Bool.false_ne_true]
        exact ih below
          (fun m more inside => above m more (lt_succ_of_lt inside)) _ _
    · rw [← last, turn_undefined far]
      rfl

theorem scan_defined
    (near : ∀ k < n, (∀ m, k < m → m < n → ¬ mpu.Matches m address) →
      ¬ mpu.ShiftsTooFar k address) (pageSize : Nat) (contains : Bool) :
    ∃ scan, mpu.scan address n pageSize contains = some scan ∧
      ScanSpec mpu address n pageSize contains scan := by
  induction n generalizing pageSize contains with
  | zero =>
    refine ⟨_, rfl, ?_, ?_, ?_, ?_⟩
    · intro k found
      cases found
    · exact fun _ m inside => absurd inside (Nat.not_lt_zero m)
    · exact fun whole => ⟨whole, rfl, fun m inside => absurd inside (Nat.not_lt_zero m)⟩
    · exact fun same => ⟨same, fun _ m inside => absurd inside (Nat.not_lt_zero m)⟩
  | succ n ih =>
    obtain ⟨turn, defined, spec⟩ := turn_defined (near n (lt_succ_self n)
      fun m more inside => absurd more (Nat.not_lt.mpr (Nat.lt_succ_iff.mp inside)))
    unfold Pmsav7.scan
    rw [defined]
    show ∃ scan, (if turn.ends then _ else mpu.scan address n _ _) = some scan ∧ _
    have page (whole : (if turn.notWhole then 0 else pageSize) ≠ 0) :
        pageSize ≠ 0 ∧ ¬ mpu.Contains n address := by
      rw [← spec.notWhole]
      split at whole
      · exact absurd rfl whole
      · rename_i covered
        exact ⟨whole, covered⟩
    have flags (clear : (contains || turn.inPage) = false) : contains = false ∧
        ¬ (mpu.Active n ∧ address / 1024 = mpu.base n / 1024) := by
      rw [← spec.inPage, Bool.not_eq_true]
      exact Bool.or_eq_false_iff.mp clear
    cases ends : turn.ends with
    | true =>
      have holds := spec.ends.mp ends
      refine ⟨_, rfl, ?_, ?_, ?_, ?_⟩
      · intro k found
        obtain rfl : n = k := some.inj found
        exact ⟨lt_succ_self n, holds, fun m more inside =>
          absurd more (Nat.not_lt.mpr (Nat.lt_succ_iff.mp inside))⟩
      · exact fun absent => by cases absent
      · exact fun whole => absurd holds.1 (page whole).2
      · exact fun clear => ⟨(flags clear).1, fun absent => by cases absent⟩
    | false =>
      have passes : ¬ mpu.Matches n address := by
        rw [← spec.ends, ends]
        decide
      have upTo {P : Nat → Prop} (last : P n) (below : ∀ m < n, P m) : ∀ m < n + 1, P m := by
        intro m inside
        rcases Nat.lt_succ_iff_lt_or_eq.mp inside with less | rfl
        · exact below m less
        · exact last
      obtain ⟨scan, found, rest⟩ := ih (fun k less above =>
        near k (lt_succ_of_lt less) fun m more inside =>
          upTo (P := fun m => k < m → ¬ mpu.Matches m address) (fun _ => passes)
            (fun m inside more => above m more inside) m inside more)
        (if turn.notWhole then 0 else pageSize) (contains || turn.inPage)
      refine ⟨scan, found, ?_, ?_, ?_, ?_⟩
      · intro k region
        obtain ⟨less, holds, above⟩ := rest.found k region
        exact ⟨lt_succ_of_lt less, holds, fun m more inside =>
          upTo (P := fun m => k < m → ¬ mpu.Matches m address) (fun _ => passes)
            (fun m inside more => above m more inside) m inside more⟩
      · exact fun absent => upTo passes (rest.absent absent)
      · intro whole
        obtain ⟨nonzero, absent, outside⟩ := rest.whole whole
        exact ⟨(page nonzero).1, absent, upTo (page nonzero).2 outside⟩
      · intro clear
        obtain ⟨unset, none⟩ := rest.inPage clear
        exact ⟨(flags unset).1, fun absent => upTo (flags unset).2 (none absent)⟩

theorem contains_page (contains : mpu.Contains n other) (same : other / 1024 = address / 1024) :
    mpu.Contains n address ∨ mpu.Active n ∧ address / 1024 = mpu.base n / 1024 := by
  obtain ⟨active, above, below⟩ := contains
  by_cases inside : mpu.size n ≤ 10
  · refine Or.inr ⟨active, ?_⟩
    unfold Pmsav7.base at above below ⊢
    interval_cases mpu.size n <;> omega
  · refine Or.inl ⟨active, ?_⟩
    have pages : 2 ^ mpu.size n = 2 ^ (mpu.size n - 10) * 1024 := by
      rw [show (1024 : Nat) = 2 ^ 10 from rfl, ← Nat.pow_add, Nat.sub_add_cancel (by omega)]
    have start : mpu.base n =
        (mpu.c6BaseAddress n).toNat / 2 ^ mpu.size n * 2 ^ (mpu.size n - 10) * 1024 := by
      rw [Nat.mul_assoc, ← pages]
      rfl
    omega

theorem lt_page {bound : Nat} (same : other / 1024 = address / 1024) (whole : bound % 1024 = 0) :
    other < bound ↔ address < bound := by omega

theorem background_page (same : other / 1024 = address / 1024)
    (granted : (mpu.background address access isUser).2 = .success)
    (allowed : (mpu.background address access isUser).1.allows kind = true) :
    (mpu.background other kind isUser).2 = .success := by
  have bound (c : Nat) (whole : c % 1024 = 0) : c ≤ other ↔ c ≤ address := by omega
  unfold Pmsav7.background at granted allowed ⊢
  unfold pmsav7CheckDefaultMapping cortexmCheckDefaultMapping at *
  simp only [bound _ (by decide : 0xF0000000 % 1024 = 0),
    bound _ (by decide : 0xE0100000 % 1024 = 0),
    lt_page same (by decide : 0x80000000 % 1024 = 0),
    lt_page same (by decide : 0x1FFF0000 % 1024 = 0),
    lt_page same (by decide : 0x1FFF7800 % 1024 = 0),
    lt_page same (by decide : 0x40000000 % 1024 = 0),
    lt_page same (by decide : 0x60000000 % 1024 = 0),
    lt_page same (by decide : 0xA0000000 % 1024 = 0)]
  split at granted
  · rename_i pmsa
    rw [if_pos pmsa] at allowed ⊢
    split at granted
    · cases granted
    · rename_i refused
      rw [if_neg refused] at allowed ⊢
      exact if_pos allowed
  · rename_i pmsa
    rw [if_neg pmsa] at allowed ⊢
    split at granted
    · rename_i privileged
      rw [if_pos privileged] at allowed ⊢
      split at granted
      · cases granted
      · rename_i mapped
        rw [if_neg mapped] at allowed ⊢
        exact if_pos allowed
    · cases granted

def Pmsav7.ShiftsDefined (mpu : Pmsav7) (address : Nat) : Prop :=
  ∀ n < mpu.numberOfMpuRegions, mpu.NoneAbove (n + 1) address → ¬ mpu.ShiftsTooFar n address

theorem answer_region {address : Word} {scan : Scan}
    (scanned : mpu.scan address.toNat mpu.numberOfMpuRegions targetPageSize false = some scan)
    (region : scan.region = some n) (access : AccessType) (isUser : Bool) :
    getPhysAddrMpu mpu address access isUser = some
        { decision := mpu.byRegion n access isUser
          physPtr := address
          pageSize := scan.pageSize } := by
  unfold getPhysAddrMpu
  rw [scanned]
  simp [region]

theorem answer_background {address : Word} {scan : Scan}
    (scanned : mpu.scan address.toNat mpu.numberOfMpuRegions targetPageSize false = some scan)
    (region : scan.region = none) (access : AccessType) (isUser : Bool) :
    getPhysAddrMpu mpu address access isUser = some
        { decision := mpu.background address.toNat access isUser
          physPtr := address
          pageSize :=
            if (mpu.background address.toNat access isUser).2 = .success ∧
              scan.pageContainsMpuRegion then 0 else scan.pageSize } := by
  unfold getPhysAddrMpu
  rw [scanned]
  simp [region]

/-- Exactly when the unit decides right and caches no wider than it holds. -/
theorem decidedRight_iff (mpu : Pmsav7) (address : Word) (access : AccessType) (isUser : Bool) :
    DecidedRight mpu address access isUser ↔ mpu.ShiftsDefined address.toNat := by
  constructor
  · intro right n less above far
    obtain ⟨answer, answered, _⟩ := right.decides
    unfold getPhysAddrMpu at answered
    rw [scan_undefined less above far] at answered
    cases answered
  intro near
  obtain ⟨scan, scanned, spec⟩ := scan_defined near targetPageSize false
  constructor
  · cases region : scan.region with
    | some n =>
      obtain ⟨less, holds, above⟩ := spec.found n region
      exact ⟨_, answer_region scanned region access isUser, Or.inl ⟨n, less, holds, above, rfl⟩⟩
    | none =>
      exact ⟨_, answer_background scanned region access isUser,
        Or.inr ⟨fun m _ inside => spec.absent region m inside, rfl⟩⟩
  · intro answer answered success wholePage other same kind allowed
    cases region : scan.region with
    | some n =>
      -- A page that a region decides for is never cached.
      rw [answer_region scanned region access isUser] at answered
      obtain rfl := some.inj answered
      have size : scan.pageSize = targetPageSize := wholePage
      have whole := spec.whole (by rw [size]; decide)
      cases whole.2.1.symm.trans region
    | none =>
      rw [answer_background scanned region access isUser] at answered
      obtain rfl := some.inj answered
      have clear : scan.pageContainsMpuRegion = false := by
        cases contains : scan.pageContainsMpuRegion with
        | false => rfl
        | true => exact absurd ((if_pos ⟨success, contains⟩).symm.trans wholePage) (by decide)
      have size : scan.pageSize ≠ 0 := by
        have kept : scan.pageSize = targetPageSize :=
          (if_neg fun both => by cases clear.symm.trans both.2).symm.trans wholePage
        rw [kept]
        decide
      have outside (m : Nat) (inside : m < mpu.numberOfMpuRegions) :
          ¬ mpu.Contains m other.toNat := by
        intro contains
        rcases contains_page contains same with covers | starts
        · exact (spec.whole size).2.2 m inside covers
        · exact (spec.inPage clear).2 region m inside starts
      have nearThere : mpu.ShiftsDefined other.toNat :=
        fun m inside _ far => outside m inside far.1
      obtain ⟨scan', scanned', spec'⟩ := scan_defined nearThere targetPageSize false
      have region' : scan'.region = none := by
        cases found : scan'.region with
        | none => rfl
        | some m =>
          obtain ⟨inside, holds, _⟩ := spec'.found m found
          exact absurd holds.1 (outside m inside)
      exact ⟨_, answer_background scanned' region' kind isUser,
        background_page same success allowed⟩

/-- A region of 1 KiB at address 0 with its second subregion disabled. -/
def splitPage : Pmsav7 :=
  { numberOfMpuRegions := 1
    c6BaseAddress := fun _ => 0
    c6SizeAndEnable := fun _ => 0x13
    c6AccessControl := fun _ => 0x300
    c6SubregionDisable := fun _ => 2
    pmsa := false
    backgroundRegion := false
    highVectors := false
    protoArmM := true }

theorem splitPage_undefined :
    getPhysAddrMpu splitPage 0 .load true = none ∧ ¬ DecidedRight splitPage 0 .load true := by
  have undefined : getPhysAddrMpu splitPage 0 .load true = none := by decide
  refine ⟨undefined, fun right => ?_⟩
  obtain ⟨answer, answered, _⟩ := right.decides
  cases undefined.symm.trans answered

end Tlib.CortexM
