import Tlib.CortexM.AttributionRules
import Tlib.CortexM.ProtectionRules

/-!
Contract: the instructions that test a target, against the accesses that they speak of.

Owns: `HELPER(v8m_tt)`, and that each bit of its result is what the tested access would meet.
-/

namespace Tlib.CortexM

/-- `addr_info`, whose bits are the result. -/
structure TtResponse where
  (mpuRegion sauRegion : BitVec 8)
  (mpuRegionValid sauRegionValid readOk readwriteOk nonsecureReadOk nonsecureReadwriteOk : Bool)
  (targetSecure idauRegionValid : Bool)
  idauRegion : BitVec 8
  deriving DecidableEq

def regionField : Option Nat → BitVec 8
  | some n => BitVec.ofNat 8 n
  | none => 0

/-- `resolved_region`; the unit is not searched while it is disabled. -/
def resolvedRegion (mpu : Pmsav8) (count : Nat) (address : Word) : Option Nat :=
  if mpu.enabled then (pmsav8GetRegion mpu count address).found.regionIndex else none

/-- `test_secure`: the variants with `A` ask for a Non-secure access. -/
def testSecure (cpu : Cpu) (op : Word) : Bool := !op.getLsbD 1 && cpu.secure

/-- Whether `test_privileged` is false; the variants with `T` ask for an unprivileged access. -/
def testsUser (cpu : Cpu) (op : Word) : Bool := !(!op.getLsbD 0 && cpu.inPrivilegedMode)

def testsAccess (cpu : Cpu) (op : Word) : Bool := cpu.inPrivilegedMode || op.getLsbD 1

/-- `pmsav8_check_access`, as the query asks for it. -/
def Configuration.testedAccess (C : Configuration) (cpu : Cpu) (addr op : Word)
    (access : AccessType) : Access :=
  pmsav8CheckAccess C.v81m (C.mpu (testSecure cpu op)) C.numberOfMpuRegions addr access
    (testsUser cpu op)

def Configuration.testedRegion (C : Configuration) (cpu : Cpu) (addr op : Word) : Option Nat :=
  if testsAccess cpu op then
    resolvedRegion (C.mpu (testSecure cpu op)) C.numberOfMpuRegions addr
  else none

def v8mTt (C : Configuration) (cpu : Cpu) (addr op : Word) : TtResponse :=
  let readOk := testsAccess cpu op && (C.testedAccess cpu addr op .load).granted
  let readwriteOk := testsAccess cpu op && (C.testedAccess cpu addr op .load).prot.write
  let attributed := C.attributionOf addr (testSecure cpu op) .load
  let targetSecure := attributionIsSecure attributed.attribution
  { mpuRegion := regionField (C.testedRegion cpu addr op)
    mpuRegionValid := (C.testedRegion cpu addr op).isSome
    readOk := readOk
    readwriteOk := readwriteOk
    -- The remaining bits are only valid if executed from secure state.
    sauRegion := if cpu.secure && attributed.sauValid then regionField attributed.sauRegion else 0
    sauRegionValid := cpu.secure && attributed.sauValid
    idauRegion :=
      if cpu.secure && attributed.idauValid then regionField attributed.idauRegion else 0
    idauRegionValid := cpu.secure && attributed.idauValid
    targetSecure := cpu.secure && targetSecure
    nonsecureReadOk := cpu.secure && (!targetSecure && readOk)
    nonsecureReadwriteOk := cpu.secure && (!targetSecure && readwriteOk) }

def Configuration.PassesNonSecure (C : Configuration) (cpu : Cpu) (addr op : Word)
    (access : AccessType) : Prop :=
  attributionFault (C.attributionOf addr false access).attribution false access = 0 ∧
    (C.testedAccess cpu addr op access).granted = true

def NamesOnly (valid : Bool) (field : BitVec 8) (asked : Prop) (matching : List Nat) : Prop :=
  (valid = true ↔ asked ∧ matching.length = 1) ∧ (valid = true → matching = [field.toNat])

structure TellsTruth (C : Configuration) (cpu : Cpu) (addr op : Word) (result : TtResponse) :
    Prop where
  read : result.readOk = true ↔ testsAccess cpu op = true ∧
    (C.testedAccess cpu addr op .load).granted = true
  readwrite : result.readwriteOk = true ↔ testsAccess cpu op = true ∧
    (C.testedAccess cpu addr op .load).granted = true ∧
    (C.testedAccess cpu addr op .store).granted = true
  nonsecureRead : result.nonsecureReadOk = true → C.PassesNonSecure cpu addr op .load
  nonsecureReadwrite : result.nonsecureReadwriteOk = true →
    C.PassesNonSecure cpu addr op .load ∧ C.PassesNonSecure cpu addr op .store
  converse : cpu.secure = true → testsAccess cpu op = true →
    (op.getLsbD 1 = true ∨ ¬C.attributions.Exempt addr .load) →
    (C.PassesNonSecure cpu addr op .load → result.nonsecureReadOk = true) ∧
      (C.PassesNonSecure cpu addr op .load → C.PassesNonSecure cpu addr op .store →
        result.nonsecureReadwriteOk = true)
  mregion : NamesOnly result.mpuRegionValid result.mpuRegion (testsAccess cpu op = true)
    ((C.mpu (testSecure cpu op)).matching C.numberOfMpuRegions addr)
  sregion : NamesOnly result.sauRegionValid result.sauRegion
    (cpu.secure = true ∧ C.attributions.LooksUp addr .load ∧ C.attributions.sauEnable = true)
    (C.attributions.sauMatching addr)
  iregion : NamesOnly result.idauRegionValid result.idauRegion
    (cpu.secure = true ∧ C.attributions.LooksUp addr .load ∧ C.attributions.idauEnabled = true)
    (C.attributions.idauMatching addr)

section Accesses

variable (v81m : Bool) (mpu : Pmsav8) (count : Nat) (address : Word) (isUser : Bool)

theorem checkAccess_prot (access other : AccessType) :
    (pmsav8CheckAccess v81m mpu count address access isUser).prot =
      (pmsav8CheckAccess v81m mpu count address other isUser).prot := by
  unfold pmsav8CheckAccess
  dsimp only
  split <;> rfl

theorem checkAccess_granted_prot (access : AccessType) :
    (pmsav8CheckAccess v81m mpu count address access isUser).granted =
      (pmsav8CheckAccess v81m mpu count address access isUser).prot.allows access := by
  unfold pmsav8CheckAccess
  dsimp only
  split
  · cases access <;> rfl
  · rfl

theorem checkAccess_read_of_write (access : AccessType)
    (write : (pmsav8CheckAccess v81m mpu count address access isUser).prot.write = true) :
    (pmsav8CheckAccess v81m mpu count address access isUser).prot.read = true := by
  have enforced (prot : Prot) : (enforceXn address prot).write = prot.write ∧
      (enforceXn address prot).read = prot.read := by
    unfold enforceXn
    split <;> exact ⟨rfl, rfl⟩
  have mapped : (defaultMapping address).read = true := by
    unfold defaultMapping
    split <;> rfl
  unfold pmsav8CheckAccess at write ⊢
  dsimp only at write ⊢
  rw [pmsav8Prot_eq] at write ⊢
  split at write
  · cases write
  · rename_i prot permissions
    split at permissions
    · split at permissions <;> cases permissions
      rw [(enforced _).2, mapped]
    · cases permissions
      rw [(enforced _).1] at write
      rw [(enforced _).2]
      exact Bool.and_eq_true_iff.mp write |>.1
    · cases permissions

theorem resolvedRegion_eq : resolvedRegion mpu count address = match mpu.matching count address with
    | [n] => some n
    | _ => none := by
  have found := congrArg Prod.snd (getRegion_foundBy mpu count address)
  dsimp only at found
  unfold resolvedRegion Pmsav8.matching
  rw [found]
  cases mpu.enabled with
  | false => rfl
  | true =>
    match mpu.regions.matching count address with
    | [] => rfl
    | [_] => rfl
    | _ :: _ :: _ => rfl

end Accesses

variable {C : Configuration} {cpu : Cpu} {addr op : Word}

theorem regionField_toNat {regions : Regions} {count n : Nat} (few : count < 256)
    (matched : regions.matching count addr = [n]) : (BitVec.ofNat 8 n).toNat = n := by
  have inside := (Regions.mem_matching.mp (matched ▸ List.mem_cons_self : n ∈ _)).1
  exact Nat.mod_eq_of_lt (Nat.lt_trans inside few)

theorem attributionOf_store (C : Configuration) (addr : Word) (isSecure : Bool) :
    C.attributionOf addr isSecure .store = C.attributionOf addr isSecure .load := rfl

theorem attributionOf_nonSecure
    (aligned : ∀ exemption ∈ C.attributions.exemptions, alignedBounds exemption)
    (subject : ¬C.attributions.Exempt addr .load) (isSecure : Bool) :
    C.attributionOf addr isSecure .load = C.attributionOf addr false .load := by
  unfold Configuration.attributionOf
  rw [securityAttribution_eq addr isSecure .load aligned,
    securityAttribution_eq addr false .load aligned, if_neg subject, if_neg subject]

theorem attributionOf_of_nonSecure
    (aligned : ∀ exemption ∈ C.attributions.exemptions, alignedBounds exemption)
    (isSecure : Bool)
    (answer : (C.attributionOf addr isSecure .load).attribution = .nonSecure) :
    (C.attributionOf addr false .load).attribution = .nonSecure := by
  by_cases exempt : C.attributions.Exempt addr .load
  · cases isSecure with
    | false => exact answer
    | true =>
      unfold Configuration.attributionOf at answer ⊢
      rw [securityAttribution_eq addr true .load aligned, if_pos exempt] at answer
      rw [securityAttribution_eq addr false .load aligned, if_pos exempt]
      split at answer
      · rename_i high
        rw [if_pos high]
        exact answer
      · cases answer
  · rw [← attributionOf_nonSecure aligned exempt isSecure]
    exact answer

theorem passesNonSecure_iff {access : AccessType} (data : access ≠ .fetch) :
    C.PassesNonSecure cpu addr op access ↔
      (C.attributionOf addr false access).attribution = .nonSecure ∧
        (C.testedAccess cpu addr op access).granted = true := by
  refine and_congr_left' (not_iff_not.mp ((attributionFault_iff _ _ _).trans ?_))
  cases (C.attributionOf addr false access).attribution <;> simp [FaultCell, data]

theorem namesOnly_of_reports {valid secure : Bool} {region : Option Nat} {regions : Regions}
    {count : Nat} {asked : Prop} (few : count < 256)
    (reports : ReportsOnly valid region regions (regions.matching count addr) asked addr) :
    NamesOnly (secure && valid) (if secure && valid then regionField region else 0)
      (secure = true ∧ asked) (regions.matching count addr) := by
  refine ⟨by rw [Bool.and_eq_true, reports.1, and_assoc], fun both => ?_⟩
  obtain ⟨n, named, matched, -⟩ := reports.2 (Bool.and_eq_true_iff.mp both).2
  rw [if_pos both, named, matched]
  exact congrArg (fun n => [n]) (regionField_toNat few matched).symm

/-- The bits of the result are what the accesses would meet. -/
theorem v8mTt_tellsTruth (C : Configuration) (cpu : Cpu) (addr op : Word)
    (aligned : ∀ exemption ∈ C.attributions.exemptions, alignedBounds exemption)
    (mpuRegions : C.numberOfMpuRegions < 256)
    (sauRegions : C.attributions.numberOfSauRegions < 256)
    (idauRegions : C.attributions.numberOfIdauRegions < 256) :
    TellsTruth C cpu addr op (v8mTt C cpu addr op) := by
  have reports := securityAttribution_reports addr (testSecure cpu op) .load aligned
  have writes : (C.testedAccess cpu addr op .load).prot.write = true ↔
      (C.testedAccess cpu addr op .load).granted = true ∧
        (C.testedAccess cpu addr op .store).granted = true := by
    unfold Configuration.testedAccess
    rw [checkAccess_granted_prot, checkAccess_granted_prot, checkAccess_prot _ _ _ _ _ .store .load]
    exact ⟨fun write => ⟨checkAccess_read_of_write _ _ _ _ _ _ write, write⟩, fun both => both.2⟩
  have nonSecure (passes : attributionIsSecure
      (C.attributionOf addr (testSecure cpu op) .load).attribution = false) :
      (C.attributionOf addr false .load).attribution = .nonSecure := by
    refine attributionOf_of_nonSecure aligned (testSecure cpu op) ?_
    cases answer : (C.attributionOf addr (testSecure cpu op) .load).attribution <;>
      rw [answer] at passes <;> first | rfl | cases passes
  refine
    { read := Bool.and_eq_true_iff
      readwrite := Bool.and_eq_true_iff.trans (and_congr_right' writes)
      nonsecureRead := fun bit => ?_
      nonsecureReadwrite := fun bit => ?_
      converse := fun secure tests subject => ?_
      mregion := ?_
      sregion := namesOnly_of_reports sauRegions reports.1
      iregion := namesOnly_of_reports idauRegions reports.2 }
  · simp only [v8mTt, Bool.and_eq_true, Bool.not_eq_true'] at bit
    exact (passesNonSecure_iff (by decide)).mpr ⟨nonSecure bit.2.1, bit.2.2.2⟩
  · simp only [v8mTt, Bool.and_eq_true, Bool.not_eq_true', writes] at bit
    rw [passesNonSecure_iff (by decide), passesNonSecure_iff (by decide), attributionOf_store]
    exact ⟨⟨nonSecure bit.2.1, bit.2.2.2.1⟩, nonSecure bit.2.1, bit.2.2.2.2⟩
  · have same : C.attributionOf addr (testSecure cpu op) .load =
        C.attributionOf addr false .load := by
      cases subject with
      | inl alternate =>
        unfold testSecure
        rw [alternate]
        rfl
      | inr subject => exact attributionOf_nonSecure aligned subject _
    rw [passesNonSecure_iff (by decide), passesNonSecure_iff (by decide)]
    simp only [v8mTt, secure, tests, same, Bool.true_and, Bool.and_eq_true, Bool.not_eq_true',
      writes]
    exact ⟨fun load => ⟨by rw [load.1]; rfl, load.2⟩,
      fun load store => ⟨by rw [load.1]; rfl, load.2, store.2⟩⟩
  · simp only [NamesOnly, v8mTt, Configuration.testedRegion, resolvedRegion_eq]
    cases testsAccess cpu op with
    | false => simp
    | true =>
      have few (n : Nat) (matched : (C.mpu (testSecure cpu op)).matching
          C.numberOfMpuRegions addr = [n]) : (BitVec.ofNat 8 n).toNat = n := by
        unfold Pmsav8.matching at matched
        split at matched
        · exact regionField_toNat mpuRegions matched
        · cases matched
      revert few
      match (C.mpu (testSecure cpu op)).matching C.numberOfMpuRegions addr with
      | [] => simp
      | [n] =>
        intro few
        exact ⟨by simp, fun _ => congrArg (fun n => [n]) (few n rfl).symm⟩
      | _ :: _ :: _ => simp

def Configuration.privileged : Configuration :=
  { attributions := .emptyIdau
    v81m := false
    numberOfMpuRegions := 1
    mpu := fun _ => .privileged
    memory := fun _ => 0 }

theorem v8mTt_tellsTruth_sample : TellsTruth .privileged (.atRest true) 0x2000#32 0
      (v8mTt .privileged (.atRest true) 0x2000#32 0) :=
  v8mTt_tellsTruth .privileged (.atRest true) 0x2000#32 0
    (fun _ mem => List.mem_singleton.mp mem ▸ ⟨by decide, by decide⟩) (by decide) (by decide)
    (by decide)

/-- Secure code is not told that Non-secure code may read an exempt address. -/
theorem exempt_not_told : ¬∀ (C : Configuration) (cpu : Cpu) (addr op : Word),
    cpu.secure = true → cpu.inPrivilegedMode = true → C.PassesNonSecure cpu addr op .load →
      (v8mTt C cpu addr op).nonsecureReadOk = true := by
  intro claimed
  have told := claimed .privileged (.atRest true) 0x1000#32 0 rfl (by decide)
    ⟨by decide, by decide⟩
  revert told
  decide

end Tlib.CortexM
