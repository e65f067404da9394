import Tlib.CortexM.RegionMatches

/-!
Contract: the security attribution of an address against the rules of the architecture.

Owns: the rules, and that the lookups follow them wherever no two regions of the IDAU match.
-/

namespace Tlib.CortexM

open BitVec

variable {A : Attributions} {address : Word} {access : AccessType}

def Regions.specified (regions : Regions) : List Nat → SecurityAttribution
  | [n] => if regions.nsc n then .secureNsc else .nonSecure
  | _ => .secure

def Attributions.sauMatching (A : Attributions) (address : Word) : List Nat :=
  A.sau.matching A.numberOfSauRegions address

def Attributions.idauMatching (A : Attributions) (address : Word) : List Nat :=
  A.idau.matching A.numberOfIdauRegions address

/-- `ALLNS` decides while the SAU is disabled. -/
def Attributions.sauSpecified (A : Attributions) (address : Word) : SecurityAttribution :=
  if A.sauEnable then A.sau.specified (A.sauMatching address)
  else if A.sauAllns then .nonSecure
  else .secure

def Attributions.Exempt (A : Attributions) (address : Word) (access : AccessType) : Prop :=
  isArchitectureExempt address = true ∨
    (∃ exemption ∈ A.exemptions, exemption.1 ≤ address ∧ address ≤ exemption.2) ∨
    access = .fetch ∧ isFetchExempt address = true

instance (A : Attributions) (address : Word) (access : AccessType) :
    Decidable (A.Exempt address access) :=
  inferInstanceAs (Decidable (_ ∨ _ ∨ _))

def Attributions.LooksUp (A : Attributions) (address : Word) (access : AccessType) : Prop :=
  address < 0xF0000000#32 ∧ ¬A.Exempt address access

/-- Without a match the IDAU has no say, as if it were disabled. -/
def Attributions.specified (A : Attributions) (address : Word) (secure : Bool)
    (access : AccessType) : SecurityAttribution :=
  if 0xF0000000#32 ≤ address then if A.hasTrustzone then .secure else .nonSecure
  else if A.Exempt address access then ownAttribution secure
  else if A.idauEnabled = true ∧ A.idauMatching address ≠ [] then
    attributionGetMoreSecure (A.idau.specified (A.idauMatching address)) (A.sauSpecified address)
  else A.sauSpecified address

def FaultCell : SecurityAttribution → Bool → AccessType → Prop
  | .nonSecure, secure, access => secure = true ∧ access = .fetch
  | .secureNsc, secure, access => secure = false ∧ access ≠ .fetch
  | .secure, secure, _ => secure = false

/-- The bounds that `tlib_try_add_implementation_defined_exemption_region` accepts. -/
def alignedBounds (exemption : Word × Word) : Prop :=
  getRegionBase exemption.1 = exemption.1 ∧ getRegionLimit exemption.2 = exemption.2

/-- What all callers pass as `access_width`. -/
def accessWidth : Word := 1#32

def accessEndAddress (address : Word) : Word := address + accessWidth - 1#32

def ReportsOnly (valid : Bool) (region : Option Nat) (regions : Regions) (matching : List Nat)
    (enabled : Prop) (address : Word) : Prop :=
  (valid = true ↔ enabled ∧ matching.length = 1) ∧
    (valid = true → ∃ n, region = some n ∧ matching = [n] ∧
      accessEndAddress address ≤ regions.limit n)

/-- What the architecture asks of an attribution, and the assertions. -/
structure FollowsRules (A : Attributions) (address : Word) (secure : Bool) (access : AccessType)
    (result : AttributionResult) : Prop where
  attribution : result.attribution = A.specified address secure access
  sau : ReportsOnly result.sauValid result.sauRegion A.sau (A.sauMatching address)
    (A.LooksUp address access ∧ A.sauEnable = true) address
  idau : ReportsOnly result.idauValid result.idauRegion A.idau (A.idauMatching address)
    (A.LooksUp address access ∧ A.idauEnabled = true) address
  faults : attributionFault result.attribution secure access ≠ 0 ↔
    FaultCell (A.specified address secure access) secure access
  width : 0#32 < accessWidth

theorem granule_between {first last : Word} (begins : first.toNat % 32 = 0)
    (ends : last.toNat % 32 = 31) (address : Word) :
    (first ≤ getRegionBase address ∧ getRegionBase address ≤ last) ↔
      first ≤ address ∧ address ≤ last := by
  rw [le_def, le_def, le_def, le_def, getRegionBase_toNat]
  omega

theorem decide_granule_between {first last : Word} (begins : first.toNat % 32 = 0)
    (ends : last.toNat % 32 = 31) (address : Word) :
    (decide (first ≤ getRegionBase address) && decide (getRegionBase address ≤ last)) =
      (decide (first ≤ address) && decide (address ≤ last)) := by
  rw [Bool.eq_iff_iff, Bool.and_eq_true, Bool.and_eq_true, decide_eq_true_iff, decide_eq_true_iff,
    decide_eq_true_iff, decide_eq_true_iff]
  exact granule_between begins ends address

theorem isArchitectureExempt_base (address : Word) :
    isArchitectureExempt (getRegionBase address) = isArchitectureExempt address := by
  unfold isArchitectureExempt
  repeat rw [decide_granule_between (by decide) (by decide)]

theorem isFetchExempt_base (address : Word) :
    isFetchExempt (getRegionBase address) = isFetchExempt address :=
  decide_granule_between (by decide) (by decide) address

theorem alignedBounds.granule {exemption : Word × Word} (aligned : alignedBounds exemption)
    (address : Word) :
    (exemption.1 ≤ getRegionBase address ∧ getRegionBase address ≤ exemption.2) ↔
      exemption.1 ≤ address ∧ address ≤ exemption.2 := by
  have begins := congrArg BitVec.toNat aligned.1
  have ends := congrArg BitVec.toNat aligned.2
  rw [getRegionBase_toNat] at begins
  rw [getRegionLimit_toNat] at ends
  exact granule_between (by omega) (by omega) address

theorem tryGetExemptionRegion_iff {wasTrue applies : Bool} (exemptions : List (Word × Word)) :
    (tryGetExemptionRegion address wasTrue exemptions applies).1 = true ↔
      ∃ exemption ∈ exemptions, exemption.1 ≤ address ∧ address ≤ exemption.2 := by
  induction exemptions generalizing applies with
  | nil => simp [tryGetExemptionRegion]
  | cons exemption rest ih =>
    unfold tryGetExemptionRegion
    rw [List.exists_mem_cons_iff]
    by_cases inside : exemption.1 ≤ address ∧ address ≤ exemption.2
    · rw [if_pos inside]
      exact iff_of_true rfl (.inl inside)
    · rw [if_neg inside, ih, or_iff_right inside]

theorem isExempt_iff (aligned : ∀ exemption ∈ A.exemptions, alignedBounds exemption)
    (applies : Bool) :
    (pmsav8IsExemptFromAttribution A (getRegionBase address) access applies).1 = true ↔
      A.Exempt address access := by
  have listed :=
    @tryGetExemptionRegion_iff (getRegionBase address) applies applies A.exemptions
  have granules : (∃ exemption ∈ A.exemptions,
      exemption.1 ≤ getRegionBase address ∧ getRegionBase address ≤ exemption.2) ↔
      ∃ exemption ∈ A.exemptions, exemption.1 ≤ address ∧ address ≤ exemption.2 :=
    exists_congr fun exemption => and_congr_right fun mem => (aligned exemption mem).granule address
  rw [granules] at listed
  unfold pmsav8IsExemptFromAttribution Attributions.Exempt
  rw [isArchitectureExempt_base, isFetchExempt_base]
  dsimp only
  cases isArchitectureExempt address with
  | true => exact iff_of_true rfl (.inl rfl)
  | false =>
    rw [if_neg Bool.false_ne_true, ← listed, or_iff_right Bool.false_ne_true]
    split
    · rename_i found
      exact iff_of_true found (.inl found)
    · rename_i missed
      rw [or_iff_right missed]
      split
      · rename_i fetched
        rw [Bool.and_eq_true, decide_eq_true_iff] at fetched
        exact iff_of_true rfl fetched
      · rename_i other
        rw [Bool.and_eq_true, decide_eq_true_iff] at other
        exact iff_of_false missed other

theorem highRegion_iff :
    getRegionBase address &&& 0xF0000000#32 = 0xF0000000#32 ↔ 0xF0000000#32 ≤ address := by
  have masked := @Library.BitMasks.and_highMask 32 28 (getRegionBase address).toNat
    (getRegionBase address).isLt (by decide)
  have bound := address.isLt
  rw [getRegionBase_toNat] at masked
  rw [← toNat_inj, toNat_and, le_def, getRegionBase_toNat]
  simp only [toNat_ofNat, Nat.reducePow, Nat.reduceSub, Nat.reduceMod] at masked ⊢
  omega

theorem accessEndAddress_eq (address : Word) : accessEndAddress address = address := by
  exact BitVec.add_sub_cancel address 1#32

theorem tryGetRegion_specified (regions : Regions) (count : Nat) (address : Word)
    (applies : Bool) :
    (pmsav8IdauSauTryGetRegion regions count (getRegionBase address) applies).found.attribution =
      regions.specified (regions.matching count address) := by
  have found := congrArg Prod.snd
    (@tryGetRegion_foundBy regions (getRegionBase address) count applies)
  rw [Regions.matching_base] at found
  dsimp only at found
  rw [found]
  match regions.matching count address with
  | [] => rfl
  | [_] => rfl
  | _ :: _ :: _ => rfl

theorem tryGetRegion_reports (regions : Regions) (count : Nat) (address : Word)
    (applies : Bool) :
    ReportsOnly (pmsav8IdauSauTryGetRegion regions count (getRegionBase address) applies).hit
      (pmsav8IdauSauTryGetRegion regions count (getRegionBase address) applies).found.regionIndex
      regions (regions.matching count address) True address := by
  have scan := @tryGetRegion_foundBy regions (getRegionBase address) count applies
  rw [Regions.matching_base, Prod.mk.injEq] at scan
  rw [scan.1, scan.2]
  unfold ReportsOnly
  have member (n : Nat) := @Regions.mem_matching regions address count n
  match regions.matching count address, member with
  | [], _ => exact ⟨by simp [foundBy], nofun⟩
  | [n], member =>
    have inside := (Regions.matches_iff.mp ((member n).mp List.mem_cons_self).2).2.2
    refine ⟨by simp [foundBy], fun _ => ⟨n, rfl, rfl, ?_⟩⟩
    rw [accessEndAddress_eq]
    exact inside
  | _ :: _ :: _, _ => exact ⟨by simp [foundBy], nofun⟩

theorem sauTryGetRegion_specified (A : Attributions) (address : Word) (applies : Bool) :
    (pmsav8SauTryGetRegion A (getRegionBase address) applies).found.attribution =
      A.sauSpecified address := by
  unfold pmsav8SauTryGetRegion Attributions.sauSpecified
  cases A.sauEnable with
  | false => rfl
  | true => exact tryGetRegion_specified A.sau A.numberOfSauRegions address applies

theorem ReportsOnly.unasked {region : Option Nat} {regions : Regions} {matching : List Nat}
    {enabled : Prop} (disabled : ¬enabled) :
    ReportsOnly false region regions matching enabled address :=
  ⟨iff_of_false Bool.false_ne_true fun asked => disabled asked.1, nofun⟩

theorem ReportsOnly.asked {valid : Bool} {region : Option Nat} {regions : Regions}
    {matching : List Nat} {enabled : Prop} (holds : enabled)
    (reports : ReportsOnly valid region regions matching True address) :
    ReportsOnly valid region regions matching enabled address :=
  ⟨by rw [reports.1, and_iff_right trivial, and_iff_right holds], reports.2⟩

theorem sauTryGetRegion_reports (looksUp : A.LooksUp address access) (applies : Bool) :
    ReportsOnly (pmsav8SauTryGetRegion A (getRegionBase address) applies).hit
      (pmsav8SauTryGetRegion A (getRegionBase address) applies).found.regionIndex A.sau
      (A.sauMatching address) (A.LooksUp address access ∧ A.sauEnable = true) address := by
  unfold pmsav8SauTryGetRegion
  cases enabled : A.sauEnable with
  | false => exact .unasked fun asked => Bool.false_ne_true asked.2
  | true =>
    exact (tryGetRegion_reports A.sau A.numberOfSauRegions address applies).asked
      ⟨looksUp, rfl⟩

theorem lookupAttribution_idau (looksUp : A.LooksUp address access) (applies : Bool) :
    ReportsOnly (lookupAttribution A (getRegionBase address) applies).idauValid
      (lookupAttribution A (getRegionBase address) applies).idauRegion A.idau
      (A.idauMatching address) (A.LooksUp address access ∧ A.idauEnabled = true) address := by
  unfold lookupAttribution
  cases A.idauEnabled with
  | false => exact .unasked fun asked => Bool.false_ne_true asked.2
  | true =>
    exact (tryGetRegion_reports A.idau A.numberOfIdauRegions address _).asked ⟨looksUp, rfl⟩

theorem lookupAttribution_specified (applies : Bool)
    (few : A.idauEnabled = true → (A.idauMatching address).length ≤ 1) :
    (lookupAttribution A (getRegionBase address) applies).attribution =
      if A.idauEnabled = true ∧ A.idauMatching address ≠ [] then
        attributionGetMoreSecure (A.idau.specified (A.idauMatching address))
          (A.sauSpecified address)
      else A.sauSpecified address := by
  have reports := tryGetRegion_reports A.idau A.numberOfIdauRegions address
    (pmsav8SauTryGetRegion A (getRegionBase address) applies).appliesToWholePage
  unfold lookupAttribution
  dsimp only
  rw [tryGetRegion_specified, sauTryGetRegion_specified]
  cases enabled : A.idauEnabled with
  | false => simp
  | true =>
    have hit := reports.1
    rw [and_iff_right trivial] at hit
    have single : (A.idauMatching address).length = 1 ↔ A.idauMatching address ≠ [] := by
      rw [← List.length_pos_iff]
      have := few enabled
      omega
    simp only [Bool.true_and, true_and]
    exact if_congr (hit.trans single) rfl rfl

theorem attributionFault_iff (attribution : SecurityAttribution) (secure : Bool)
    (access : AccessType) :
    attributionFault attribution secure access ≠ 0 ↔ FaultCell attribution secure access := by
  cases attribution <;> cases secure <;> cases access <;>
    simp [attributionFault, FaultCell, attributionIsSecure, bitIf]

theorem securityAttribution_eq (address : Word) (secure : Bool) (access : AccessType)
    (aligned : ∀ exemption ∈ A.exemptions, alignedBounds exemption) :
    pmsav8GetSecurityAttribution A address secure access = if 0xF0000000#32 ≤ address then
        regionless (if A.hasTrustzone then .secure else .nonSecure) true
      else if A.Exempt address access then
        regionless (ownAttribution secure)
          (pmsav8IsExemptFromAttribution A (getRegionBase address) access true).2
      else
        lookupAttribution A (getRegionBase address)
          (pmsav8IsExemptFromAttribution A (getRegionBase address) access true).2 := by
  unfold pmsav8GetSecurityAttribution
  rw [if_congr highRegion_iff rfl rfl]
  rw [if_congr (isExempt_iff aligned true) rfl rfl]

theorem securityAttribution_reports (address : Word) (secure : Bool) (access : AccessType)
    (aligned : ∀ exemption ∈ A.exemptions, alignedBounds exemption) :
    ReportsOnly (pmsav8GetSecurityAttribution A address secure access).sauValid
        (pmsav8GetSecurityAttribution A address secure access).sauRegion A.sau
        (A.sauMatching address) (A.LooksUp address access ∧ A.sauEnable = true) address ∧
      ReportsOnly (pmsav8GetSecurityAttribution A address secure access).idauValid
        (pmsav8GetSecurityAttribution A address secure access).idauRegion A.idau
        (A.idauMatching address) (A.LooksUp address access ∧ A.idauEnabled = true) address := by
  rw [securityAttribution_eq address secure access aligned]
  split
  · rename_i high
    exact ⟨.unasked fun asked => absurd high (BitVec.not_le.mpr asked.1.1),
      .unasked fun asked => absurd high (BitVec.not_le.mpr asked.1.1)⟩
  · rename_i low
    split
    · rename_i exempt
      exact ⟨.unasked fun asked => asked.1.2 exempt, .unasked fun asked => asked.1.2 exempt⟩
    · rename_i subject
      have looksUp : A.LooksUp address access := ⟨BitVec.not_le.mp low, subject⟩
      exact ⟨sauTryGetRegion_reports looksUp _, lookupAttribution_idau looksUp _⟩

theorem securityAttribution_specified (address : Word) (secure : Bool) (access : AccessType)
    (aligned : ∀ exemption ∈ A.exemptions, alignedBounds exemption)
    (few : A.idauEnabled = true → (A.idauMatching address).length ≤ 1) :
    (pmsav8GetSecurityAttribution A address secure access).attribution =
      A.specified address secure access := by
  rw [securityAttribution_eq address secure access aligned]
  unfold Attributions.specified
  split
  · rfl
  · split
    · rfl
    · exact lookupAttribution_specified _ few

/-- The attribution, the regions it reports and the faults follow the rules, where no two regions
of the IDAU match. -/
theorem securityAttribution_follows (A : Attributions) (address : Word) (secure : Bool)
    (access : AccessType) (aligned : ∀ exemption ∈ A.exemptions, alignedBounds exemption)
    (few : A.idauEnabled = true → (A.idauMatching address).length ≤ 1) :
    FollowsRules A address secure access
      (pmsav8GetSecurityAttribution A address secure access) := by
  have attribution := securityAttribution_specified address secure access aligned few
  exact
    { attribution := attribution
      sau := (securityAttribution_reports address secure access aligned).1
      idau := (securityAttribution_reports address secure access aligned).2
      faults := attribution ▸ attributionFault_iff _ secure access
      width := by decide }

def Attributions.emptyIdau : Attributions :=
  { hasTrustzone := true
    sauEnable := false
    sauAllns := true
    sau := ⟨fun _ => 0, fun _ => 0⟩
    numberOfSauRegions := 0
    idauEnabled := true
    idau := ⟨fun _ => 0, fun _ => 0⟩
    numberOfIdauRegions := 0
    exemptions := [(0x1000#32, 0x101F#32)] }

/-- No region of the IDAU matches. -/
theorem securityAttribution_follows_sample : FollowsRules .emptyIdau 0x2000#32 false .load
      (pmsav8GetSecurityAttribution .emptyIdau 0x2000#32 false .load) :=
  securityAttribution_follows .emptyIdau 0x2000#32 false .load
    (fun _ mem => List.mem_singleton.mp mem ▸ ⟨by decide, by decide⟩) fun _ => by decide

/-- An IDAU in which no region matches does not make an address Secure. -/
theorem idau_without_match : ¬∀ (A : Attributions) (address : Word) (secure : Bool)
    (access : AccessType), A.LooksUp address access → A.idauEnabled = true →
      (pmsav8GetSecurityAttribution A address secure access).attribution =
        attributionGetMoreSecure (A.idau.specified (A.idauMatching address))
          (A.sauSpecified address) := by
  intro claimed
  have secure := claimed .emptyIdau 0x2000#32 false .load ⟨by decide, by decide⟩ rfl
  revert secure
  decide

end Tlib.CortexM
