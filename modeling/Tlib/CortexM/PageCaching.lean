import Tlib.CortexM.ProtectionUnit
import Tlib.Library.BitMasks

/-!
Contract: permissions that are cached for a whole page.

Owns: that every lookup which claims to hold on a page finds the same on all of it.
-/

namespace Tlib.CortexM

open BitVec hiding not_and
open Bool hiding not_and

variable {a b : Word}

def SamePage (a b : Word) : Prop := pageStart a = pageStart b

theorem pageStart_toNat (a : Word) : (pageStart a).toNat = a.toNat / 1024 * 1024 := by
  exact @Library.BitMasks.and_highMask 32 10 a.toNat a.isLt (by decide)

theorem pageEnd_toNat (a : Word) : (pageEnd a).toNat = a.toNat / 1024 * 1024 + 1023 := by
  unfold pageEnd
  rw [toNat_sub, toNat_add, pageStart_toNat]
  simp only [toNat_ofNat]
  omega

theorem SamePage.toNat (same : SamePage a b) : a.toNat / 1024 = b.toNat / 1024 := by
  have start := congrArg BitVec.toNat same
  rw [pageStart_toNat, pageStart_toNat] at start
  omega

theorem SamePage.pageEnd (same : SamePage a b) : pageEnd a = pageEnd b :=
  congrArg (· + 0x400#32 - 1#32) same

theorem pageStart_getRegionBase (a : Word) : pageStart (getRegionBase a) = pageStart a := by
  unfold pageStart getRegionBase
  rw [BitVec.and_assoc]
  rfl

theorem SamePage.base (same : SamePage a b) : SamePage (getRegionBase a) (getRegionBase b) :=
  (pageStart_getRegionBase a).trans (same.trans (pageStart_getRegionBase b).symm)

theorem SamePage.boundary_le {boundary : Word} (same : SamePage a b)
    (aligned : boundary.toNat % 1024 = 0) : boundary ≤ a ↔ boundary ≤ b := by
  have page := same.toNat
  rw [le_def, le_def]
  omega

theorem SamePage.le_last {last : Word} (same : SamePage a b)
    (aligned : last.toNat % 1024 = 1023) : a ≤ last ↔ b ≤ last := by
  have page := same.toNat
  rw [le_def, le_def]
  omega

theorem SamePage.between {first last : Word} (same : SamePage a b)
    (begins : first.toNat % 1024 = 0) (ends : last.toNat % 1024 = 1023) :
    (decide (first ≤ a) && decide (a ≤ last)) = (decide (first ≤ b) && decide (b ≤ last)) := by
  rw [decide_eq_decide.mpr (same.boundary_le begins), decide_eq_decide.mpr (same.le_last ends)]

theorem cutsPage_same (same : SamePage a b) (first last : Word) :
    cutsPage a first last = cutsPage b first last := by
  unfold cutsPage
  rw [same, same.pageEnd]

theorem inside_same {first last : Word} (same : SamePage a b)
    (uncut : cutsPage a first last = false) :
    (first ≤ a ∧ a ≤ last) ↔ (first ≤ b ∧ b ≤ last) := by
  have page := same.toNat
  unfold cutsPage at uncut
  rw [or_eq_false_iff, and_eq_false_iff, and_eq_false_iff,
    decide_eq_false_iff_not, decide_eq_false_iff_not, decide_eq_false_iff_not,
    decide_eq_false_iff_not, lt_def, le_def, le_def, lt_def,
    pageStart_toNat, pageEnd_toNat] at uncut
  rw [le_def, le_def, le_def, le_def]
  omega

theorem update_same (same : SamePage a b) (first last : Word) (applies : Bool) :
    updateAppliesToWholePage a first last applies =
      updateAppliesToWholePage b first last applies := by
  unfold updateAppliesToWholePage
  rw [cutsPage_same same]

theorem update_true {first last : Word} {applies : Bool}
    (whole : updateAppliesToWholePage a first last applies = true) :
    applies = true ∧ cutsPage a first last = false := by
  unfold updateAppliesToWholePage at whole
  rw [and_eq_true, not_eq_true'] at whole
  exact whole

theorem outside_same {regions : Regions} {n : Nat} (same : SamePage a b)
    (uncut : cutsPage a (regions.base n) (regions.limit n) = false) :
    regions.outside n a = regions.outside n b := by
  have inside := inside_same same uncut
  unfold Regions.outside
  rw [Bool.eq_iff_iff, or_eq_true, or_eq_true, decide_eq_true_iff, decide_eq_true_iff,
    decide_eq_true_iff, decide_eq_true_iff, ← BitVec.not_le, ← BitVec.not_le, ← BitVec.not_le,
    ← BitVec.not_le]
  rw [← Decidable.not_and_iff_not_or_not, ← Decidable.not_and_iff_not_or_not]
  exact not_congr inside

variable {Found : Type} {regions : Regions} {atFirst : Nat → Found} {atSecond : Found → Found}

theorem scanRegions_applies {ns : List Nat} {lookup : Lookup Found}
    (whole : (scanRegions regions a atFirst atSecond ns lookup).appliesToWholePage = true) :
    lookup.appliesToWholePage = true := by
  induction ns generalizing lookup with
  | nil => exact whole
  | cons n rest ih =>
    unfold scanRegions at whole
    split at whole
    · exact ih whole
    · dsimp only at whole
      split at whole
      · exact (update_true (ih whole)).1
      · split at whole
        · exact (update_true whole).1
        · exact (update_true (ih whole)).1

theorem scanRegions_same {ns : List Nat} {lookup : Lookup Found} (same : SamePage a b)
    (whole : (scanRegions regions a atFirst atSecond ns lookup).appliesToWholePage = true) :
    scanRegions regions b atFirst atSecond ns lookup =
      scanRegions regions a atFirst atSecond ns lookup := by
  induction ns generalizing lookup with
  | nil => rfl
  | cons n rest ih =>
    unfold scanRegions at whole ⊢
    split
    · rename_i disabled
      rw [if_pos disabled] at whole
      exact ih whole
    · rename_i enabled
      rw [if_neg enabled] at whole
      -- Whatever the scan does with the region, it has looked at its edges.
      have uncut : cutsPage a (regions.base n) (regions.limit n) = false := by
        split at whole
        · exact (update_true (scanRegions_applies whole)).2
        · split at whole
          · exact (update_true whole).2
          · exact (update_true (scanRegions_applies whole)).2
      rw [← outside_same same uncut, ← update_same same]
      split
      · rename_i outside
        rw [if_pos outside] at whole
        exact ih whole
      · rename_i inside
        rw [if_neg inside] at whole
        split
        · rfl
        · rename_i first
          rw [if_neg first] at whole
          exact ih whole

theorem tryGetExemption_missed {wasTrue : Bool} {exemptions : List (Word × Word)} {applies : Bool}
    (same : SamePage a b)
    (missed : (tryGetExemptionRegion a wasTrue exemptions applies).1 = false)
    (whole : (tryGetExemptionRegion a wasTrue exemptions applies).2 = true) :
    applies = true ∧ tryGetExemptionRegion b wasTrue exemptions applies =
      tryGetExemptionRegion a wasTrue exemptions applies := by
  induction exemptions generalizing applies with
  | nil => exact ⟨whole, rfl⟩
  | cons exemption rest ih =>
    unfold tryGetExemptionRegion at missed whole ⊢
    split at missed
    · cases missed
    · rename_i outside
      rw [if_neg outside] at whole ⊢
      obtain ⟨flag, agrees⟩ := ih missed whole
      obtain ⟨start, uncut⟩ := update_true flag
      apply And.intro start
      rw [if_neg fun inside => outside ((inside_same same uncut).mpr inside), ← update_same same]
      exact agrees

theorem tryGetExemption_hit {exemptions : List (Word × Word)} {applies : Bool}
    (same : SamePage a b) (hit : (tryGetExemptionRegion a true exemptions applies).1 = true)
    (whole : (tryGetExemptionRegion a true exemptions applies).2 = true) :
    (tryGetExemptionRegion b true exemptions applies).1 = true := by
  induction exemptions generalizing applies with
  | nil => cases hit
  | cons exemption rest ih =>
    unfold tryGetExemptionRegion at hit whole ⊢
    split
    · rfl
    · rename_i outside
      split at hit
      · rename_i inside
        rw [if_pos inside] at whole
        have uncut := (update_true whole).2
        exact absurd ((inside_same same uncut).mp inside) outside
      · rename_i apart
        rw [if_neg apart] at whole
        rw [← update_same same]
        exact ih hit whole

theorem isArchitectureExempt_same (same : SamePage a b) :
    isArchitectureExempt a = isArchitectureExempt b := by
  unfold isArchitectureExempt
  rw [same.between (by decide) (by decide), same.between (by decide) (by decide),
    same.between (by decide) (by decide), same.between (by decide) (by decide),
    same.between (by decide) (by decide), same.between (by decide) (by decide)]

theorem isFetchExempt_same (same : SamePage a b) : isFetchExempt a = isFetchExempt b :=
  same.between (by decide) (by decide)

variable {A : Attributions} {access other : AccessType}

theorem exempt_same (same : SamePage a b)
    (exempt : (pmsav8IsExemptFromAttribution A a access true).1 = true)
    (whole : (pmsav8IsExemptFromAttribution A a access true).2 = true) :
    (pmsav8IsExemptFromAttribution A b other true).1 = true := by
  unfold pmsav8IsExemptFromAttribution at exempt whole ⊢
  rw [← isArchitectureExempt_same same]
  split
  · rfl
  · rename_i architecture
    rw [if_neg architecture] at exempt whole
    cases hit : (tryGetExemptionRegion a true A.exemptions true).1 with
    | true =>
      rw [if_pos hit] at whole
      have found := tryGetExemption_hit same hit whole
      rw [if_pos found]
      exact found
    | false =>
      have notHit : ¬ (tryGetExemptionRegion a true A.exemptions true).1 = true := by
        rw [hit]
        exact Bool.false_ne_true
      rw [if_neg notHit] at exempt whole
      split at whole
      · cases whole
      · rename_i fetch
        rw [if_neg fetch, hit] at exempt
        cases exempt

theorem notExempt_same (same : SamePage a b)
    (plain : (pmsav8IsExemptFromAttribution A a access true).1 = false)
    (whole : (pmsav8IsExemptFromAttribution A a access true).2 = true) :
    pmsav8IsExemptFromAttribution A b other true = (false, true) ∨
      (other = .fetch ∧ isFetchExempt a = true ∧
        (pmsav8IsExemptFromAttribution A b other true).1 = true) := by
  unfold pmsav8IsExemptFromAttribution at plain whole ⊢
  rw [← isArchitectureExempt_same same, ← isFetchExempt_same same]
  split at plain
  · cases plain
  · rename_i architecture
    rw [if_neg architecture] at whole ⊢
    dsimp only at plain whole ⊢
    split at plain
    · rename_i hit
      rw [hit] at plain
      cases plain
    · rename_i notHit
      rw [if_neg notHit] at whole
      split at plain
      · cases plain
      · rename_i fetch
        rw [if_neg fetch] at whole
        obtain ⟨-, agrees⟩ := tryGetExemption_missed same plain whole
        rw [agrees, if_neg notHit]
        split
        · rename_i otherFetch
          rw [and_eq_true, decide_eq_true_iff] at otherFetch
          exact .inr ⟨otherFetch.1, otherFetch.2, rfl⟩
        · apply Or.inl
          exact Prod.ext plain whole

theorem lookup_same {applies : Bool} (same : SamePage a b)
    (whole : (lookupAttribution A a applies).appliesToWholePage = true) :
    applies = true ∧ lookupAttribution A b applies = lookupAttribution A a applies := by
  have sauSame (flag : (pmsav8SauTryGetRegion A a applies).appliesToWholePage = true) :
      applies = true ∧ pmsav8SauTryGetRegion A b applies = pmsav8SauTryGetRegion A a applies := by
    unfold pmsav8SauTryGetRegion pmsav8IdauSauTryGetRegion at flag ⊢
    split
    · rename_i disabled
      rw [if_pos disabled] at flag
      exact ⟨flag, rfl⟩
    · rename_i enabled
      rw [if_neg enabled] at flag
      exact ⟨scanRegions_applies flag, scanRegions_same same flag⟩
  unfold lookupAttribution at whole ⊢
  dsimp only at whole ⊢
  cases idau : A.idauEnabled with
  | false =>
    rw [idau, if_neg Bool.false_ne_true] at whole
    obtain ⟨flag, agrees⟩ := sauSame whole
    apply And.intro flag
    rw [agrees]
    simp
  | true =>
    rw [idau, if_pos rfl] at whole
    unfold pmsav8IdauSauTryGetRegion at whole ⊢
    have before := scanRegions_applies whole
    obtain ⟨flag, agrees⟩ := sauSame before
    apply And.intro flag
    rw [agrees, scanRegions_same same whole]

theorem highRegion_same (same : SamePage a b) :
    getRegionBase a &&& 0xF0000000#32 = getRegionBase b &&& 0xF0000000#32 := by
  have page (c : Word) : getRegionBase c &&& 0xF0000000#32 = pageStart c &&& 0xF0000000#32 := by
    unfold getRegionBase pageStart
    rw [BitVec.and_assoc, BitVec.and_assoc]
    rfl
  rw [page, page, same]

theorem attribution_same {secure : Bool} (same : SamePage a b)
    (whole : (pmsav8GetSecurityAttribution A a secure access).appliesToWholePage = true) :
    (pmsav8GetSecurityAttribution A b secure other).attribution =
        (pmsav8GetSecurityAttribution A a secure access).attribution ∨
      (other = .fetch ∧ isFetchExempt (getRegionBase a) = true ∧
        (pmsav8GetSecurityAttribution A b secure other).attribution = ownAttribution secure) := by
  have base := same.base
  unfold pmsav8GetSecurityAttribution at whole ⊢
  rw [← highRegion_same same]
  split
  · exact .inl rfl
  · rename_i low
    rw [if_neg low] at whole
    dsimp only at whole ⊢
    cases exempt : (pmsav8IsExemptFromAttribution A (getRegionBase a) access true).1 with
    | true =>
      rw [if_pos exempt] at whole
      have found := @exempt_same _ _ A access other base exempt whole
      rw [if_pos found, if_pos rfl]
      exact .inl rfl
    | false =>
      rw [exempt, if_neg Bool.false_ne_true] at whole
      obtain ⟨flag, agrees⟩ := lookup_same base whole
      rcases @notExempt_same _ _ A access other base exempt flag with
        plain | ⟨fetch, range, found⟩
      · rw [plain, if_neg Bool.false_ne_true]
        rw [flag] at agrees ⊢
        exact .inl (congrArg AttributionResult.attribution agrees)
      · rw [if_pos found]
        exact .inr ⟨fetch, range, rfl⟩

theorem defaultMapping_same (same : SamePage a b) : defaultMapping a = defaultMapping b := by
  unfold defaultMapping
  simp [@SamePage.le_last _ _ 0x7FFFFFFF#32 same (by decide)]

theorem enforceXn_same (same : SamePage a b) (prot : Prot) :
    enforceXn a prot = enforceXn b prot := by
  unfold enforceXn
  simp [@SamePage.boundary_le _ _ 0xE0000000#32 same (by decide)]

theorem pmsav8Prot_same {v81m isUser : Bool} {mpu : Pmsav8} {found : RegionFound}
    (same : SamePage a b) :
    pmsav8Prot v81m mpu found a isUser = pmsav8Prot v81m mpu found b isUser := by
  unfold pmsav8Prot
  simp [defaultMapping_same same, enforceXn_same same]

theorem pmsav8Prot_disabled {v81m isUser : Bool} {mpu : Pmsav8} (found second : RegionFound)
    (disabled : mpu.enabled = false) :
    pmsav8Prot v81m mpu found a isUser = pmsav8Prot v81m mpu second a isUser := by
  unfold pmsav8Prot
  rw [disabled]
  rfl

variable {C : Configuration} {isSecure isUser : Bool}

theorem checkMpu_same (same : SamePage a b)
    (granted : (C.checkMpu a isSecure access isUser).granted = true)
    (whole : targetPageSize ≤ (C.checkMpu a isSecure access isUser).pageSize) :
    (C.checkMpu b isSecure other isUser).prot = (C.checkMpu a isSecure access isUser).prot ∧
      (C.checkMpu b isSecure other isUser).granted =
        (C.checkMpu a isSecure access isUser).prot.allows other ∧
      (C.checkMpu a isSecure access isUser).prot.allows access = true := by
  unfold Configuration.checkMpu at granted whole ⊢
  split
  · exact ⟨rfl, by cases other <;> rfl, by cases access <;> rfl⟩
  · rename_i implemented
    rw [if_neg implemented] at granted whole
    unfold pmsav8CheckAccess at granted whole ⊢
    dsimp only at granted whole ⊢
    have agrees : pmsav8Prot C.v81m (C.mpu isSecure)
          (pmsav8GetRegion (C.mpu isSecure) C.numberOfMpuRegions b).found b isUser =
        pmsav8Prot C.v81m (C.mpu isSecure)
          (pmsav8GetRegion (C.mpu isSecure) C.numberOfMpuRegions a).found a isUser := by
      rw [← pmsav8Prot_same same]
      cases enabled : (C.mpu isSecure).enabled with
      | false => exact pmsav8Prot_disabled _ _ enabled
      | true =>
        cases page : (pmsav8GetRegion (C.mpu isSecure) C.numberOfMpuRegions
            a).appliesToWholePage with
        | true =>
          unfold pmsav8GetRegion at page ⊢
          rw [scanRegions_same same page]
        | false =>
          split at granted
          · cases granted
          · rename_i prot found
            have allowed : prot.allows access = true := granted
            simp only [found] at whole
            rw [allowed, enabled, page] at whole
            exact absurd whole (by decide)
    rw [agrees]
    split at granted
    · cases granted
    · exact ⟨rfl, rfl, granted⟩

/-- What a translation that succeeds has passed. -/
structure Granted (C : Configuration) (a : Word) (isSecure : Bool) (access : AccessType)
    (isUser : Bool) : Prop where
  secure : attributionFault (C.attributionOf a isSecure access).attribution isSecure access = 0
  mpu : (C.checkMpu a isSecure access isUser).granted = true
  gateway : isSecure = false → access = .fetch →
    (C.attributionOf a isSecure access).attribution = .secureNsc → C.isSgHalf a = true

theorem getPhysAddr_success : (C.getPhysAddr a isSecure access isUser).result = .success ↔
      Granted C a isSecure access isUser := by
  unfold Configuration.getPhysAddr
  dsimp only
  constructor
  · intro success
    split at success
    · cases success
    · rename_i secure
      split at success
      · cases success
      · rename_i mpu
        split at success
        · cases success
        · rename_i gateway
          constructor
          · simpa using secure
          · simpa using mpu
          · intro nonSecure fetch nsc
            subst nonSecure fetch
            simp only [Bool.not_false, decide_true, Bool.true_and, and_eq_true,
              not_eq_true', decide_eq_true_iff, not_and, not_eq_false] at gateway
            exact gateway nsc
  · intro granted
    have gateway : ¬ ((!isSecure && decide (access = .fetch) &&
        decide ((C.attributionOf a isSecure access).attribution = .secureNsc) &&
        !C.isSgHalf a) = true) := by
      simp only [and_eq_true, not_eq_true', decide_eq_true_iff]
      rintro ⟨⟨⟨nonSecure, fetch⟩, nsc⟩, notSg⟩
      rw [granted.gateway nonSecure fetch nsc] at notSg
      cases notSg
    rw [if_neg (not_not.mpr granted.secure), granted.mpu, if_neg (by decide), if_neg gateway]

theorem Granted.eq (granted : Granted C a isSecure access isUser) :
    C.getPhysAddr a isSecure access isUser =
      { result := .success
        prot := (C.checkMpu a isSecure access isUser).prot.inter
          (allowedPermissions (C.attributionOf a isSecure access).attribution isSecure access)
        pageSize :=
          min (if (C.attributionOf a isSecure access).appliesToWholePage then targetPageSize
            else regionGranularity) (C.checkMpu a isSecure access isUser).pageSize } := by
  have success := getPhysAddr_success.mpr granted
  unfold Configuration.getPhysAddr at success ⊢
  dsimp only at success ⊢
  split
  · rename_i fault
    exact absurd granted.secure fault
  · split
    · rename_i fine refused
      rw [if_neg fine, if_pos refused] at success
      cases success
    · split
      · rename_i fine mpu refused
        rw [if_neg fine, if_neg mpu, if_pos refused] at success
        cases success
      · rfl

/-- The cached permissions are those that every byte of the page would be granted. -/
def CachedSafely (C : Configuration) (address : Word) (isSecure : Bool) (access : AccessType)
    (isUser : Bool) : Prop :=
  ∀ b, SamePage address b → ∀ other,
    (C.getPhysAddr address isSecure access isUser).prot.allows other = true →
      (C.getPhysAddr b isSecure other isUser).result = .success

theorem allows_inter (prot allowed : Prot) (access : AccessType) :
    (prot.inter allowed).allows access = (prot.allows access && allowed.allows access) := by
  cases access <;> rfl

theorem allowed_no_fault : ∀ attribution isSecure access other,
    attributionFault attribution isSecure access = 0 →
    (allowedPermissions attribution isSecure access).allows other = true →
    attributionFault attribution isSecure other = 0 := by
  intro attribution isSecure access other
  cases attribution <;> cases isSecure <;> cases access <;> cases other <;> decide

theorem own_no_fault (isSecure : Bool) (access : AccessType) :
    attributionFault (ownAttribution isSecure) isSecure access = 0 := by
  cases isSecure <;> cases access <;> decide

theorem isSgHalf_bytes :
    C.isSgHalf a = true ↔ C.memory (a + 1#32) = 0xe9#8 ∧ C.memory a = 0x7f#8 := by
  have halves : ∀ high low : BitVec 8, high ++ low = 0xe97f#16 ↔ high = 0xe9#8 ∧ low = 0x7f#8 := by
    intro high low
    constructor
    · intro joined
      constructor
      · have upper := congrArg (extractLsb' 8 8) joined
        rw [extractLsb'_append_eq_left] at upper
        exact upper
      · have lower := congrArg (extractLsb' 0 8) joined
        rw [extractLsb'_append_eq_right] at lower
        exact lower
    · rintro ⟨rfl, rfl⟩
      rfl
  unfold Configuration.isSgHalf
  rw [decide_eq_true_iff, halves]

theorem samePage_of_toNat (page : a.toNat / 1024 = b.toNat / 1024) : SamePage a b := by
  apply eq_of_toNat_eq
  rw [pageStart_toNat, pageStart_toNat, page]

theorem isSgHalf_neighbour (sg : C.isSgHalf a = true) :
    ∃ b, SamePage a b ∧ C.isSgHalf b = false := by
  obtain ⟨high, low⟩ := isSgHalf_bytes.mp sg
  have bound := a.isLt
  rcases Nat.mod_two_eq_zero_or_one a.toNat with even | odd
  · refine ⟨a + 1#32, samePage_of_toNat (by bv_omega), ?_⟩
    rw [eq_false_iff]
    intro next
    have byte := (isSgHalf_bytes.mp next).2
    rw [high] at byte
    exact absurd byte (by decide)
  · refine ⟨a - 1#32, samePage_of_toNat (by bv_omega), ?_⟩
    rw [eq_false_iff]
    intro before
    have byte := (isSgHalf_bytes.mp before).1
    rw [BitVec.sub_add_cancel, low] at byte
    exact absurd byte (by decide)

theorem fetchExempt_not_nsc {secure : Bool} (exempt : isFetchExempt (getRegionBase a) = true) :
    (pmsav8GetSecurityAttribution A a secure .fetch).attribution ≠ .secureNsc := by
  have found : (pmsav8IsExemptFromAttribution A (getRegionBase a) .fetch true).1 = true := by
    unfold pmsav8IsExemptFromAttribution
    split
    · rfl
    · dsimp only
      split
      · assumption
      · rw [exempt, if_pos (by decide)]
  unfold pmsav8GetSecurityAttribution
  split
  · cases A.hasTrustzone <;> decide
  · dsimp only
    rw [if_pos found]
    show ownAttribution secure ≠ .secureNsc
    cases secure <;> decide

/-- Cached permissions are too wide exactly if they are those of a Non-secure fetch from a Secure
Non-secure-callable page, of which only the fetched address has been looked at. -/
theorem cachedSafely_iff {address : Word}
    (granted : (C.getPhysAddr address isSecure access isUser).result = .success)
    (cached : targetPageSize ≤ (C.getPhysAddr address isSecure access isUser).pageSize) :
    CachedSafely C address isSecure access isUser ↔ ¬ (isSecure = false ∧
        (C.attributionOf address isSecure access).attribution = .secureNsc) := by
  have passed := getPhysAddr_success.mp granted
  have answer := passed.eq
  rw [answer] at cached
  have sizes := Nat.le_min.mp cached
  have whole : (C.attributionOf address isSecure access).appliesToWholePage = true := by
    cases applies : (C.attributionOf address isSecure access).appliesToWholePage with
    | true => rfl
    | false =>
      have small := sizes.1
      rw [applies] at small
      exact absurd small (by decide)
  constructor
  · rintro safe ⟨nonSecure, nsc⟩
    have fetch : access = .fetch := by
      have fine := passed.secure
      rw [nsc, nonSecure] at fine
      cases access with
      | fetch => rfl
      | load => exact absurd fine (by decide)
      | store => exact absurd fine (by decide)
    have mpu := (@checkMpu_same address address access access C isSecure isUser rfl passed.mpu
      sizes.2).2.2
    have allowed : (C.getPhysAddr address isSecure access isUser).prot.allows .fetch = true := by
      rw [answer, allows_inter, nsc, nonSecure, fetch]
      rw [nonSecure, fetch] at mpu
      rw [mpu]
      rfl
    obtain ⟨b, same, notSg⟩ := isSgHalf_neighbour (passed.gateway nonSecure fetch nsc)
    have fresh := getPhysAddr_success.mp (safe b same .fetch allowed)
    have attribution : (C.attributionOf b isSecure .fetch).attribution = .secureNsc := by
      rcases @attribution_same _ _ _ _ .fetch _ same whole with agrees | ⟨-, range, -⟩
      · exact agrees.trans nsc
      · rw [fetch] at nsc
        exact absurd nsc (fetchExempt_not_nsc range)
    have sg := fresh.gateway nonSecure rfl attribution
    rw [notSg] at sg
    cases sg
  · intro safe b same other allowed
    rw [answer, allows_inter, and_eq_true] at allowed
    have mpu := @checkMpu_same _ _ _ other _ _ _ same passed.mpu sizes.2
    apply getPhysAddr_success.mpr
    rcases @attribution_same _ _ _ _ other _ same whole with agrees | ⟨-, -, own⟩
    · have attribution : (C.attributionOf b isSecure other).attribution =
          (C.attributionOf address isSecure access).attribution := agrees
      constructor
      · rw [attribution]
        exact allowed_no_fault _ _ _ _ passed.secure allowed.2
      · exact mpu.2.1.trans allowed.1
      · intro nonSecure _ nsc
        exact absurd ⟨nonSecure, attribution.symm.trans nsc⟩ safe
    · have attribution : (C.attributionOf b isSecure other).attribution =
          ownAttribution isSecure := own
      constructor
      · rw [attribution]
        exact own_no_fault isSecure other
      · exact mpu.2.1.trans allowed.1
      · intro nonSecure _ nsc
        rw [attribution, nonSecure] at nsc
        cases nsc

/-- One Secure Non-secure-callable page at address 0 with a single gateway. -/
def gatewayPage : Configuration :=
  { attributions :=
      { hasTrustzone := true
        sauEnable := true
        sauAllns := false
        sau := { rbar := fun _ => 0, rlar := fun _ => 0x3e3#32 }
        numberOfSauRegions := 1
        idauEnabled := false
        idau := { rbar := fun _ => 0, rlar := fun _ => 0 }
        numberOfIdauRegions := 0
        exemptions := [] }
    v81m := false
    numberOfMpuRegions := 8
    mpu := fun _ =>
      { enabled := false
        privdefena := false
        regions := { rbar := fun _ => 0, rlar := fun _ => 0 } }
    memory := fun b =>
      if b = 0#32 ∨ b = 2#32 then 0x7f#8 else if b = 1#32 ∨ b = 3#32 then 0xe9#8 else 0 }

/-- Secure code may use the page as it likes. -/
theorem cachedSafely_gatewayPage : CachedSafely gatewayPage 4#32 true .fetch false :=
  (cachedSafely_iff (by decide) (by decide)).mpr (by decide)

/-- A Non-secure fetch of the gateway caches the permission to execute what lies behind it. -/
theorem gateway_opens_page :
    ¬ ∀ (C : Configuration) (address : Word) (isSecure : Bool) (access : AccessType)
      (isUser : Bool), (C.getPhysAddr address isSecure access isUser).result = .success →
      targetPageSize ≤ (C.getPhysAddr address isSecure access isUser).pageSize →
      CachedSafely C address isSecure access isUser := by
  intro always
  have safe := always gatewayPage 0#32 false .fetch false (by decide) (by decide)
  have behind := safe 4#32 rfl .fetch (by decide)
  exact absurd behind (by decide)

end Tlib.CortexM
