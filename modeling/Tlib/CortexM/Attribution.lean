import Tlib.CortexM.SecureCalls

/-!
Contract: the security attribution of addresses.

Owns: the regions of the SAU and the IDAU, the scan for the region of an address, the exemptions,
and `pmsav8_get_security_attribution` with the page for which its answer holds.
-/

namespace Tlib.CortexM

/-- `address & TARGET_PAGE_MASK` -/
def pageStart (address : Word) : Word := address &&& ~~~0x3ff#32

def pageEnd (address : Word) : Word := pageStart address + 0x400#32 - 1#32

def getRegionBase (addressOrRbar : Word) : Word := addressOrRbar &&& ~~~0x1f#32

def getRegionLimit (addressOrRlar : Word) : Word := addressOrRlar ||| 0x1f#32

def cutsPage (address regionStart regionEnd : Word) : Bool :=
  (decide (pageStart address < regionStart) && decide (regionStart ≤ pageEnd address)) ||
    (decide (pageStart address ≤ regionEnd) && decide (regionEnd < pageEnd address))

/-- `update__applies_to_whole_page`; callers that pass no flag do not look at it. -/
def updateAppliesToWholePage (address regionStart regionEnd : Word) (appliesToWholePage : Bool) :
    Bool :=
  appliesToWholePage && !cutsPage address regionStart regionEnd

/-- The registers of a unit with regions, `rbar` and `rlar`. -/
structure Regions where
  (rbar rlar : Nat → Word)

def Regions.base (regions : Regions) (n : Nat) : Word := getRegionBase (regions.rbar n)

def Regions.limit (regions : Regions) (n : Nat) : Word := getRegionLimit (regions.rlar n)

/-- Bit 0 of `rlar`, in all the units. -/
def Regions.enabled (regions : Regions) (n : Nat) : Bool := (regions.rlar n).getLsbD 0

/-- `IDAU_SAU_RLAR_NSC` -/
def Regions.nsc (regions : Regions) (n : Nat) : Bool := (regions.rlar n).getLsbD 1

def Regions.outside (regions : Regions) (n : Nat) (address : Word) : Bool :=
  decide (address < regions.base n) || decide (regions.limit n < address)

/-- What a scan of regions comes to. -/
structure Lookup (Found : Type) where
  hit : Bool
  found : Found
  appliesToWholePage : Bool

/-- The loop that the units share; at the second match it stops. -/
def scanRegions {Found : Type} (regions : Regions) (address : Word) (first : Nat → Found)
    (second : Found → Found) : List Nat → Lookup Found → Lookup Found
  | [], lookup => lookup
  | n :: rest, lookup =>
    if !regions.enabled n then scanRegions regions address first second rest lookup
    else
      let applies := updateAppliesToWholePage address (regions.base n) (regions.limit n)
        lookup.appliesToWholePage
      if regions.outside n address then
        scanRegions regions address first second rest
          { lookup with appliesToWholePage := applies }
      else if lookup.hit then
        { hit := false, found := second lookup.found, appliesToWholePage := applies }
      else
        scanRegions regions address first second rest
          { hit := true, found := first n, appliesToWholePage := applies }

structure Attributed where
  regionIndex : Option Nat
  attribution : SecurityAttribution
  deriving DecidableEq

def Regions.attributed (regions : Regions) (n : Nat) : Attributed :=
  { regionIndex := some n
    attribution := if regions.nsc n then .secureNsc else .nonSecure }

/-- An address in more than one region is Secure. -/
def Attributed.overlapping (attributed : Attributed) : Attributed :=
  { attributed with attribution := .secure }

def pmsav8IdauSauTryGetRegion (regions : Regions) (regionsCount : Nat) (address : Word)
    (appliesToWholePage : Bool) : Lookup Attributed :=
  scanRegions regions address regions.attributed Attributed.overlapping
    (List.range regionsCount)
    { hit := false
      found := { regionIndex := none, attribution := .secure }
      appliesToWholePage := appliesToWholePage }

/-- `attribution_get_more_secure`; the source compares the values of the enumeration. -/
def attributionGetMoreSecure : SecurityAttribution → SecurityAttribution → SecurityAttribution
  | .secure, _ => .secure
  | _, .secure => .secure
  | .secureNsc, _ => .secureNsc
  | _, .secureNsc => .secureNsc
  | .nonSecure, .nonSecure => .nonSecure

def attributionIsSecure : SecurityAttribution → Bool
  | .nonSecure => false
  | _ => true

structure Attributions where
  hasTrustzone : Bool
  /-- `SAU_CTRL_ENABLE` and `SAU_CTRL_ALLNS` -/
  (sauEnable sauAllns : Bool)
  sau : Regions
  numberOfSauRegions : Nat
  idauEnabled : Bool
  idau : Regions
  numberOfIdauRegions : Nat
  /-- `impl_def_attr_exemptions`, the first and the last address of each. -/
  exemptions : List (Word × Word)

def pmsav8SauTryGetRegion (A : Attributions) (address : Word) (appliesToWholePage : Bool) :
    Lookup Attributed :=
  if !A.sauEnable then
    { hit := false
      found :=
        { regionIndex := none, attribution := if A.sauAllns then .nonSecure else .secure }
      appliesToWholePage := appliesToWholePage }
  else pmsav8IdauSauTryGetRegion A.sau A.numberOfSauRegions address appliesToWholePage

/-- `try_get_impl_def_attr_exemption_region`: whether there is one, and the flag. -/
def tryGetExemptionRegion (address : Word) (wasTrue : Bool) :
    List (Word × Word) → Bool → Bool × Bool
  | [], applies => (false, applies)
  | (first, last) :: rest, applies =>
    if first ≤ address ∧ address ≤ last then
      (true, updateAppliesToWholePage address first last (applies || wasTrue))
    else
      tryGetExemptionRegion address wasTrue rest
        (updateAppliesToWholePage address first last applies)

def isArchitectureExempt (address : Word) : Bool :=
  decide (0xE0000000#32 ≤ address) && decide (address ≤ 0xE0003FFF#32) ||
    decide (0xE0005000#32 ≤ address) && decide (address ≤ 0xE0005FFF#32) ||
    decide (0xE000E000#32 ≤ address) && decide (address ≤ 0xE000EFFF#32) ||
    decide (0xE002E000#32 ≤ address) && decide (address ≤ 0xE002EFFF#32) ||
    decide (0xE0040000#32 ≤ address) && decide (address ≤ 0xE0041FFF#32) ||
    decide (0xE00FF000#32 ≤ address) && decide (address ≤ 0xE00FFFFF#32)

def isFetchExempt (address : Word) : Bool :=
  decide (0xE0000000#32 ≤ address) && decide (address ≤ 0xEFFFFFFF#32)

def pmsav8IsExemptFromAttribution (A : Attributions) (address : Word) (access : AccessType)
    (appliesToWholePage : Bool) : Bool × Bool :=
  if isArchitectureExempt address then (true, appliesToWholePage)
  else
    let found := tryGetExemptionRegion address appliesToWholePage A.exemptions appliesToWholePage
    if found.1 then found
    else if decide (access = .fetch) && isFetchExempt address then (true, false)
    else found

/-- The results of `pmsav8_get_security_attribution`. -/
structure AttributionResult where
  idauValid : Bool
  idauRegion : Option Nat
  sauValid : Bool
  sauRegion : Option Nat
  attribution : SecurityAttribution
  appliesToWholePage : Bool
  deriving DecidableEq

def regionless (attribution : SecurityAttribution) (appliesToWholePage : Bool) :
    AttributionResult :=
  { idauValid := false
    idauRegion := none
    sauValid := false
    sauRegion := none
    attribution := attribution
    appliesToWholePage := appliesToWholePage }

def ownAttribution (secure : Bool) : SecurityAttribution := if secure then .secure else .nonSecure

def lookupAttribution (A : Attributions) (address : Word) (appliesToWholePage : Bool) :
    AttributionResult :=
  let sau := pmsav8SauTryGetRegion A address appliesToWholePage
  let idau := pmsav8IdauSauTryGetRegion A.idau A.numberOfIdauRegions address
    sau.appliesToWholePage
  { idauValid := A.idauEnabled && idau.hit
    idauRegion := if A.idauEnabled then idau.found.regionIndex else none
    sauValid := sau.hit
    sauRegion := sau.found.regionIndex
    attribution :=
      if A.idauEnabled && idau.hit then
        attributionGetMoreSecure idau.found.attribution sau.found.attribution
      else sau.found.attribution
    appliesToWholePage :=
      if A.idauEnabled then idau.appliesToWholePage else sau.appliesToWholePage }

def pmsav8GetSecurityAttribution (A : Attributions) (address : Word) (secure : Bool)
    (access : AccessType) : AttributionResult :=
  if getRegionBase address &&& 0xF0000000#32 = 0xF0000000#32 then
    regionless (if A.hasTrustzone then .secure else .nonSecure) true
  else
    let exempt := pmsav8IsExemptFromAttribution A (getRegionBase address) access true
    if exempt.1 then regionless (ownAttribution secure) exempt.2
    else lookupAttribution A (getRegionBase address) exempt.2

end Tlib.CortexM
