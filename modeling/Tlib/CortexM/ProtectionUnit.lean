import Tlib.CortexM.Attribution

/-!
Contract: permissions of accesses, as `get_phys_addr` answers them on a v8-M core.

Owns: the regions of the protection unit and its background map, and the checks of `get_phys_addr`
in their order.
-/

namespace Tlib.CortexM

/-- `PAGE_READ`, `PAGE_WRITE` and `PAGE_EXEC` -/
structure Prot where
  (read write exec : Bool)
  deriving DecidableEq, Repr

def Prot.all : Prot := { read := true, write := true, exec := true }

def Prot.none : Prot := { read := false, write := false, exec := false }

def Prot.readWrite : Prot := { read := true, write := true, exec := false }

def Prot.inter (prot other : Prot) : Prot :=
  { read := prot.read && other.read
    write := prot.write && other.write
    exec := prot.exec && other.exec }

/-- `is_page_access_valid` -/
def Prot.allows (prot : Prot) : AccessType → Bool
  | .load => prot.read
  | .store => prot.write
  | .fetch => prot.exec

/-- `TARGET_PAGE_SIZE` and `PMSAV8_IDAU_SAU_REGION_GRANULARITY_B` -/
def targetPageSize : Nat := 0x400

def regionGranularity : Nat := 0x20

/-- `pmsav8`, of one Security state. -/
structure Pmsav8 where
  /-- `PMSA_ENABLED` and `PMSA_PRIVDEFENA` -/
  (enabled privdefena : Bool)
  regions : Regions

structure RegionFound where
  regionIndex : Option Nat
  multipleRegions : Bool
  deriving DecidableEq

def pmsav8GetRegion (mpu : Pmsav8) (numberOfMpuRegions : Nat) (address : Word) :
    Lookup RegionFound :=
  scanRegions mpu.regions address (fun n => { regionIndex := some n, multipleRegions := false })
    (fun _ => { regionIndex := none, multipleRegions := true })
    (List.range numberOfMpuRegions).reverse
    { hit := false
      found := { regionIndex := none, multipleRegions := false }
      appliesToWholePage := true }

/-- `cortexm_check_default_mapping_v8` -/
def defaultMapping (address : Word) : Prot := if address ≤ 0x7FFFFFFF#32 then .all else .readWrite

/-- The permissions of a region, by `AP`, `XN` and, from v8.1-M on, `PXN`. -/
def regionProt (v81m : Bool) (rbar rlar : Word) (isUser : Bool) : Prot :=
  let privOnly := !rbar.getLsbD 1
  let readOnly := rbar.getLsbD 2
  let xn := rbar.getLsbD 0
  let pxn := v81m && rlar.getLsbD 4
  { read := !privOnly || !isUser
    write := (!privOnly || !isUser) && !readOnly
    exec := !xn && (isUser || !pxn) }

/-- XN is enforced from `0xE0000000` on. -/
def enforceXn (address : Word) (prot : Prot) : Prot :=
  if 0xE0000000#32 ≤ address then { prot with exec := false } else prot

def pmsav8Prot (v81m : Bool) (mpu : Pmsav8) (found : RegionFound) (address : Word)
    (isUser : Bool) : Option Prot :=
  if !mpu.enabled then some (enforceXn address (defaultMapping address))
  else if found.multipleRegions then none
  else
    match found.regionIndex with
    | some n =>
      some (enforceXn address
        (regionProt v81m (mpu.regions.rbar n) (mpu.regions.rlar n) isUser))
    | none =>
      if !isUser && mpu.privdefena then some (enforceXn address (defaultMapping address))
      else none

/-- Whether an access is granted, the permissions, and the size for which they hold. -/
structure Access where
  granted : Bool
  prot : Prot
  pageSize : Nat
  deriving DecidableEq

def pmsav8CheckAccess (v81m : Bool) (mpu : Pmsav8) (numberOfMpuRegions : Nat) (address : Word)
    (access : AccessType) (isUser : Bool) : Access :=
  let lookup := pmsav8GetRegion mpu numberOfMpuRegions address
  match pmsav8Prot v81m mpu lookup.found address isUser with
  | none => { granted := false, prot := .none, pageSize := targetPageSize }
  | some prot =>
    { granted := prot.allows access
      prot := prot
      pageSize :=
        if prot.allows access && mpu.enabled && !lookup.appliesToWholePage then
          regionGranularity
        else targetPageSize }

/-- `pmsav8_check_security_attribution`: the bits of the fault, `INVTRAN`, `INVEP` or `AUVIOL`. -/
def attributionFault (attribution : SecurityAttribution) (isSecure : Bool)
    (access : AccessType) : Word :=
  if attribution = .nonSecure ∧ isSecure = true ∧ access = .fetch then bitIf true 4
  else if attribution = .secure ∧ isSecure = false ∧ access = .fetch then bitIf true 0
  else if attributionIsSecure attribution = true ∧ isSecure = false ∧ access ≠ .fetch then
    bitIf true 3
  else 0

/-- `allowed_permissions`: what the attribution grants besides the access itself. -/
def allowedPermissions (attribution : SecurityAttribution) (isSecure : Bool)
    (access : AccessType) : Prot :=
  if attributionIsSecure attribution = true ∧ isSecure = false ∧ access = .fetch ∧
      attribution ≠ .secure then { read := false, write := false, exec := true }
  else if (attribution = .nonSecure ∧ isSecure = true ∨
      attribution = .secure ∧ isSecure = false) ∧ access ≠ .fetch then .readWrite
  else .all

structure Configuration where
  attributions : Attributions
  v81m : Bool
  numberOfMpuRegions : Nat
  /-- Indexed by whether it is the Secure one. -/
  mpu : Bool → Pmsav8
  memory : Word → BitVec 8

/-- `is_insn_sg_half(lduw_phys(address))` -/
def Configuration.isSgHalf (C : Configuration) (address : Word) : Bool :=
  decide (C.memory (address + 1#32) ++ C.memory address = 0xe97f#16)

def Configuration.attributionOf (C : Configuration) (address : Word) (isSecure : Bool)
    (access : AccessType) : AttributionResult :=
  pmsav8GetSecurityAttribution C.attributions address isSecure access

/-- What the protection unit grants; without regions it is not implemented. -/
def Configuration.checkMpu (C : Configuration) (address : Word) (isSecure : Bool)
    (access : AccessType) (isUser : Bool) : Access :=
  if C.numberOfMpuRegions = 0 then
    { granted := true, prot := .all, pageSize := targetPageSize }
  else
    pmsav8CheckAccess C.v81m (C.mpu isSecure) C.numberOfMpuRegions address access isUser

/-- The results of `get_phys_addr`; the physical address is the address itself. -/
structure PhysAddr where
  result : Translation
  prot : Prot
  pageSize : Nat
  deriving DecidableEq

def PhysAddr.failed (result : Translation) : PhysAddr :=
  { result := result, prot := .none, pageSize := 0 }

/-- `get_phys_addr` of a v8-M core with TrustZone, whose `c13_fcse` is always 0. -/
def Configuration.getPhysAddr (C : Configuration) (address : Word) (isSecure : Bool)
    (access : AccessType) (isUser : Bool) : PhysAddr :=
  let attributed := C.attributionOf address isSecure access
  let fault := attributionFault attributed.attribution isSecure access
  if fault ≠ 0 then .failed (.secureFault (fault ||| bitIf true 6))
  else
    let mpu := C.checkMpu address isSecure access isUser
    if !mpu.granted then .failed .fail
    else if !isSecure && decide (access = .fetch) &&
        decide (attributed.attribution = .secureNsc) && !C.isSgHalf address then
      .failed (.secureFault (bitIf true 0))
    else
      { result := .success
        prot := mpu.prot.inter (allowedPermissions attributed.attribution isSecure access)
        pageSize :=
          min (if attributed.appliesToWholePage then targetPageSize else regionGranularity)
            mpu.pageSize }

end Tlib.CortexM
