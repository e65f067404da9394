import Tlib.Softmmu.Tlb

/-!
Contract: `tlb_fill` with the external MMU in front of, behind or in place of the architecture's
own translation.

Owns: the order in which the stages write the TLB.
-/

namespace Tlib.Softmmu

open Tlib.TranslationCache

/-- What `arch_tlb_fill` hands to `tlb_set_page`. -/
structure ArchTranslation where
  (paddr prot size : Nat)
deriving DecidableEq, Repr

structure FillState where
  tlb : TlbTable
  mmu : ExternalMmu

/-- What one fill depends on; a failing `arch_tlb_fill` is `none`. -/
structure FillContext where
  target : Target
  memory : MemoryMap
  qsort : Qsort
  handler : FaultHandler
  handler_position : ∀ mmu address access windowId firstTry,
    (handler mmu address access windowId firstTry).2.position = mmu.position
  arch : Nat → AccessType → Option ArchTranslation
  mmuIdx : Nat
  noPageFault : Bool

namespace FillContext

variable (C : FillContext)

/-- `tlb_set_page(env, vaddr & TARGET_PAGE_MASK, paddr & TARGET_PAGE_MASK, ..)` -/
def setPage (fill : FillState) (vaddr paddr prot size : Nat) : FillState :=
  { fill with
    tlb := tlbSetPage C.target C.memory fill.tlb (C.target.pageBase vaddr)
      (C.target.pageBase paddr) prot C.mmuIdx size }

/-- `arch_tlb_fill`: a translation that succeeds is entered into the TLB. -/
def archTlbFill (fill : FillState) (addr : Nat) (access : AccessType) : FillState × Option Nat :=
  match C.arch addr access with
  | some found => (C.setPage fill addr found.paddr found.prot found.size, some found.paddr)
  | none => (fill, none)

/-- `get_external_mmu_phys_addr` -/
def externalTlbFill (fill : FillState) (addr : Nat) (access : AccessType) :
    FillState × ExternalTranslation :=
  let (mmu, translation) :=
    getExternalMmuPhysAddr C.target C.qsort C.handler fill.mmu addr access C.noPageFault
  ({ fill with mmu := mmu }, translation)

/-- The stage behind the translation of the architecture, and the last
`tlb_set_page`. -/
def fillLast (fill : FillState) (addr paddr prot : Nat) (access : AccessType) : FillState × Bool :=
  if fill.mmu.position = .after then
    match C.externalTlbFill fill (C.target.toUlong paddr) access with
    | (fill, .success paddr prot) => (C.setPage fill addr paddr prot C.target.pageSize, true)
    | (fill, .fail _) => (fill, false)
  else (C.setPage fill addr paddr prot C.target.pageSize, true)

/-- The stage of the architecture and what follows it. -/
def fillArch (fill : FillState) (addr iaddr paddr prot : Nat) (access : AccessType) :
    FillState × Bool :=
  if fill.mmu.position ≠ .replace then
    match C.archTlbFill fill iaddr access with
    | (fill, some paddr) => C.fillLast fill addr paddr prot access
    | (fill, none) => (fill, false)
  else C.fillLast fill addr paddr prot access

/-- `tlb_fill`; `paddr` and `prot` start without a value. -/
def tlbFill (fill : FillState) (addr : Nat) (access : AccessType) : FillState × Bool :=
  if fill.mmu.position = .none then
    let (fill, found) := C.archTlbFill fill addr access
    (fill, found.isSome)
  else if fill.mmu.position = .before ∨ fill.mmu.position = .replace then
    match C.externalTlbFill fill addr access with
    | (fill, .success paddr prot) =>
      C.fillArch fill addr (C.target.toUlong paddr) paddr prot access
    | (fill, .fail _) => (fill, false)
  else C.fillArch fill addr addr 0 0 access

def external (mmu : ExternalMmu) (addr : Nat) (access : AccessType) : ExternalTranslation :=
  (getExternalMmuPhysAddr C.target C.qsort C.handler mmu addr access C.noPageFault).2

/-- Where the entry of a virtual page leads when it is for a physical address. -/
def place (addr paddr : Nat) : Nat × Nat :=
  (tlbEntry C.target C.memory (C.target.pageBase addr) (C.target.pageBase paddr) 0
    C.target.pageSize).place

def grants (fill : FillState) (addr : Nat) (kind : AccessType) : Prop :=
  Grants C.target fill.tlb C.mmuIdx addr kind

variable {C} {fill : FillState} {addr : Nat} {access : AccessType}

theorem ensureMmuWindowsSorted_position (Q : Qsort) (mmu : ExternalMmu) :
    (ensureMmuWindowsSorted Q mmu).position = mmu.position := by
  unfold ensureMmuWindowsSorted
  split <;> rfl

theorem failExternal_position {mmu : ExternalMmu} {windowId : Option Nat} :
    (failExternal C.handler mmu addr access windowId C.noPageFault).1.position = mmu.position := by
  unfold failExternal
  split
  · rfl
  · exact C.handler_position mmu addr access windowId false

theorem getExternalMmuPhysAddr_position (mmu : ExternalMmu) :
    (getExternalMmuPhysAddr C.target C.qsort C.handler mmu addr access C.noPageFault).1.position =
      mmu.position := by
  have asked := fun windowId => C.handler_position
    (ensureMmuWindowsSorted C.qsort mmu) addr access windowId true
  simp only [ensureMmuWindowsSorted_position] at asked
  unfold getExternalMmuPhysAddr
  dsimp only
  split
  · exact ensureMmuWindowsSorted_position C.qsort mmu
  · split
    · rename_i answered
      have same := asked (lookupWindow C.target (ensureMmuWindowsSorted C.qsort mmu).windows addr
        access).windowId
      rw [answered] at same
      split
      · rw [ensureMmuWindowsSorted_position, same]
      · rw [failExternal_position, ensureMmuWindowsSorted_position, same]
    · rename_i answered
      have same := asked (lookupWindow C.target (ensureMmuWindowsSorted C.qsort mmu).windows addr
        access).windowId
      rw [answered] at same
      rw [failExternal_position, same]

@[simp] theorem setPage_mmu {vaddr paddr prot size : Nat} :
    (C.setPage fill vaddr paddr prot size).mmu = fill.mmu := rfl

theorem archTlbFill_some {found : ArchTranslation} (translated : C.arch addr access = some found) :
    C.archTlbFill fill addr access =
      (C.setPage fill addr found.paddr found.prot found.size, some found.paddr) := by
  rw [archTlbFill, translated]

theorem archTlbFill_none (failed : C.arch addr access = none) :
    C.archTlbFill fill addr access = (fill, none) := by
  rw [archTlbFill, failed]

theorem tlbFill_none (position : fill.mmu.position = .none) : C.tlbFill fill addr access =
      match C.arch addr access with
      | some found => (C.setPage fill addr found.paddr found.prot found.size, true)
      | none => (fill, false) := by
  rw [tlbFill, if_pos position]
  cases translated : C.arch addr access with
  | some found => rw [archTlbFill_some translated]; rfl
  | none => rw [archTlbFill_none translated]; rfl

def sampleMemory : MemoryMap where
  physPageFind index := some
    { physOffset := index * 2 ^ 12, regionOffset := 0, externalPermissions := false,
      executableIoMem := false, dirty := true }
  checkExternalPermissions _ := true
  getRamPtr offset := offset
  isIoAccessed _ := false

/-- The architecture maps every page to itself, read only. -/
def sampleFill : FillContext where
  target :=
    { pageBits := 12
      longBits := 32
      physAddrBits := 32
      pageBits_ge := Target.pages4K_ge
      pageBits_le := Target.pages4K_le }
  memory := sampleMemory
  qsort := insertionQsort
  handler mmu _ _ _ _ := (.fault, mmu)
  handler_position _ _ _ _ _ := rfl
  arch addr _ := some { paddr := addr, prot := 1, size := 2 ^ 12 }
  mmuIdx := 0
  noPageFault := false

/-- The addresses up to `0x8000`, for reads and writes. -/
def readWriteWindow : ExtMmuRange where
  id := 0
  rangeStart := 0
  rangeEnd := 0x8000
  addend := 0
  type := 7
  priv := 3
  rangeEndInclusive := false

def sampleMmu (position : ExtMmuPosition) : ExternalMmu where
  position := position
  windows := [readWriteWindow]
  nextId := 1
  unsorted := false

def emptyTlb : TlbTable := fun _ _ =>
  { addrRead := none, addrWrite := none, addrCode := none, addend := 0, iotlb := 0 }

end FillContext

end Tlib.Softmmu
