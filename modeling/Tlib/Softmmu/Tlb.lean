import Tlib.Softmmu.MmuWindows

/-!
Contract: entries of the software TLB.

Owns: `tlb_set_page`, and which accesses an entry grants.

Does not own: physical page descriptors and host pointers, which are parameters,
and the range that `tlb_add_large_page` remembers for flushes.
-/

namespace Tlib.Softmmu

open Tlib.TranslationCache

/-- The permission bits of a page: `prot & (1 << access_type)`. -/
def permits (prot : Nat) (access : AccessType) : Bool := prot &&& access.mask ≠ 0

/-- An `addr_read`, `addr_write` or `addr_code` word that is not `-1`. -/
structure TlbAddress where
  page : Nat
  (oneShot notDirty mmio executableIo : Bool)
deriving DecidableEq, Repr

/-- `none` stands for `-1`. -/
structure CPUTLBEntry where
  (addrRead addrWrite addrCode : Option TlbAddress)
  (addend iotlb : Nat)
deriving DecidableEq, Repr

def CPUTLBEntry.word (entry : CPUTLBEntry) : AccessType → Option TlbAddress
  | .dataLoad => entry.addrRead
  | .dataStore => entry.addrWrite
  | .instFetch => entry.addrCode

/-- `tlb_table[mmu_idx][index]` together with `iotlb[mmu_idx][index]` -/
abbrev TlbTable := Nat → Nat → CPUTLBEntry

structure PhysPageDesc where
  (physOffset regionOffset : Nat)
  (externalPermissions executableIoMem dirty : Bool)
deriving DecidableEq, Repr

structure MemoryMap where
  physPageFind : Nat → Option PhysPageDesc
  /-- `tlib_check_external_permissions` -/
  checkExternalPermissions : Nat → Bool
  getRamPtr : Nat → Nat
  isIoAccessed : Nat → Bool

def ioMemRam : Nat := 0
def ioMemRom : Nat := 8
def ioMemUnassigned : Nat := 16
def ioMemNotdirty : Nat := 24
/-- The bit number of `IO_MEM_ROMD`. -/
def romdBit : Nat := 0
/-- The bit number of `IO_MEM_EXECUTABLE_IO`. -/
def executableIoBit : Nat := 6

/-- `pd` as `tlb_set_page` computes it. -/
def pageKind (T : Target) (M : MemoryMap) (vaddr paddr : Nat) : Nat :=
  match M.physPageFind (T.pageIndex paddr) with
  | none => ioMemUnassigned
  | some p =>
    if p.externalPermissions && !M.checkExternalPermissions vaddr then ioMemUnassigned
    else if p.executableIoMem then T.pageBase p.physOffset + 2 ^ executableIoBit
    else p.physOffset

/-- The entry that `tlb_set_page` writes. -/
def tlbEntry (T : Target) (M : MemoryMap) (vaddr paddr prot size : Nat) : CPUTLBEntry :=
  let p := M.physPageFind (T.pageIndex paddr)
  let pd := pageKind T M vaddr paddr
  let kind := T.pageOffset pd
  let romd := pd.testBit romdBit
  let executableIo := pd.testBit executableIoBit
  let isIo := ioMemRom < kind && !romd
  let address : TlbAddress :=
    { page := vaddr, oneShot := size < T.pageSize, notDirty := false, mmio := isIo,
      executableIo := isIo && executableIo }
  let addend := if isIo then 0 else M.getRamPtr (T.pageBase pd)
  let iotlb :=
    if kind ≤ ioMemRom && !executableIo then
      -- normal RAM
      T.pageBase pd + if kind = ioMemRam then ioMemNotdirty else ioMemRom
    else
      match p with
      | some p => if executableIo then kind + paddr else kind + p.regionOffset
      | none => kind + paddr
  let codeAddress := address
  let iotlb := if M.isIoAccessed vaddr then paddr else iotlb
  let address := if M.isIoAccessed vaddr then { address with mmio := true } else address
  { iotlb := T.toPhysAddr (iotlb + 2 ^ T.physAddrBits - vaddr)
    addend := (addend + 2 ^ 64 - vaddr) % 2 ^ 64
    addrRead := if permits prot .dataLoad then some address else none
    addrCode := if permits prot .instFetch then some codeAddress else none
    addrWrite :=
      if permits prot .dataStore then
        if kind = ioMemRom || romd then some { address with mmio := true }
        else if kind = ioMemRam && !(p.any (·.dirty)) then some { address with notDirty := true }
        else some address
      else none }

theorem pageBase_toUlong (T : Target) (value : Nat) :
    T.pageBase (T.toUlong value) = T.toUlong (T.pageBase value) := by
  obtain ⟨pages, whole⟩ : T.pageSize ∣ 2 ^ T.longBits := Nat.pow_dvd_pow 2 T.pageBits_le
  unfold Target.pageBase Target.toUlong
  rw [whole, Nat.mod_mul_right_div_self, Nat.mul_comm (value / T.pageSize), Nat.mul_mod_mul_left,
    Nat.mul_comm]

def tlbIndex (T : Target) (vaddr : Nat) : Nat := T.pageIndex vaddr % 2 ^ 8

def tlbSetPage (T : Target) (M : MemoryMap) (tlb : TlbTable) (vaddr paddr prot mmuIdx size : Nat) :
    TlbTable :=
  Function.update tlb mmuIdx
    (Function.update (tlb mmuIdx) (tlbIndex T vaddr) (tlbEntry T M vaddr paddr prot size))

def CPUTLBEntry.place (entry : CPUTLBEntry) : Nat × Nat := (entry.addend, entry.iotlb)

def Grants (T : Target) (tlb : TlbTable) (mmuIdx vaddr : Nat) (access : AccessType) : Prop :=
  ∃ word, (tlb mmuIdx (tlbIndex T vaddr)).word access = some word ∧ word.page = T.pageBase vaddr

section Grants

variable {T : Target} {M : MemoryMap} {tlb : TlbTable} {vaddr paddr prot mmuIdx size : Nat}

theorem tlbEntry_word (access : AccessType) :
    (∃ word, (tlbEntry T M vaddr paddr prot size).word access = some word ∧ word.page = vaddr) ↔
      permits prot access = true := by
  cases access with
  | dataLoad =>
    simp only [CPUTLBEntry.word, tlbEntry]
    split_ifs <;> simp_all
  | dataStore =>
    simp only [CPUTLBEntry.word, tlbEntry]
    split_ifs <;> simp_all
  | instFetch =>
    simp only [CPUTLBEntry.word, tlbEntry]
    split_ifs <;> simp_all

theorem tlbEntry_page {access : AccessType} {word : TlbAddress}
    (here : (tlbEntry T M vaddr paddr prot size).word access = some word) :
    word.page = vaddr := by
  cases access with
  | dataLoad =>
    simp only [CPUTLBEntry.word, tlbEntry] at here
    split_ifs at here <;> cases here <;> rfl
  | dataStore =>
    simp only [CPUTLBEntry.word, tlbEntry] at here
    split_ifs at here <;> cases here <;> rfl
  | instFetch =>
    simp only [CPUTLBEntry.word, tlbEntry] at here
    split_ifs at here
    cases here
    rfl

@[simp] theorem tlbIndex_pageBase (addr : Nat) : tlbIndex T (T.pageBase addr) = tlbIndex T addr := by
  unfold tlbIndex
  rw [T.pageIndex_pageBase]

theorem tlbIndex_of_page {addr other : Nat} (same : T.pageBase addr = T.pageBase other) :
    tlbIndex T addr = tlbIndex T other := by
  rw [← tlbIndex_pageBase, same, tlbIndex_pageBase]

theorem tlbSetPage_here {addr : Nat} (same : tlbIndex T addr = tlbIndex T vaddr) :
    tlbSetPage T M tlb (T.pageBase vaddr) paddr prot mmuIdx size mmuIdx (tlbIndex T addr) =
      tlbEntry T M (T.pageBase vaddr) paddr prot size := by
  rw [tlbSetPage, Function.update_self, tlbIndex_pageBase, same, Function.update_self]

end Grants

end Tlib.Softmmu
