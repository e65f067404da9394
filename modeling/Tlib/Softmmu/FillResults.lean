import Tlib.Softmmu.TlbFill

/-!
Contract: what a fill of the TLB comes to.

Owns: the page that the last `tlb_set_page` of a fill enters, for every order of the stages.
-/

namespace Tlib.Softmmu

open Tlib.TranslationCache

namespace FillContext

variable (C : FillContext)

/-- The physical address and the permissions that a fill enters last; `none` if it fails. -/
def lastPage (mmu : ExternalMmu) (addr : Nat) (access : AccessType) : Option (Nat × Nat) :=
  match mmu.position with
  | .none => (C.arch addr access).map fun found => (found.paddr, found.prot)
  | .replace =>
    match C.external mmu addr access with
    | .success paddr prot => some (paddr, prot)
    | .fail _ => none
  | .before =>
    match C.external mmu addr access with
    | .success paddr prot =>
      (C.arch (C.target.toUlong paddr) access).map fun found => (found.paddr, prot)
    | .fail _ => none
  | .after =>
    match C.arch addr access with
    | some found =>
      match C.external mmu (C.target.toUlong found.paddr) access with
      | .success paddr prot => some (paddr, prot)
      | .fail _ => none
    | none => none

variable {C} {fill : FillState} {addr : Nat} {access : AccessType}

theorem ensureMmuWindowsSorted_again (Q : Qsort) (mmu : ExternalMmu) :
    ensureMmuWindowsSorted Q (ensureMmuWindowsSorted Q mmu) = ensureMmuWindowsSorted Q mmu := by
  by_cases unsorted : mmu.unsorted = true
  · simp [ensureMmuWindowsSorted, unsorted]
  · simp [ensureMmuWindowsSorted, unsorted]

theorem external_of_granted {mmu : ExternalMmu} {paddr prot windowId : Nat}
    (granted : lookupWindow C.target (ensureMmuWindowsSorted C.qsort mmu).windows addr access =
      .granted paddr prot windowId) :
    C.external (ensureMmuWindowsSorted C.qsort mmu) addr access = .success paddr prot := by
  unfold external getExternalMmuPhysAddr
  dsimp only
  rw [ensureMmuWindowsSorted_again, granted]

theorem failExternal_ne_success {mmu : ExternalMmu} {windowId : Option Nat} {paddr prot : Nat} :
    (failExternal C.handler mmu addr access windowId C.noPageFault).2 ≠ .success paddr prot := by
  unfold failExternal
  split <;> exact fun same => ExternalTranslation.noConfusion same

theorem external_again {mmu after : ExternalMmu} {paddr prot : Nat}
    (found : getExternalMmuPhysAddr C.target C.qsort C.handler mmu addr access C.noPageFault =
      (after, .success paddr prot)) :
    C.external after addr access = .success paddr prot := by
  unfold getExternalMmuPhysAddr at found
  dsimp only at found
  split at found
  · rename_i granted
    obtain ⟨rfl, same⟩ := Prod.mk.inj found
    obtain ⟨rfl, rfl⟩ := ExternalTranslation.success.inj same
    exact external_of_granted granted
  · split at found
    · split at found
      · rename_i granted
        obtain ⟨rfl, same⟩ := Prod.mk.inj found
        obtain ⟨rfl, rfl⟩ := ExternalTranslation.success.inj same
        exact external_of_granted granted
      · exact absurd (congrArg Prod.snd found) failExternal_ne_success
    · exact absurd (congrArg Prod.snd found) failExternal_ne_success

theorem externalTlbFill_again (C : FillContext) (fill : FillState) (addr : Nat)
    (access : AccessType) :
    ∃ mmu, mmu.position = fill.mmu.position ∧ C.externalTlbFill fill addr access =
        ({ fill with mmu := mmu }, C.external fill.mmu addr access) ∧
      ∀ paddr prot, C.external fill.mmu addr access = .success paddr prot →
        C.external mmu addr access = .success paddr prot := by
  refine ⟨_, getExternalMmuPhysAddr_position fill.mmu, rfl, ?_⟩
  intro paddr prot found
  exact external_again (Prod.ext rfl found)

theorem setPage_entry {vaddr paddr prot size : Nat} :
    (C.setPage fill vaddr paddr prot size).tlb C.mmuIdx (tlbIndex C.target vaddr) =
      tlbEntry C.target C.memory (C.target.pageBase vaddr) (C.target.pageBase paddr) prot size :=
  tlbSetPage_here rfl

theorem tlbFill_lastPage (C : FillContext) (fill : FillState) (addr : Nat)
    (access : AccessType) :
    match C.lastPage fill.mmu addr access with
    | some (paddr, prot) => ∃ filled size, C.tlbFill fill addr access = (filled, true) ∧
        C.lastPage filled.mmu addr access = some (paddr, prot) ∧
        filled.tlb C.mmuIdx (tlbIndex C.target addr) = tlbEntry C.target C.memory
          (C.target.pageBase addr) (C.target.pageBase paddr) prot size
    | none => (C.tlbFill fill addr access).2 = false := by
  unfold lastPage
  cases position : fill.mmu.position with
  | none =>
    rw [tlbFill_none position]
    cases translated : C.arch addr access with
    | none => rfl
    | some found =>
      refine ⟨_, _, rfl, ?_, setPage_entry⟩
      rw [setPage_mmu, position]
      rfl
  | replace =>
    obtain ⟨mmu, same, stage, again⟩ := C.externalTlbFill_again fill addr access
    rw [position] at same
    rw [tlbFill, if_neg (by simp [position]), if_pos (by simp [position]), stage]
    cases answer : C.external fill.mmu addr access with
    | fail result => rfl
    | success paddr prot =>
      dsimp only
      rw [fillArch, if_neg (by simp [same]), fillLast, if_neg (by simp [same])]
      refine ⟨_, _, rfl, ?_, setPage_entry⟩
      rw [setPage_mmu]
      dsimp only
      rw [same, again paddr prot answer]
  | before =>
    obtain ⟨mmu, same, stage, again⟩ := C.externalTlbFill_again fill addr access
    rw [position] at same
    rw [tlbFill, if_neg (by simp [position]), if_pos (by simp [position]), stage]
    cases answer : C.external fill.mmu addr access with
    | fail result => rfl
    | success paddr prot =>
      dsimp only
      rw [fillArch, if_pos (by simp [same])]
      cases translated : C.arch (C.target.toUlong paddr) access with
      | none => rw [archTlbFill_none translated, Option.map_none]
      | some found =>
        rw [archTlbFill_some translated]
        dsimp only
        rw [fillLast, setPage_mmu, if_neg (by simp [same])]
        refine ⟨_, _, rfl, ?_, setPage_entry⟩
        rw [setPage_mmu, setPage_mmu]
        dsimp only
        rw [same, again paddr prot answer]
        dsimp only
        rw [translated, Option.map_some]
  | after =>
    rw [tlbFill, if_neg (by simp [position]), if_neg (by simp [position]), fillArch,
      if_pos (by simp [position])]
    cases translated : C.arch addr access with
    | none => rw [archTlbFill_none translated]
    | some found =>
      rw [archTlbFill_some translated]
      dsimp only
      obtain ⟨mmu, same, stage, again⟩ := C.externalTlbFill_again
        (C.setPage fill addr found.paddr found.prot found.size)
        (C.target.toUlong found.paddr) access
      rw [setPage_mmu] at same stage again
      rw [fillLast, setPage_mmu, if_pos position, stage]
      cases answer : C.external fill.mmu (C.target.toUlong found.paddr) access with
      | fail result => rfl
      | success paddr prot =>
        refine ⟨_, _, rfl, ?_, setPage_entry⟩
        rw [setPage_mmu]
        dsimp only
        rw [same, position]
        dsimp only
        rw [again paddr prot answer]

end FillContext

end Tlib.Softmmu
