import Tlib.Softmmu.FillResults

/-!
Contract: host addresses for atomic instructions.

Owns: `translate_page_aligned_address_and_fill_tlb`, with its loop, its fills and its one-shot
entries, and when a store would be served in its place.
-/

namespace Tlib.Softmmu

open Tlib.TranslationCache Option

/-- The number of an access: `ACCESS_DATA_LOAD`, `ACCESS_DATA_STORE` or `ACCESS_INST_FETCH`. -/
def accessOfNumber : Nat → AccessType
  | 0 => .dataLoad
  | 1 => .dataStore
  | _ => .instFetch

def pageRead : Nat := AccessType.dataLoad.mask

/-- What a call comes to; a fault leaves it through `longjmp`. -/
inductive TranslationResult where
  | address (value : Nat)
  | fault (access : AccessType)
deriving DecidableEq, Repr

/-- A result, with the TLB and the number of fills that were made. -/
structure Translated where
  result : TranslationResult
  fill : FillState
  fills : Nat

namespace FillContext

variable (C : FillContext)

def hit (fill : FillState) (addr : Nat) (access : AccessType) : Option TlbAddress :=
  ((fill.tlb C.mmuIdx (tlbIndex C.target addr)).word access).filter
    (·.page = C.target.pageBase addr)

/-- The loop; `none` when it has not ended after so many turns. -/
def translateLoop (addr : Nat) (access : AccessType) : Nat → FillState → Nat → Option Translated
  | 0, _, _ => none
  | fuel + 1, fill, fills =>
    match C.hit fill addr access with
    | some word =>
      some
        { result := .address (if word.mmio then addr
            else (addr + (fill.tlb C.mmuIdx (tlbIndex C.target addr)).addend) % 2 ^ 64)
          fill := fill
          fills := fills }
    | none =>
      -- the third argument is an access type, and gets a permission
      match C.tlbFill fill addr (accessOfNumber pageRead) with
      | (fill, true) => translateLoop addr access fuel fill (fills + 1)
      | (fill, false) =>
        some { result := .fault (accessOfNumber pageRead), fill := fill, fills := fills + 1 }

def faulting : FillContext := { C with noPageFault := false }

def translatePageAlignedAddressAndFillTlb (fuel : Nat) (fill : FillState) (addr : Nat)
    (access : AccessType) : Option Translated :=
  C.faulting.translateLoop addr access fuel fill 0

/-- The call ends with a fault of the access, or with an entry that grants it. -/
def TranslatesFor (fill : FillState) (addr : Nat) (access : AccessType) : Prop :=
  ∃ fuel translated, C.translatePageAlignedAddressAndFillTlb fuel fill addr access = some translated ∧
    match translated.result with
    | .fault kind => kind = access
    | .address value => ∃ word, C.hit translated.fill addr access = some word ∧
        (word.mmio = true → value = addr) ∧
        (word.mmio = false → value = (addr +
          (translated.fill.tlb C.mmuIdx (tlbIndex C.target addr)).addend) % 2 ^ 64) ∧
        (word.oneShot = true → 0 < translated.fills)

/-- An entry grants the access, or the translation for a store serves. -/
def StoreServes (fill : FillState) (addr : Nat) (access : AccessType) : Prop :=
  match C.hit fill addr access with
  | some word => word.oneShot = false
  | none =>
    match C.faulting.lastPage fill.mmu addr .dataStore with
    | some (_, prot) => permits prot access = true
    | none => access = .dataStore

variable {C} {fill : FillState} {addr : Nat} {access kind : AccessType}

theorem hit_eq_some_iff {word : TlbAddress} : C.hit fill addr access = some word ↔
    (fill.tlb C.mmuIdx (tlbIndex C.target addr)).word access = some word ∧
      word.page = C.target.pageBase addr := by
  rw [hit, filter_eq_some_iff, decide_eq_true_iff]

theorem hit_of_grants (grants : C.grants fill addr access) :
    ∃ word, C.hit fill addr access = some word := by
  obtain ⟨word, here, page⟩ := grants
  exact ⟨word, hit_eq_some_iff.mpr ⟨here, page⟩⟩

theorem hit_of_not_grants (denied : ¬ C.grants fill addr access) :
    C.hit fill addr access = none := by
  rw [eq_none_iff_forall_ne_some]
  intro word found
  exact denied ⟨word, hit_eq_some_iff.mp found⟩

theorem grants_of_entry {paddr prot size : Nat}
    (entry : fill.tlb C.mmuIdx (tlbIndex C.target addr) = tlbEntry C.target C.memory
      (C.target.pageBase addr) (C.target.pageBase paddr) prot size) :
    C.grants fill addr access ↔ permits prot access = true := by
  unfold grants Grants
  rw [entry]
  exact tlbEntry_word access

theorem translateLoop_hit {word : TlbAddress} (found : C.hit fill addr access = some word)
    (fuel fills : Nat) :
    C.translateLoop addr access (fuel + 1) fill fills = some
      { result := .address (if word.mmio then addr
          else (addr + (fill.tlb C.mmuIdx (tlbIndex C.target addr)).addend) % 2 ^ 64)
        fill := fill
        fills := fills } := by
  rw [translateLoop, found]

theorem accessOfNumber_pageRead : accessOfNumber pageRead = .dataStore := rfl

theorem translateLoop_miss (missing : C.hit fill addr access = none) (fuel fills : Nat) :
    C.translateLoop addr access (fuel + 1) fill fills =
      if (C.tlbFill fill addr .dataStore).2 = true then
        C.translateLoop addr access fuel (C.tlbFill fill addr .dataStore).1 (fills + 1)
      else some
        { result := .fault .dataStore
          fill := (C.tlbFill fill addr .dataStore).1
          fills := fills + 1 } := by
  rw [translateLoop, missing, accessOfNumber_pageRead]
  generalize C.tlbFill fill addr .dataStore = filled
  obtain ⟨after, success⟩ := filled
  cases success <;> rfl

theorem translateLoop_fails (missing : C.hit fill addr access = none)
    (denied : C.lastPage fill.mmu addr .dataStore = none) (fuel fills : Nat) :
    ∃ translated, C.translateLoop addr access (fuel + 1) fill fills = some translated ∧
      translated.result = .fault .dataStore := by
  have failed := C.tlbFill_lastPage fill addr .dataStore
  rw [denied] at failed
  rw [translateLoop_miss missing, if_neg (by simp [failed])]
  exact ⟨_, rfl, rfl⟩

theorem translateLoop_fills {paddr prot : Nat} (missing : C.hit fill addr access = none)
    (stored : C.lastPage fill.mmu addr .dataStore = some (paddr, prot))
    (granted : permits prot access = true) (fuel fills : Nat) :
    ∃ after word, C.hit after addr access = some word ∧
      C.translateLoop addr access (fuel + 2) fill fills = some
        { result := .address (if word.mmio then addr
            else (addr + (after.tlb C.mmuIdx (tlbIndex C.target addr)).addend) % 2 ^ 64)
          fill := after
          fills := fills + 1 } := by
  have entered := C.tlbFill_lastPage fill addr .dataStore
  rw [stored] at entered
  obtain ⟨after, size, filled, -, entry⟩ := entered
  obtain ⟨word, found⟩ := hit_of_grants ((grants_of_entry entry).mpr granted)
  refine ⟨after, word, found, ?_⟩
  rw [translateLoop_miss missing, filled, if_pos rfl, translateLoop_hit found]

theorem translateLoop_never {paddr prot : Nat} (denied : permits prot access = false)
    (fuel : Nat) (fill : FillState) (fills : Nat) (missing : C.hit fill addr access = none)
    (stored : C.lastPage fill.mmu addr .dataStore = some (paddr, prot)) :
    C.translateLoop addr access fuel fill fills = none := by
  induction fuel generalizing fill fills with
  | zero => rfl
  | succ fuel ih =>
    have again := C.tlbFill_lastPage fill addr .dataStore
    rw [stored] at again
    obtain ⟨after, size, filled, storedAfter, entry⟩ := again
    have missingAfter : C.hit after addr access = none := by
      apply hit_of_not_grants
      rw [grants_of_entry entry, denied]
      exact Bool.false_ne_true
    rw [translateLoop_miss missing, filled, if_pos rfl]
    exact ih after (fills + 1) missingAfter storedAfter

theorem translatesFor_of_hit {word : TlbAddress} (found : C.hit fill addr access = some word) :
    C.TranslatesFor fill addr access ↔ word.oneShot = false := by
  have loop := translateLoop_hit (C := C.faulting) found
  constructor
  · rintro ⟨fuel, translated, done, right⟩
    cases fuel with
    | zero => exact absurd done (by simp [translatePageAlignedAddressAndFillTlb, translateLoop])
    | succ fuel =>
      rw [translatePageAlignedAddressAndFillTlb, loop fuel 0] at done
      obtain rfl := some.inj done
      obtain ⟨other, again, -, -, validated⟩ := right
      rw [found] at again
      obtain rfl := some.inj again
      by_contra oneShot
      exact absurd (validated (eq_true_of_ne_false oneShot)) (Nat.lt_irrefl 0)
  · intro reusable
    refine ⟨1, _, loop 0 0, word, found, ?_, ?_, ?_⟩
    · exact fun mmio => if_pos mmio
    · exact fun memory => if_neg (by simp [memory])
    · exact fun oneShot => absurd (reusable.symm.trans oneShot) Bool.false_ne_true

theorem translatesFor_of_denied (missing : C.hit fill addr access = none)
    (denied : C.faulting.lastPage fill.mmu addr .dataStore = none) :
    C.TranslatesFor fill addr access ↔ access = .dataStore := by
  have loop := translateLoop_fails (C := C.faulting) missing denied
  constructor
  · rintro ⟨fuel, translated, done, right⟩
    cases fuel with
    | zero => exact absurd done (by simp [translatePageAlignedAddressAndFillTlb, translateLoop])
    | succ fuel =>
      obtain ⟨failed, ends, fault⟩ := loop fuel 0
      rw [translatePageAlignedAddressAndFillTlb, ends] at done
      obtain rfl := some.inj done
      rw [fault] at right
      exact right.symm
  · intro store
    obtain ⟨failed, ends, fault⟩ := loop 0 0
    refine ⟨1, failed, ends, ?_⟩
    rw [fault]
    exact store.symm

theorem translatesFor_of_stored {paddr prot : Nat} (missing : C.hit fill addr access = none)
    (stored : C.faulting.lastPage fill.mmu addr .dataStore = some (paddr, prot)) :
    C.TranslatesFor fill addr access ↔ permits prot access = true := by
  constructor
  · rintro ⟨fuel, translated, done, -⟩
    by_contra denied
    have never := translateLoop_never (C := C.faulting) (eq_false_of_ne_true denied) fuel fill 0
      missing stored
    rw [translatePageAlignedAddressAndFillTlb, never] at done
    exact absurd done (by simp)
  · intro granted
    obtain ⟨after, word, entered, ends⟩ :=
      translateLoop_fills (C := C.faulting) missing stored granted 0 0
    refine ⟨2, _, ends, word, entered, ?_, ?_, ?_⟩
    · exact fun mmio => if_pos mmio
    · exact fun memory => if_neg (by simp [memory])
    · exact fun _ => Nat.one_pos

/-- The translation is right exactly when a store serves in its place. -/
theorem translatesFor_iff_storeServes (C : FillContext) (fill : FillState) (addr : Nat)
    (access : AccessType) :
    C.TranslatesFor fill addr access ↔ C.StoreServes fill addr access := by
  unfold StoreServes
  cases found : C.hit fill addr access with
  | some word => exact translatesFor_of_hit found
  | none =>
    cases stored : C.faulting.lastPage fill.mmu addr .dataStore with
    | none => exact translatesFor_of_denied found stored
    | some page => exact translatesFor_of_stored found stored

/-- Every page has these permissions. -/
def pagesWith (prot : Nat) : FillContext :=
  { sampleFill with
    arch := fun addr access =>
      if permits prot access then some { paddr := addr, prot := prot, size := 2 ^ 12 } else none }

def emptyFill : FillState := ⟨emptyTlb, sampleMmu .none⟩

def oneShotFill : FillState :=
  { emptyFill with tlb := tlbSetPage sampleFill.target sampleMemory emptyTlb 0x1000 0x1000 3 0 64 }

/-- A store takes an entry for one shot without a fill; a load of a read-only page raises a
fault of a store; and a fetch from a page without execute permission does not end. -/
theorem translate_not_for_access : ¬ (pagesWith 3).TranslatesFor oneShotFill 0x1000 .dataStore ∧
      ¬ (pagesWith 1).TranslatesFor emptyFill 0x1000 .dataLoad ∧
      ¬ (pagesWith 3).TranslatesFor emptyFill 0x1000 .instFetch := by
  refine ⟨?_, ?_, ?_⟩
  · have found : (pagesWith 3).hit oneShotFill 0x1000 .dataStore =
        some ⟨0x1000, true, false, false, false⟩ := by decide
    rw [translatesFor_of_hit found]
    decide
  · rw [translatesFor_of_denied (by decide) (by decide)]
    exact AccessType.noConfusion
  · rw [translatesFor_of_stored (by decide) (by decide : _ = some (0x1000, 3))]
    decide

end FillContext

end Tlib.Softmmu
