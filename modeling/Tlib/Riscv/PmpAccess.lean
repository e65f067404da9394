import Tlib.Library.FirstMatch
import Tlib.Riscv.PmpWrites

/-!
Contract: the decision of `pmp_get_access` against the privileged specification.

Owns: the specification's decision, and when the code's is the same.

Does not own: the bounds of the entries, which are in step with the registers in the
states that are considered.
-/

namespace Tlib.Riscv

open Tlib.Library.FirstMatch
open Tlib.Softmmu

structure Access where
  (addr size : Nat)
  size_pos : 0 < size

def Access.last (access : Access) : Nat := access.addr + access.size - 1

def Access.Mem (access : Access) (byte : Nat) : Prop :=
  access.addr ≤ byte ∧ byte < access.addr + access.size

section Specification

variable (H : PmpHart) (s : PmpState) (access : Access)

def Touches (index : Nat) : Prop :=
  s.active index = true ∧ ∃ byte, access.Mem byte ∧ (s.region H index).Mem byte

def Covers (index : Nat) : Prop := ∀ byte, access.Mem byte → (s.region H index).Mem byte

/-- The entry grants a permission, by its bits or as it does not bind machine mode. -/
def EntryGrants (index priv : Nat) (kind : AccessType) : Prop :=
  permits (s.pmp index).cfgReg kind = true ∨ (priv = prvM ∧ (s.pmp index).locked = false)

/-- Without a match the access is free. -/
def DefaultGrants (priv : Nat) : Prop :=
  if priv = prvM then s.mseccfg.mmwp = false
  else H.smepmp = false ∧ ∀ index < H.pmpEntryCount, s.active index = false

def SpecGrants (priv : Nat) (kind : AccessType) : Prop :=
  (∃ index, IsFirst H.pmpEntryCount (Touches H s access) index ∧
      Covers H s access index ∧ EntryGrants s index priv kind) ∨
    ((∀ index < H.pmpEntryCount, ¬ Touches H s access index) ∧ DefaultGrants H s priv)

def HoldsEnd (index : Nat) : Prop :=
  s.active index = true ∧ ((s.region H index).Mem access.addr ∨ (s.region H index).Mem access.last)

def LockedByNext (index : Nat) : Prop :=
  index + 1 < H.pmpEntryCount ∧ (s.pmp (index + 1)).lockedTor = true

/-- Nothing that the scan passes over would have decided otherwise. -/
def DecidesAlike (priv : Nat) (kind : AccessType) : Prop :=
  (∀ inner, IsFirst H.pmpEntryCount (Touches H s access) inner → ¬ HoldsEnd H s access inner →
        (∀ index, IsFirst H.pmpEntryCount (HoldsEnd H s access) index → Covers H s access index →
            permits (s.pmp index).cfgReg kind = false ∧
              (priv = prvM → (s.pmp index).locked = true ∨ LockedByNext H s index)) ∧
        ((∀ index < H.pmpEntryCount, ¬ HoldsEnd H s access index) → ¬ DefaultGrants H s priv)) ∧
  (∀ index, IsFirst H.pmpEntryCount (Touches H s access) index → Covers H s access index →
    priv = prvM → (s.pmp index).locked = false → LockedByNext H s index →
      permits (s.pmp index).cfgReg kind = true)

end Specification

section Verdict

variable {H : PmpHart} {s : PmpState} {access : Access} {index priv : Nat} {kind : AccessType}

theorem Access.addr_mem (access : Access) : access.Mem access.addr :=
  ⟨Nat.le_refl _, Nat.lt_add_of_pos_right access.size_pos⟩

theorem Access.last_mem (access : Access) : access.Mem access.last := by
  have := access.size_pos
  unfold Mem last
  omega

theorem covers_iff : Covers H s access index ↔
    (s.region H index).Mem access.addr ∧ (s.region H index).Mem access.last := by
  constructor
  · intro covers
    exact ⟨covers _ access.addr_mem, covers _ access.last_mem⟩
  · intro ends byte member
    unfold Access.Mem at member
    unfold Access.last Region.Mem at *
    omega

theorem HoldsEnd.touches (holds : HoldsEnd H s access index) : Touches H s access index := by
  obtain ⟨active, first | last⟩ := holds
  · exact ⟨active, _, access.addr_mem, first⟩
  · exact ⟨active, _, access.last_mem, last⟩

theorem Touches.holdsEnd_of_covers (touches : Touches H s access index)
    (covers : Covers H s access index) : HoldsEnd H s access index :=
  ⟨touches.1, .inl (covers _ access.addr_mem)⟩

theorem pmpIsInRange_eq (synced : Synced H s) (less : index < H.pmpEntryCount)
    (active : s.active index = true) {address : Nat} (below : address < H.addressSpace)
    [Decidable ((s.region H index).Mem address)] :
    pmpIsInRange H s index address = if (s.region H index).Mem address then 1 else 0 := by
  have exact := synced.exact_of_active index less active address below
  unfold pmpIsInRange
  rw [PmpHart.and_pmpAddrMask, Nat.mod_eq_of_lt below]
  exact if_congr exact rfl rfl

def Access.InSpace (H : PmpHart) (access : Access) : Prop :=
  access.addr + access.size ≤ H.addressSpace

theorem lastByte_eq (inSpace : access.InSpace H) :
    H.toUlong (access.addr + access.size + H.allOnes) = access.last := by
  have pos := access.size_pos
  have le : H.addressSpace ≤ 2 ^ H.longBits := Nat.le_of_dvd (Nat.two_pow_pos _) H.addressSpace_dvd
  unfold Access.InSpace at inSpace
  unfold PmpHart.toUlong PmpHart.allOnes Access.last
  have split : access.addr + access.size + (2 ^ H.longBits - 1) =
      (access.addr + access.size - 1) + 2 ^ H.longBits := by
    omega
  rw [split, Nat.add_mod_right]
  exact Nat.mod_eq_of_lt (by omega)

theorem pmpVerdict_eq (synced : Synced H s) (inSpace : access.InSpace H)
    (less : index < H.pmpEntryCount) (active : s.active index = true)
    [Decidable ((s.region H index).Mem access.addr)]
    [Decidable ((s.region H index).Mem access.last)] :
    pmpVerdict H s access.addr access.size priv index = if (s.region H index).Mem access.addr then
        if (s.region H index).Mem access.last then some (pmpGetPrivsNormal H s index priv)
        else some 0
      else if (s.region H index).Mem access.last then some 0 else none := by
  have pos := access.size_pos
  have startBelow : access.addr < H.addressSpace := by
    unfold Access.InSpace at inSpace
    omega
  have lastBelow : access.last < H.addressSpace := by
    unfold Access.InSpace at inSpace
    unfold Access.last
    omega
  have first := pmpIsInRange_eq synced less active startBelow
  have last := pmpIsInRange_eq synced less active lastBelow
  unfold pmpVerdict
  simp only [lastByte_eq inSpace, first, last, active, synced.mml]
  by_cases start : (s.region H index).Mem access.addr <;>
    by_cases stop : (s.region H index).Mem access.last <;> simp [start, stop]

theorem pmpVerdict_inactive (inactive : s.active index = false) :
    pmpVerdict H s access.addr access.size priv index = none := by
  unfold pmpVerdict
  simp [inactive]

theorem pmpVerdict_eq_none_iff (synced : Synced H s) (inSpace : access.InSpace H)
    (less : index < H.pmpEntryCount) :
    pmpVerdict H s access.addr access.size priv index = none ↔ ¬ HoldsEnd H s access index := by
  classical
  cases active : s.active index with
  | false =>
    rw [pmpVerdict_inactive active]
    refine iff_of_true rfl fun holds => ?_
    rw [holds.1] at active
    cases active
  | true =>
    rw [pmpVerdict_eq synced inSpace less active]
    unfold HoldsEnd
    by_cases start : (s.region H index).Mem access.addr <;>
      by_cases stop : (s.region H index).Mem access.last <;> simp [start, stop, active]

theorem permits_allPrivs (kind : AccessType) : permits allPrivs kind = true := by
  cases kind <;> decide

theorem permits_zero (kind : AccessType) : permits 0 kind = false := by
  cases kind <;> decide

theorem permits_allPrivs_and (cfg : Nat) (kind : AccessType) :
    permits (allPrivs &&& cfg) kind = permits cfg kind := by
  have mask : (allPrivs &&& cfg) &&& kind.mask = cfg &&& kind.mask := by
    rw [Nat.and_comm allPrivs, Nat.and_assoc]
    cases kind <;> rfl
  unfold permits
  rw [mask]

theorem pmpIsLocked_eq_true_iff :
    pmpIsLocked H s index = true ↔ (s.pmp index).locked = true ∨ LockedByNext H s index := by
  unfold pmpIsLocked LockedByNext
  cases (s.pmp index).locked with
  | true => simp
  | false =>
    simp only [Bool.false_eq_true, if_false, false_or]
    split <;> simp <;> omega

theorem permits_pmpGetPrivsNormal : permits (pmpGetPrivsNormal H s index priv) kind = true ↔
      permits (s.pmp index).cfgReg kind = true ∨
        (priv = prvM ∧ ¬ ((s.pmp index).locked = true ∨ LockedByNext H s index)) := by
  rw [← pmpIsLocked_eq_true_iff]
  unfold pmpGetPrivsNormal
  split
  next binds =>
    rw [permits_allPrivs_and]
    constructor
    · exact .inl
    · rintro (has | ⟨machine, free⟩)
      · exact has
      · exact absurd binds (by simp [machine, free])
  next free =>
    rw [not_or, not_not] at free
    exact iff_of_true (permits_allPrivs kind) (.inr free)

theorem countRules_eq_zero_iff :
    countRules H s = 0 ↔ ∀ index < H.pmpEntryCount, s.active index = false := by
  unfold countRules
  simp

end Verdict

section Decision

variable {H : PmpHart} {s : PmpState} {mode : HartMode} {access : Access}
  {accessType kind : AccessType}

theorem masked_addr (inSpace : access.InSpace H) : access.addr &&& H.pmpAddrMask = access.addr := by
  have pos := access.size_pos
  unfold Access.InSpace at inSpace
  rw [PmpHart.and_pmpAddrMask]
  exact Nat.mod_eq_of_lt (by omega)

theorem pmpGetAccess_of_isFirst (synced : Synced H s) (inSpace : access.InSpace H) {index : Nat}
    (first : IsFirst H.pmpEntryCount (HoldsEnd H s access) index) :
    permits (pmpGetAccess H s mode access.addr access.size accessType) kind = true ↔
      Covers H s access index ∧ (permits (s.pmp index).cfgReg kind = true ∨
        (mode.effective accessType = prvM ∧
          ¬ ((s.pmp index).locked = true ∨ LockedByNext H s index))) := by
  classical
  have active := first.holds.1
  have some' : s.numRules ≠ 0 := by
    rw [synced.numRules]
    intro none
    have inactive := countRules_eq_zero_iff.mp none index first.lt
    rw [active] at inactive
    cases inactive
  have scan : IsFirst H.pmpEntryCount (fun index =>
      pmpVerdict H s access.addr access.size (mode.effective accessType) index ≠ none) index := by
    refine ⟨first.lt, ?_, ?_⟩
    · intro none
      exact (pmpVerdict_eq_none_iff synced inSpace first.lt).mp none first.holds
    · intro earlier less
      rw [not_not]
      exact (pmpVerdict_eq_none_iff synced inSpace (less.trans first.lt)).mpr
        (first.before earlier less)
  unfold pmpGetAccess
  rw [if_neg some', masked_addr inSpace, findSome?_of_isFirst scan,
    pmpVerdict_eq synced inSpace first.lt active, covers_iff]
  have holds := first.holds.2
  by_cases start : (s.region H index).Mem access.addr <;>
    by_cases stop : (s.region H index).Mem access.last <;>
    simp [start, stop, permits_zero, permits_pmpGetPrivsNormal] at holds ⊢

theorem pmpGetAccess_of_none (synced : Synced H s) (inSpace : access.InSpace H)
    (none' : ∀ index < H.pmpEntryCount, ¬ HoldsEnd H s access index) :
    permits (pmpGetAccess H s mode access.addr access.size accessType) kind = true ↔
      DefaultGrants H s (mode.effective accessType) := by
  have scan : (List.range H.pmpEntryCount).findSome? (pmpVerdict H s access.addr access.size
      (mode.effective accessType)) = none :=
    findSome?_of_none fun index less =>
      (pmpVerdict_eq_none_iff synced inSpace less).mpr (none' index less)
  have rules := countRules_eq_zero_iff (H := H) (s := s)
  rw [← synced.numRules] at rules
  unfold pmpGetAccess DefaultGrants
  dsimp only
  rw [masked_addr inSpace, scan, ← rules]
  unfold pmpNoMatch
  by_cases machine : mode.effective accessType = prvM
  · cases s.mseccfg.mmwp <;>
      simp [machine, synced.mml, permits_zero, permits_allPrivs]
  · by_cases empty : s.numRules = 0
    · cases H.smepmp <;> simp [machine, empty, permits_zero, permits_allPrivs]
    · simp [machine, empty, permits_zero]

variable {priv : Nat}

theorem specGrants_of_isFirst {index : Nat}
    (first : IsFirst H.pmpEntryCount (Touches H s access) index) :
    SpecGrants H s access priv kind ↔ Covers H s access index ∧ EntryGrants s index priv kind := by
  constructor
  · rintro (⟨other, otherFirst, grants⟩ | ⟨none, _⟩)
    · rw [first.unique otherFirst]
      exact grants
    · exact absurd first.holds (none index first.lt)
  · intro grants
    exact .inl ⟨index, first, grants⟩

theorem specGrants_of_none (none : ∀ index < H.pmpEntryCount, ¬ Touches H s access index) :
    SpecGrants H s access priv kind ↔ DefaultGrants H s priv := by
  constructor
  · rintro (⟨index, first, _⟩ | ⟨_, grants⟩)
    · exact absurd first.holds (none index first.lt)
    · exact grants
  · intro grants
    exact .inr ⟨none, grants⟩

theorem decidesAlike_of_none (none : ∀ index < H.pmpEntryCount, ¬ Touches H s access index) :
    DecidesAlike H s access priv kind := by
  constructor
  · intro inner first
    exact absurd first.holds (none inner first.lt)
  · intro index first
    exact absurd first.holds (none index first.lt)

theorem decidesAlike_of_holdsEnd {index : Nat}
    (first : IsFirst H.pmpEntryCount (Touches H s access) index)
    (holds : HoldsEnd H s access index) :
    DecidesAlike H s access priv kind ↔
      (Covers H s access index → priv = prvM → (s.pmp index).locked = false →
        LockedByNext H s index → permits (s.pmp index).cfgReg kind = true) := by
  constructor
  · intro alike
    exact alike.2 index first
  · intro lock
    constructor
    · intro inner innerFirst outside
      rw [← first.unique innerFirst] at outside
      exact absurd holds outside
    · intro other otherFirst
      rw [← first.unique otherFirst]
      exact lock

theorem decidesAlike_of_inner {inner : Nat}
    (first : IsFirst H.pmpEntryCount (Touches H s access) inner)
    (outside : ¬ HoldsEnd H s access inner) :
    DecidesAlike H s access priv kind ↔
      (∀ index, IsFirst H.pmpEntryCount (HoldsEnd H s access) index → Covers H s access index →
          permits (s.pmp index).cfgReg kind = false ∧
            (priv = prvM → (s.pmp index).locked = true ∨ LockedByNext H s index)) ∧
      ((∀ index < H.pmpEntryCount, ¬ HoldsEnd H s access index) → ¬ DefaultGrants H s priv) := by
  constructor
  · intro alike
    exact alike.1 inner first outside
  · intro behind
    constructor
    · intro _ _ _
      exact behind
    · intro other otherFirst covers
      rw [← first.unique otherFirst] at covers
      exact absurd (first.holds.holdsEnd_of_covers covers) outside

/-- In every state that writes keeping the bounds reach, and for every access in the
address space, `pmp_get_access` grants a permission as the specification does exactly
when no entry that the scan passes over would have decided otherwise. -/
theorem pmpGetAccess_eq_spec_iff (reached : PmpReached H (KeepsBounds H) s)
    (inSpace : access.InSpace H) :
    (permits (pmpGetAccess H s mode access.addr access.size accessType) kind = true ↔
        SpecGrants H s access (mode.effective accessType) kind) ↔
      DecidesAlike H s access (mode.effective accessType) kind := by
  have synced := reached.synced
  rcases isFirst_or_none H.pmpEntryCount (Touches H s access) with ⟨index, first⟩ | none
  · rw [specGrants_of_isFirst first]
    by_cases holds : HoldsEnd H s access index
    · have firstEnd := first.narrow (fun _ => HoldsEnd.touches) holds
      rw [pmpGetAccess_of_isFirst synced inSpace firstEnd, decidesAlike_of_holdsEnd first holds]
      unfold EntryGrants
      cases locked : (s.pmp index).locked <;>
        cases permits (s.pmp index).cfgReg kind <;> simp
    · have denied : ¬ (Covers H s access index ∧
          EntryGrants s index (mode.effective accessType) kind) :=
        fun grants => holds (first.holds.holdsEnd_of_covers grants.1)
      rw [decidesAlike_of_inner first holds, iff_false_right denied]
      rcases isFirst_or_none H.pmpEntryCount (HoldsEnd H s access) with ⟨other, firstEnd⟩ | none
      · rw [pmpGetAccess_of_isFirst synced inSpace firstEnd]
        constructor
        · intro refused
          constructor
          · intro third thirdFirst covers
            rw [← firstEnd.unique thirdFirst] at covers ⊢
            rw [not_and, not_or, not_and, not_not] at refused
            obtain ⟨lacks, bound⟩ := refused covers
            exact ⟨by simpa using lacks, bound⟩
          · intro none
            exact absurd firstEnd.holds (none other firstEnd.lt)
        · rintro ⟨behind, _⟩ ⟨covers, grants⟩
          obtain ⟨lacks, bound⟩ := behind other firstEnd covers
          rcases grants with has | ⟨machine, free⟩
          · rw [lacks] at has
            cases has
          · exact free (bound machine)
      · rw [pmpGetAccess_of_none synced inSpace none]
        constructor
        · intro refused
          constructor
          · intro other firstEnd
            exact absurd firstEnd.holds (none other firstEnd.lt)
          · exact fun _ => refused
        · intro behind
          exact behind.2 none
  · have noEnd : ∀ index < H.pmpEntryCount, ¬ HoldsEnd H s access index :=
      fun index less holds => none index less holds.touches
    rw [specGrants_of_none none, pmpGetAccess_of_none synced inSpace noEnd]
    exact iff_of_true Iff.rfl (decidesAlike_of_none none)

end Decision

instance (H : PmpHart) (aField : PmpAmatch) (prevAddr thisAddr : Nat) :
    Decidable (H.Fits aField prevAddr thisAddr) := by
  unfold PmpHart.Fits
  cases aField <;> infer_instance

instance (H : PmpHart) (s : PmpState) (w : CsrWrite) : Decidable (KeepsBounds H s w) := by
  unfold KeepsBounds
  cases w <;> infer_instance

instance (region : Region) (byte : Nat) : Decidable (region.Mem byte) := by
  unfold Region.Mem
  infer_instance

instance (access : Access) (byte : Nat) : Decidable (access.Mem byte) := by
  unfold Access.Mem
  infer_instance

def twoEntries (addr0 addr1 cfg : Nat) : Option PmpState := do
  let s ← applyWrite sampleHart pmpReset (.pmpaddr 0 addr0)
  let s ← applyWrite sampleHart s (.pmpaddr 1 addr1)
  applyWrite sampleHart s (.pmpcfg 0 cfg)

def entriesState (addr0 addr1 cfg : Nat) : PmpState := (twoEntries addr0 addr1 cfg).getD pmpReset

/-- Entry 0 is the word at `0x1004`, without permissions; entry 1 has the first 16 KiB. -/
def wordInside : PmpState := entriesState 0x401 0x7FF 0x1F10

/-- Entry 0 has the first 16 KiB, read only; entry 1 is locked and ends at `0x8000`. -/
def lockedBehind : PmpState := entriesState 0x7FF 0x2000 0x8F19

theorem wordInside_reached : PmpReached sampleHart (KeepsBounds sampleHart) wordInside :=
  .write (w := .pmpcfg 0 0x1F10) (.write (w := .pmpaddr 1 0x7FF)
    (.write (w := .pmpaddr 0 0x401) .reset trivial (by decide) rfl) trivial (by decide) rfl)
    trivial (by decide) rfl

theorem lockedBehind_reached : PmpReached sampleHart (KeepsBounds sampleHart) lockedBehind :=
  .write (w := .pmpcfg 0 0x8F19) (.write (w := .pmpaddr 1 0x2000)
    (.write (w := .pmpaddr 0 0x7FF) .reset trivial (by decide) rfl) trivial (by decide) rfl)
    trivial (by decide) rfl

def machineMode : HartMode := { priv := 3, mprv := false, mpp := 0 }

def userMode : HartMode := { priv := 0, mprv := false, mpp := 0 }

/-- Two words around the one at `0x1004`. -/
def aroundWord : Access := { addr := 0x1002, size := 8, size_pos := by decide }

def firstWords : Access := { addr := 0x1000, size := 4, size_pos := by decide }

/-- A load of bytes that only entry 1 of `wordInside` matches. -/
theorem pmpGetAccess_eq_spec_sample :
    permits (pmpGetAccess sampleHart wordInside userMode 0x1000 4 .dataLoad) .dataLoad = true ↔
      SpecGrants sampleHart wordInside firstWords 0 .dataLoad := by
  have first : IsFirst sampleHart.pmpEntryCount (Touches sampleHart wordInside firstWords) 1 := by
    refine ⟨by decide, ⟨by decide, 0x1000, by decide, by decide⟩, ?_⟩
    intro earlier less
    obtain rfl : earlier = 0 := by omega
    rintro ⟨_, byte, ⟨_, below⟩, above, _⟩
    exact absurd (above.trans_lt below) (by decide)
  have holds : HoldsEnd sampleHart wordInside firstWords 1 := ⟨by decide, .inl (by decide)⟩
  have alike : DecidesAlike sampleHart wordInside firstWords
      (userMode.effective .dataLoad) .dataLoad := by
    rw [decidesAlike_of_holdsEnd first holds]
    intro _ machine
    exact absurd machine (by decide)
  have inSpace : firstWords.InSpace sampleHart := by
    unfold Access.InSpace
    decide
  exact (pmpGetAccess_eq_spec_iff wordInside_reached inSpace).mpr alike

/-- A word without permissions inside of the access is passed over; and a locked entry
binds machine mode to the unlocked one before it. -/
theorem pmpGetAccess_breaks_spec : (PmpReached sampleHart (KeepsBounds sampleHart) wordInside ∧
      permits (pmpGetAccess sampleHart wordInside userMode 0x1002 8 .dataLoad) .dataLoad = true ∧
      ¬ SpecGrants sampleHart wordInside aroundWord 0 .dataLoad) ∧
    (PmpReached sampleHart (KeepsBounds sampleHart) lockedBehind ∧
      permits (pmpGetAccess sampleHart lockedBehind machineMode 0x1000 4 .dataStore) .dataStore =
        false ∧
      SpecGrants sampleHart lockedBehind firstWords prvM .dataStore) := by
  have inner : IsFirst sampleHart.pmpEntryCount (Touches sampleHart wordInside aroundWord) 0 :=
    ⟨by decide, ⟨by decide, 0x1004, by decide, by decide⟩, fun _ less => absurd less (by simp)⟩
  have first : IsFirst sampleHart.pmpEntryCount (Touches sampleHart lockedBehind firstWords) 0 :=
    ⟨by decide, ⟨by decide, 0x1000, by decide, by decide⟩, fun _ less => absurd less (by simp)⟩
  have granted : permits (pmpGetAccess sampleHart wordInside userMode 0x1002 8 .dataLoad)
      .dataLoad = true := by decide
  have denied : permits (pmpGetAccess sampleHart lockedBehind machineMode 0x1000 4 .dataStore)
      .dataStore = false := by decide
  refine ⟨⟨wordInside_reached, granted, ?_⟩, lockedBehind_reached, denied, ?_⟩
  · rw [specGrants_of_isFirst inner, covers_iff]
    exact fun grants => absurd grants.1.1 (by decide)
  · rw [specGrants_of_isFirst first, covers_iff]
    exact ⟨by decide, .inr ⟨rfl, by decide⟩⟩

end Tlib.Riscv
