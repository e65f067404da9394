import Tlib.Riscv.PmpRegions

/-!
Contract: runs of writes to the PMP registers.

Owns: the writes that keep the cached bounds equal to the regions, and the states that they reach
from a reset.
-/

namespace Tlib.Riscv

open List Option

def PmpState.region (H : PmpHart) (s : PmpState) (index : Nat) : Region :=
  H.region (s.pmp index).aField (s.prevAddr index) (s.pmp index).addrReg

def Exact (H : PmpHart) (s : PmpState) (index : Nat) : Prop :=
  ∀ address < H.addressSpace,
    ((s.addr index).sa ≤ address ∧ address ≤ (s.addr index).ea) ↔ (s.region H index).Mem address

structure Synced (H : PmpHart) (s : PmpState) : Prop where
  addrReg_lt : ∀ index, (s.pmp index).addrReg < 2 ^ H.longBits
  numRules : s.numRules = countRules H s
  exact_of_active : ∀ index < H.pmpEntryCount, s.active index = true → Exact H s index
  mml : s.mseccfg.mml = false

section Update

variable {H : PmpHart} {s s' : PmpState} {index : Nat}

theorem active_congr (entry : s'.pmp index = s.pmp index) : s'.active index = s.active index := by
  unfold PmpState.active
  simp [entry]

theorem region_congr (entry : s'.pmp index = s.pmp index)
    (prev : (s.pmp index).aField = .tor → s'.prevAddr index = s.prevAddr index) :
    s'.region H index = s.region H index := by
  unfold PmpState.region
  rw [entry]
  cases kind : (s.pmp index).aField with
  | tor => rw [prev kind]
  | off => rfl
  | na4 => rfl
  | napot => rfl

theorem Exact.congr (holds : Exact H s index) (entry : s'.pmp index = s.pmp index)
    (bounds : s'.addr index = s.addr index)
    (prev : (s.pmp index).aField = .tor → s'.prevAddr index = s.prevAddr index) :
    Exact H s' index := by
  unfold Exact at *
  rw [region_congr entry prev, bounds]
  exact holds

theorem exact_pmpUpdateRule_self (active : s.active index = true)
    (small : (s.pmp index).addrReg < 2 ^ H.longBits)
    (fits : H.Fits (s.pmp index).aField (s.prevAddr index) (s.pmp index).addrReg) :
    Exact H (pmpUpdateRule H s index) index := by
  intro address below
  have active' : (s.pmp index).aField ≠ .off := by simpa [PmpState.active] using active
  have bounds := PmpHart.ruleBounds_mem active' fits small below
  unfold pmpUpdateRule
  dsimp only
  rw [Function.update_self]
  exact bounds

theorem synced_pmpUpdateRule (small : ∀ index, (s.pmp index).addrReg < 2 ^ H.longBits)
    (mml : s.mseccfg.mml = false)
    (fits : H.Fits (s.pmp index).aField (s.prevAddr index) (s.pmp index).addrReg)
    (others : ∀ other < H.pmpEntryCount, other ≠ index → s.active other = true → Exact H s other) :
    Synced H (pmpUpdateRule H s index) where
  addrReg_lt := small
  numRules := rfl
  mml := mml
  exact_of_active := by
    intro other less active
    have active' : s.active other = true := active
    by_cases same : other = index
    · rw [same] at active' ⊢
      exact exact_pmpUpdateRule_self active' (small index) fits
    · exact (others other less same active').congr rfl (Function.update_of_ne same _ _)
        fun _ => rfl

theorem Synced.setEntry (synced : Synced H s) {entry : PmpEntry}
    (small : entry.addrReg < 2 ^ H.longBits)
    (fits : H.Fits entry.aField (s.prevAddr index) entry.addrReg)
    (behind : index + 1 < H.pmpEntryCount → (s.pmp (index + 1)).aField = .tor →
      entry.addrReg = (s.pmp index).addrReg) :
    Synced H (pmpUpdateRule H (s.setEntry index entry) index) := by
  have prev : ∀ other, other ≠ index + 1 →
      (s.setEntry index entry).prevAddr other = s.prevAddr other := by
    intro other ne
    unfold PmpState.prevAddr
    split
    · rw [s.setEntry_of_ne entry (by omega)]
    · rfl
  refine synced_pmpUpdateRule (fun other => ?_) synced.mml ?_ ?_
  · by_cases same : other = index
    · rw [same, s.setEntry_self]
      exact small
    · rw [s.setEntry_of_ne entry same]
      exact synced.addrReg_lt other
  · rw [prev index (by omega), s.setEntry_self]
    exact fits
  · intro other less ne active
    have same := s.setEntry_of_ne entry ne
    rw [active_congr same] at active
    refine (synced.exact_of_active other less active).congr same rfl ?_
    intro tor
    by_cases next : other = index + 1
    · subst next
      have unchanged := behind less tor
      unfold PmpState.prevAddr
      rw [Nat.add_sub_cancel, s.setEntry_self, unchanged]
    · exact prev other next

end Update

inductive CsrWrite where
  | pmpcfg (regIndex val : Nat)
  | pmpaddr (addrIndex val : Nat)
  | mseccfg (val : Mseccfg)
deriving DecidableEq, Repr

def applyWrite (H : PmpHart) (s : PmpState) : CsrWrite → Option PmpState
  | .pmpcfg regIndex val => pmpcfgCsrWrite H s regIndex val
  | .pmpaddr addrIndex val => pmpaddrCsrWrite H s addrIndex val
  | .mseccfg val => mseccfgCsrWrite H s val

def writeIgnored (H : PmpHart) (s : PmpState) (index : Nat) : Bool :=
  pmpIsLocked H s index && !s.mseccfg.rlb

/-- Every entry that takes the write then fits, and no rule keeps outdated bounds. -/
def KeepsBounds (H : PmpHart) (s : PmpState) : CsrWrite → Prop
  | .pmpcfg regIndex val =>
    ∀ i < H.longBits / 8, writeIgnored H s (baseOffset H regIndex + i) = false →
      H.Fits (pmpGetAField (cfgVal val i)) (s.prevAddr (baseOffset H regIndex + i))
        (s.pmp (baseOffset H regIndex + i)).addrReg
  | .pmpaddr addrIndex val =>
    writeIgnored H s addrIndex = false →
      H.Fits (s.pmp addrIndex).aField (s.prevAddr addrIndex) (val &&& H.pmpAddrMask) ∧
        (addrIndex + 1 < H.pmpEntryCount → (s.pmp (addrIndex + 1)).aField = .tor →
          val &&& H.pmpAddrMask = (s.pmp addrIndex).addrReg)
  | .mseccfg _ => True

/-- `mseccfg.MML` stays clear. -/
def KeepsMml : CsrWrite → Prop
  | .mseccfg val => val.mml = false
  | _ => True

def pmpReset : PmpState where
  pmp _ := { addrReg := 0, cfgReg := 0 }
  addr _ := { sa := 0, ea := 0 }
  numRules := 0
  mseccfg := { mml := false, mmwp := false, rlb := false }

/-- The states that runs of writes with a property reach. -/
inductive PmpReached (H : PmpHart) (Allowed : PmpState → CsrWrite → Prop) : PmpState → Prop
  | reset : PmpReached H Allowed pmpReset
  | write {s s' : PmpState} {w : CsrWrite} : PmpReached H Allowed s → KeepsMml w → Allowed s w →
      applyWrite H s w = some s' → PmpReached H Allowed s'

section Invariant

variable {H : PmpHart} {s s' : PmpState}

theorem pmpAddrMask_lt (val : Nat) : val &&& H.pmpAddrMask < 2 ^ H.longBits := by
  rw [PmpHart.and_pmpAddrMask]
  have less := Nat.mod_lt val H.addressSpace_pos
  exact less.trans_le (Nat.pow_le_pow_right (by decide) H.pmpaddrBits_le)

theorem aField_of_valid {val stored : Nat} (mml : s.mseccfg.mml = false)
    (valid : pmpValidateConfiguration H s val = some stored) :
    pmpGetAField stored = pmpGetAField val := by
  unfold pmpValidateConfiguration at valid
  simp only [mml, Bool.and_false, Bool.false_and, Bool.false_eq_true, if_false] at valid
  split at valid
  · cases valid
    unfold pmpGetAField
    rw [Nat.shiftRight_and_distrib, Nat.and_assoc]
    rfl
  · cases valid
    rfl

def takesByte (H : PmpHart) (s : PmpState) (index val : Nat) : Bool :=
  !writeIgnored H s index && (pmpValidateConfiguration H s val).isSome

theorem pmpWriteCfg_cases {index val : Nat} (written : pmpWriteCfg H s index val = some s') :
    (takesByte H s index val = false ∧ s' = s) ∨
      ∃ stored, takesByte H s index val = true ∧ writeIgnored H s index = false ∧
        pmpValidateConfiguration H s val = some stored ∧
        s' = pmpUpdateRule H
          (s.setEntry index { s.pmp index with cfgReg := stored }) index := by
  unfold pmpWriteCfg at written
  unfold takesByte
  split at written
  · split at written
    next ignored =>
      have closed : writeIgnored H s index = true := ignored
      exact .inl ⟨by simp [closed], (some.inj written).symm⟩
    next taken =>
      have open' : writeIgnored H s index = false := by simpa [writeIgnored] using taken
      split at written
      next invalid => exact .inl ⟨by simp [invalid], (some.inj written).symm⟩
      next stored valid =>
        exact .inr ⟨stored, by simp [open', valid], open', valid, (some.inj written).symm⟩
  · cases written

/-- A configuration byte leaves the other registers. -/
structure SameButCfg (s s' : PmpState) (index : Nat) : Prop where
  pmp : ∀ other ≠ index, s'.pmp other = s.pmp other
  addrReg : ∀ other, (s'.pmp other).addrReg = (s.pmp other).addrReg
  mseccfg : s'.mseccfg = s.mseccfg

theorem SameButCfg.prevAddr {index : Nat} (same : SameButCfg s s' index) (other : Nat) :
    s'.prevAddr other = s.prevAddr other := by
  unfold PmpState.prevAddr
  rw [same.addrReg]

theorem SameButCfg.writeIgnored {index other : Nat} (same : SameButCfg s s' index)
    (behind : index < other) : writeIgnored H s' other = writeIgnored H s other := by
  unfold Riscv.writeIgnored pmpIsLocked
  rw [same.pmp other (by omega), same.pmp (other + 1) (by omega), same.mseccfg]

theorem pmpWriteCfg_same {index val : Nat} (written : pmpWriteCfg H s index val = some s') :
    SameButCfg s s' index := by
  rcases pmpWriteCfg_cases written with ⟨_, rfl⟩ | ⟨stored, _, _, _, rfl⟩
  · exact ⟨fun _ _ => rfl, fun _ => rfl, rfl⟩
  · refine ⟨fun other ne => s.setEntry_of_ne _ ne, ?_, rfl⟩
    intro other
    change ((s.setEntry index _).pmp other).addrReg = _
    by_cases same : other = index
    · rw [same, s.setEntry_self]
    · rw [s.setEntry_of_ne _ same]

theorem Synced.pmpWriteCfg {index val : Nat} (synced : Synced H s)
    (fits : writeIgnored H s index = false →
      H.Fits (pmpGetAField val) (s.prevAddr index) (s.pmp index).addrReg)
    (written : pmpWriteCfg H s index val = some s') : Synced H s' := by
  rcases pmpWriteCfg_cases written with ⟨_, rfl⟩ | ⟨stored, _, taken, valid, rfl⟩
  · exact synced
  · refine synced.setEntry (synced.addrReg_lt index) ?_ fun _ _ => rfl
    unfold PmpEntry.aField
    rw [aField_of_valid synced.mml valid]
    exact fits taken

theorem Synced.pmpcfg_bytes {base val : Nat} (indices : List Nat)
    (ascending : indices.Pairwise (· < ·)) :
    ∀ {s : PmpState}, Synced H s → (∀ i ∈ indices, Riscv.writeIgnored H s (base + i) = false →
        H.Fits (pmpGetAField (cfgVal val i)) (s.prevAddr (base + i))
          (s.pmp (base + i)).addrReg) →
      indices.foldlM (fun s i => Riscv.pmpWriteCfg H s (base + i) (cfgVal val i)) s = some s' →
      Synced H s' := by
  induction indices with
  | nil =>
    intro s synced _ done
    cases done
    exact synced
  | cons i rest ih =>
    intro s synced fits done
    obtain ⟨middle, first, later⟩ := bind_eq_some_iff.mp done
    rw [pairwise_cons] at ascending
    have same := pmpWriteCfg_same first
    refine ih ascending.2 (synced.pmpWriteCfg (fits i mem_cons_self) first) ?_ later
    intro j member taken
    have behind : base + i < base + j := Nat.add_lt_add_left (ascending.1 j member) base
    rw [same.prevAddr, same.addrReg]
    rw [same.writeIgnored behind] at taken
    exact fits j (mem_cons_of_mem i member) taken

theorem Synced.pmpcfgCsrWrite {regIndex val : Nat} (synced : Synced H s)
    (keeps : KeepsBounds H s (.pmpcfg regIndex val))
    (written : pmpcfgCsrWrite H s regIndex val = some s') : Synced H s' := by
  unfold Riscv.pmpcfgCsrWrite at written
  split at written
  · cases written
  · split at written
    · cases written
    · refine synced.pmpcfg_bytes _ pairwise_lt_range ?_ written
      intro i member
      exact keeps i (mem_range.mp member)

theorem Synced.pmpaddrCsrWrite {addrIndex val : Nat} (synced : Synced H s)
    (keeps : KeepsBounds H s (.pmpaddr addrIndex val))
    (written : pmpaddrCsrWrite H s addrIndex val = some s') : Synced H s' := by
  unfold Riscv.pmpaddrCsrWrite at written
  split at written
  · cases written
  · split at written
    next ignored =>
      rw [← some.inj written]
      exact synced
    next taken =>
      have open' : writeIgnored H s addrIndex = false := by simpa [writeIgnored] using taken
      obtain ⟨fits, behind⟩ := keeps open'
      rw [← some.inj written]
      exact synced.setEntry (pmpAddrMask_lt val) fits behind

theorem Synced.mseccfgCsrWrite {val : Mseccfg} (synced : Synced H s) (mml : val.mml = false)
    (written : mseccfgCsrWrite H s val = some s') : Synced H s' := by
  unfold Riscv.mseccfgCsrWrite at written
  split at written
  · rw [← some.inj written]
    refine ⟨synced.addrReg_lt, synced.numRules, synced.exact_of_active, ?_⟩
    rw [mml, synced.mml]
    rfl
  · cases written

theorem active_pmpReset (index : Nat) : pmpReset.active index = false := by
  simp [PmpState.active, pmpReset, PmpEntry.aField, pmpGetAField]

theorem synced_pmpReset : Synced H pmpReset where
  addrReg_lt _ := Nat.two_pow_pos _
  numRules := by
    change 0 = countRules H pmpReset
    unfold countRules
    rw [eq_comm, countP_eq_zero]
    intro index _
    rw [active_pmpReset]
    decide
  mml := rfl
  exact_of_active := by
    intro index _ active
    rw [active_pmpReset] at active
    cases active

theorem PmpReached.synced (reached : PmpReached H (KeepsBounds H) s) : Synced H s := by
  induction reached with
  | reset => exact synced_pmpReset
  | @write s s' w before mml keeps done ih =>
    cases w with
    | pmpcfg regIndex val => exact ih.pmpcfgCsrWrite keeps done
    | pmpaddr addrIndex val => exact ih.pmpaddrCsrWrite keeps done
    | mseccfg val => exact ih.mseccfgCsrWrite mml done

end Invariant

def sampleHart : PmpHart where
  longBits := 64
  pmpaddrBits := 54
  pmpEntryCount := 16
  pmpNapotGrain := 0
  privilege111 := true
  smepmp := false
  longBits_eq := PmpHart.longBits_64
  pmpaddrBits_pos := by decide
  pmpaddrBits_le := by decide

end Tlib.Riscv
