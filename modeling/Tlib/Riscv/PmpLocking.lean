import Tlib.Riscv.PmpCoherence

/-!
Contract: locked PMP entries.

Owns: what a lock keeps over every sequence of writes to the PMP registers, and the writes on which
the code and the specification differ.
-/

namespace Tlib.Riscv

open List Option Or

def afterWrite (H : PmpHart) (s : PmpState) (w : CsrWrite) : PmpState := (applyWrite H s w).getD s

def afterWrites (H : PmpHart) (s : PmpState) (writes : List CsrWrite) : PmpState :=
  writes.foldl (afterWrite H) s

/-- The write is made in the state `t` of the sequence. -/
def Visits (H : PmpHart) (s : PmpState) (writes : List CsrWrite) (t : PmpState) (w : CsrWrite) :
    Prop :=
  ∃ earlier later, writes = earlier ++ w :: later ∧ t = afterWrites H s earlier

def smepmpRejects (m : Mseccfg) (val : Nat) : Bool :=
  !m.rlb && m.mml && (val &&& pmpLock ≠ 0) &&
    (val &&& pmpExec ≠ 0 ∨ ¬ val &&& pmpRead ≠ 0 ∧ val &&& pmpWrite ≠ 0)

/-- Without `MML` a byte that may be written but not read loses its write bit. -/
def storedByte (H : PmpHart) (m : Mseccfg) (val : Nat) : Nat :=
  if !m.mml && H.privilege111 && (¬ val &&& pmpRead ≠ 0 ∧ val &&& pmpWrite ≠ 0) then val &&& 0xFD
  else val

def TakenUnlessLocked (H : PmpHart) (t t' : PmpState) : CsrWrite → Prop
  | .pmpcfg regIndex val =>
    ∀ i < H.longBits / 8, (t.pmp (baseOffset H regIndex + i)).locked = true ∨
      smepmpRejects t.mseccfg (cfgVal val i) = true ∨
      (t'.pmp (baseOffset H regIndex + i)).cfgReg = storedByte H t.mseccfg (cfgVal val i)
  | .pmpaddr addrIndex val =>
    (t.pmp addrIndex).locked = true ∨
    (addrIndex + 1 < H.pmpEntryCount ∧ (t.pmp (addrIndex + 1)).lockedTor = true) ∨
    (t'.pmp addrIndex).addrReg = val &&& H.pmpAddrMask
  | .mseccfg _ => True

structure MseccfgSticky (H : PmpHart) (t t' : PmpState) : Prop where
  mml : t.mseccfg.mml = true → t'.mseccfg.mml = true
  mmwp : t.mseccfg.mmwp = true → t'.mseccfg.mmwp = true
  rlb : t.mseccfg.rlb = false → (∃ i < H.pmpEntryCount, (t.pmp i).locked = true) →
    t'.mseccfg.rlb = false

/-- What the specification says about a sequence of writes. -/
structure FollowsLocking (H : PmpHart) (s : PmpState) (writes : List CsrWrite) : Prop where
  kept : ∀ earlier later, writes = earlier ++ later →
    (afterWrites H s earlier).mseccfg.rlb = false → ∀ i < H.pmpEntryCount,
    ((afterWrites H s earlier).pmp i).locked = true →
    (afterWrites H s writes).pmp i = (afterWrites H s earlier).pmp i
  keptTor : ∀ earlier later, writes = earlier ++ later →
    (afterWrites H s earlier).mseccfg.rlb = false → ∀ i, i + 1 < H.pmpEntryCount →
    ((afterWrites H s earlier).pmp (i + 1)).lockedTor = true →
    ((afterWrites H s writes).pmp i).addrReg = ((afterWrites H s earlier).pmp i).addrReg
  taken : ∀ t w t', Visits H s writes t w → t.mseccfg.rlb = false → applyWrite H t w = some t' →
    TakenUnlessLocked H t t' w
  sticky : ∀ t w, Visits H s writes t w → MseccfgSticky H t (afterWrite H t w)

/-- No byte changes the configuration of an unlocked entry below a locked TOR entry. -/
def SparesTor (H : PmpHart) (t : PmpState) : CsrWrite → Prop
  | .pmpcfg regIndex val =>
    ∀ i < H.longBits / 8, baseOffset H regIndex + i + 1 < H.pmpEntryCount →
      (t.pmp (baseOffset H regIndex + i + 1)).lockedTor = true →
      (t.pmp (baseOffset H regIndex + i)).locked = false →
      smepmpRejects t.mseccfg (cfgVal val i) = false →
      (t.pmp (baseOffset H regIndex + i)).cfgReg = storedByte H t.mseccfg (cfgVal val i)
  | _ => True

section Writes

variable {H : PmpHart} {s s' t t' : PmpState} {index i : Nat} {w : CsrWrite}

theorem pmpValidateConfiguration_eq (val : Nat) : pmpValidateConfiguration H s val =
      if smepmpRejects s.mseccfg val then none else some (storedByte H s.mseccfg val) := rfl

theorem pmpIsLocked_of_locked (locked : (s.pmp i).locked = true) : pmpIsLocked H s i = true :=
  if_pos locked

theorem pmpIsLocked_of_tor (inside : i + 1 < H.pmpEntryCount)
    (tor : (s.pmp (i + 1)).lockedTor = true) : pmpIsLocked H s i = true := by
  unfold pmpIsLocked
  split
  · rfl
  · rw [if_neg (by omega), tor]

theorem pmpIsLocked_cases (locked : pmpIsLocked H s i = true) :
    (s.pmp i).locked = true ∨ i + 1 < H.pmpEntryCount ∧ (s.pmp (i + 1)).lockedTor = true := by
  unfold pmpIsLocked at locked
  split at locked
  next own => exact inl own
  next =>
    split at locked
    · cases locked
    · exact inr ⟨by omega, locked⟩

/-- `RLB` is clear and the entry has its lock bit set. -/
structure Held (s : PmpState) (i : Nat) : Prop where
  rlb : s.mseccfg.rlb = false
  locked : (s.pmp i).locked = true

theorem Held.writeIgnored (held : Held s i) : writeIgnored H s i = true := by
  unfold Riscv.writeIgnored
  rw [pmpIsLocked_of_locked held.locked, held.rlb]
  rfl

theorem Held.congr (held : Held s i) (entry : s'.pmp i = s.pmp i)
    (rlb : s'.mseccfg.rlb = s.mseccfg.rlb) : Held s' i :=
  ⟨rlb.trans held.rlb, by rw [entry, held.locked]⟩

theorem Held.pmpWriteCfg {val : Nat} (held : Held s i)
    (written : pmpWriteCfg H s index val = some s') : s'.pmp i = s.pmp i := by
  by_cases same : i = index
  · rcases pmpWriteCfg_cases written with ⟨_, rfl⟩ | ⟨_, _, open', _⟩
    · rfl
    · rw [← same, held.writeIgnored] at open'
      cases open'
  · exact (pmpWriteCfg_same written).pmp i same

theorem pmpcfg_bytes_keep {base val : Nat} (indices : List Nat) : ∀ {s : PmpState},
      indices.foldlM (fun s i => pmpWriteCfg H s (base + i) (cfgVal val i)) s = some s' →
      (Held s i → s'.pmp i = s.pmp i) ∧ (∀ j, (s'.pmp j).addrReg = (s.pmp j).addrReg) ∧
        s'.mseccfg = s.mseccfg := by
  induction indices with
  | nil =>
    intro s done
    cases done
    exact ⟨fun _ => rfl, fun _ => rfl, rfl⟩
  | cons index rest ih =>
    intro s done
    obtain ⟨middle, first, later⟩ := bind_eq_some_iff.mp done
    have same := pmpWriteCfg_same first
    obtain ⟨locked, addrReg, mseccfg⟩ := ih later
    refine ⟨fun held => ?_, fun j => ?_, mseccfg.trans same.mseccfg⟩
    · have entry := held.pmpWriteCfg first
      rw [locked (held.congr entry (by rw [same.mseccfg])), entry]
    · rw [addrReg, same.addrReg]

theorem pmpcfgCsrWrite_bytes {regIndex val : Nat}
    (written : pmpcfgCsrWrite H s regIndex val = some s') :
    (range (H.longBits / 8)).foldlM
      (fun s i => pmpWriteCfg H s (baseOffset H regIndex + i) (cfgVal val i)) s = some s' := by
  unfold pmpcfgCsrWrite at written
  split at written
  · cases written
  · split at written
    · cases written
    · exact written

theorem pmpaddrCsrWrite_cases {addrIndex val : Nat}
    (written : pmpaddrCsrWrite H s addrIndex val = some s') :
    (writeIgnored H s addrIndex = true ∧ s' = s) ∨
      (writeIgnored H s addrIndex = false ∧ s'.mseccfg = s.mseccfg ∧
        (s'.pmp addrIndex).addrReg = val &&& H.pmpAddrMask ∧
        ∀ j, j ≠ addrIndex → s'.pmp j = s.pmp j) := by
  unfold pmpaddrCsrWrite at written
  split at written
  · cases written
  · split at written
    next ignored => exact inl ⟨ignored, (some.inj written).symm⟩
    next taken =>
      rw [← some.inj written]
      refine inr ⟨by simpa [writeIgnored] using taken, rfl, ?_, fun j ne => ?_⟩
      · change ((s.setEntry addrIndex _).pmp addrIndex).addrReg = _
        rw [s.setEntry_self]
      · exact s.setEntry_of_ne _ ne

theorem mseccfgCsrWrite_eq {val : Mseccfg} (written : mseccfgCsrWrite H s val = some s') :
    s' = { s with mseccfg :=
      { mml := val.mml || s.mseccfg.mml
        mmwp := val.mmwp || s.mseccfg.mmwp
        rlb := val.rlb && !(!s.mseccfg.rlb && pmpIsAnyRegionLocked H s) } } := by
  unfold mseccfgCsrWrite at written
  split at written
  · exact (some.inj written).symm
  · cases written

theorem pmpIsAnyRegionLocked_of_locked (inside : i < H.pmpEntryCount)
    (locked : (s.pmp i).locked = true) : pmpIsAnyRegionLocked H s = true := by
  unfold pmpIsAnyRegionLocked
  rw [List.any_eq_true]
  exact ⟨i, mem_range.mpr inside, pmpIsLocked_of_locked locked⟩

theorem mseccfgSticky_applyWrite (written : applyWrite H s w = some s') : MseccfgSticky H s s' := by
  have same (mseccfg : s'.mseccfg = s.mseccfg) : MseccfgSticky H s s' := by
    refine ⟨?_, ?_, fun rlb _ => ?_⟩ <;> rw [mseccfg]
    · exact id
    · exact id
    · exact rlb
  cases w with
  | pmpcfg regIndex val =>
    exact same (pmpcfg_bytes_keep (i := 0) _ (pmpcfgCsrWrite_bytes written)).2.2
  | pmpaddr addrIndex val =>
    rcases pmpaddrCsrWrite_cases written with ⟨_, rfl⟩ | ⟨_, mseccfg, _⟩
    · exact same rfl
    · exact same mseccfg
  | mseccfg val =>
    rw [mseccfgCsrWrite_eq written]
    refine ⟨fun mml => ?_, fun mmwp => ?_, fun rlb ⟨i, inside, locked⟩ => ?_⟩
    · simp [mml]
    · simp [mmwp]
    · simp [rlb, pmpIsAnyRegionLocked_of_locked inside locked]

theorem mseccfgSticky_afterWrite : MseccfgSticky H s (afterWrite H s w) := by
  unfold afterWrite
  cases written : applyWrite H s w with
  | none => exact ⟨id, id, fun rlb _ => rlb⟩
  | some s' => exact mseccfgSticky_applyWrite written

theorem Held.afterWrite (held : Held s i) (inside : i < H.pmpEntryCount) :
    (afterWrite H s w).pmp i = s.pmp i ∧ Held (afterWrite H s w) i := by
  have entry : (Riscv.afterWrite H s w).pmp i = s.pmp i := by
    unfold Riscv.afterWrite
    cases written : applyWrite H s w with
    | none => rfl
    | some s' =>
      cases w with
      | pmpcfg regIndex val =>
        exact (pmpcfg_bytes_keep _ (pmpcfgCsrWrite_bytes written)).1 held
      | pmpaddr addrIndex val =>
        rcases pmpaddrCsrWrite_cases written with ⟨_, rfl⟩ | ⟨open', _, _, others⟩
        · rfl
        · refine others i fun same => ?_
          rw [← same, held.writeIgnored] at open'
          cases open'
      | mseccfg val =>
        rw [mseccfgCsrWrite_eq written]
        rfl
  refine ⟨entry, mseccfgSticky_afterWrite.rlb held.rlb ⟨i, inside, held.locked⟩, ?_⟩
  rw [entry, held.locked]

theorem Held.afterWrites (held : Held s i) (inside : i < H.pmpEntryCount)
    (writes : List CsrWrite) :
    (afterWrites H s writes).pmp i = s.pmp i ∧ Held (afterWrites H s writes) i := by
  induction writes generalizing s with
  | nil => exact ⟨rfl, held⟩
  | cons w rest ih =>
    obtain ⟨entry, still⟩ := held.afterWrite (w := w) inside
    obtain ⟨later, last⟩ := ih still
    exact ⟨later.trans entry, last⟩

theorem Held.addrReg_afterWrite (held : Held s (i + 1)) (inside : i + 1 < H.pmpEntryCount)
    (tor : (s.pmp (i + 1)).lockedTor = true) :
    ((Riscv.afterWrite H s w).pmp i).addrReg = (s.pmp i).addrReg := by
  unfold Riscv.afterWrite
  cases written : applyWrite H s w with
  | none => rfl
  | some s' =>
    cases w with
    | pmpcfg regIndex val =>
      exact (pmpcfg_bytes_keep (i := i) _ (pmpcfgCsrWrite_bytes written)).2.1 i
    | pmpaddr addrIndex val =>
      rcases pmpaddrCsrWrite_cases written with ⟨_, rfl⟩ | ⟨open', _, _, others⟩
      · rfl
      · rw [getD_some, others i fun same => ?_]
        unfold Riscv.writeIgnored at open'
        rw [← same, pmpIsLocked_of_tor inside tor, held.rlb] at open'
        cases open'
    | mseccfg val =>
      rw [mseccfgCsrWrite_eq written]
      rfl

theorem Held.addrReg_afterWrites (held : Held s (i + 1)) (inside : i + 1 < H.pmpEntryCount)
    (tor : (s.pmp (i + 1)).lockedTor = true) (writes : List CsrWrite) :
    ((Riscv.afterWrites H s writes).pmp i).addrReg = (s.pmp i).addrReg := by
  induction writes generalizing s with
  | nil => rfl
  | cons w rest ih =>
    obtain ⟨entry, still⟩ := held.afterWrite (w := w) inside
    rw [← held.addrReg_afterWrite (w := w) inside tor]
    exact ih still (by rw [entry, tor])

theorem pmpcfg_bytes_cfgReg {base val : Nat} (indices : List Nat)
    (ascending : indices.Pairwise (· < ·)) :
    ∀ {s : PmpState},
      indices.foldlM (fun s i => pmpWriteCfg H s (base + i) (cfgVal val i)) s = some s' →
      (∀ j, (∀ i ∈ indices, j ≠ base + i) → s'.pmp j = s.pmp j) ∧
      ∀ i ∈ indices, (s'.pmp (base + i)).cfgReg =
        if takesByte H s (base + i) (cfgVal val i) then storedByte H s.mseccfg (cfgVal val i)
        else (s.pmp (base + i)).cfgReg := by
  induction indices with
  | nil =>
    intro s done
    cases done
    exact ⟨fun _ _ => rfl, fun _ member => absurd member not_mem_nil⟩
  | cons index rest ih =>
    intro s done
    obtain ⟨middle, first, later⟩ := bind_eq_some_iff.mp done
    rw [pairwise_cons] at ascending
    have same := pmpWriteCfg_same first
    obtain ⟨others, bytes⟩ := ih ascending.2 later
    refine ⟨fun j outside => ?_, fun i member => ?_⟩
    · rw [others j fun i member => outside i (mem_cons_of_mem index member),
        same.pmp j (outside index mem_cons_self)]
    · rcases mem_cons.mp member with rfl | inRest
      · rw [others (base + i) fun j member => by have := ascending.1 j member; omega]
        rcases pmpWriteCfg_cases first with ⟨taken, rfl⟩ | ⟨stored, taken, _, valid, rfl⟩
        · rw [taken]
          rfl
        · rw [taken, if_pos rfl]
          change ((s.setEntry (base + i) _).pmp (base + i)).cfgReg = _
          rw [s.setEntry_self]
          rw [pmpValidateConfiguration_eq] at valid
          split at valid
          · cases valid
          · exact (some.inj valid).symm
      · have behind : base + index < base + i := Nat.add_lt_add_left (ascending.1 i inRest) base
        rw [bytes i inRest, same.takesByte behind, same.mseccfg, same.pmp (base + i) (by omega)]

theorem takesByte_iff (rlb : s.mseccfg.rlb = false) (val : Nat) :
    takesByte H s i val = true ↔ pmpIsLocked H s i = false ∧ smepmpRejects s.mseccfg val = false := by
  unfold takesByte writeIgnored
  rw [pmpValidateConfiguration_eq, rlb]
  cases pmpIsLocked H s i <;> cases smepmpRejects s.mseccfg val <;> simp

theorem takenUnlessLocked_iff (rlb : t.mseccfg.rlb = false) (written : applyWrite H t w = some t') :
    TakenUnlessLocked H t t' w ↔ SparesTor H t w := by
  cases w with
  | mseccfg val => exact Iff.rfl
  | pmpaddr addrIndex val =>
    refine iff_of_true ?_ trivial
    rcases pmpaddrCsrWrite_cases written with ⟨ignored, rfl⟩ | ⟨_, _, stored, _⟩
    · unfold writeIgnored at ignored
      rw [rlb, Bool.not_false, Bool.and_true] at ignored
      rcases pmpIsLocked_cases ignored with own | tor
      · exact inl own
      · exact inr (inl tor)
    · exact inr (inr stored)
  | pmpcfg regIndex val =>
    have bytes := (pmpcfg_bytes_cfgReg _ pairwise_lt_range
      (pmpcfgCsrWrite_bytes written)).2
    refine forall₂_congr fun i less => ?_
    have byte := bytes i (mem_range.mpr less)
    by_cases own : (t.pmp (baseOffset H regIndex + i)).locked = true
    · simp [own]
    by_cases rejects : smepmpRejects t.mseccfg (cfgVal val i) = true
    · simp [rejects]
    by_cases tor : baseOffset H regIndex + i + 1 < H.pmpEntryCount ∧
        (t.pmp (baseOffset H regIndex + i + 1)).lockedTor = true
    · have ignored : takesByte H t (baseOffset H regIndex + i) (cfgVal val i) = false := by
        rw [← Bool.not_eq_true, takesByte_iff rlb, pmpIsLocked_of_tor tor.1 tor.2]
        simp
      rw [ignored] at byte
      rw [byte]
      simp [own, rejects, tor]
    · have taken : takesByte H t (baseOffset H regIndex + i) (cfgVal val i) = true := by
        rw [takesByte_iff rlb]
        refine ⟨?_, by simpa using rejects⟩
        by_contra locked
        rcases pmpIsLocked_cases (by simpa using locked) with own' | tor'
        · exact own own'
        · exact tor tor'
      rw [taken, if_pos rfl] at byte
      refine iff_of_true (inr (inr byte)) fun inside above => ?_
      exact absurd ⟨inside, above⟩ tor

end Writes

/-- Locking follows the specification in exactly those sequences in which every write of a
configuration register, made while `RLB` is clear and not refused as illegal, spares the
entries below a locked TOR entry. -/
theorem followsLocking_iff (H : PmpHart) (s : PmpState) (writes : List CsrWrite) :
    FollowsLocking H s writes ↔
      ∀ t w, Visits H s writes t w → t.mseccfg.rlb = false → (applyWrite H t w).isSome →
        SparesTor H t w := by
  constructor
  · intro follows t w visits rlb legal
    obtain ⟨t', written⟩ := isSome_iff_exists.mp legal
    exact (takenUnlessLocked_iff rlb written).mp (follows.taken t w t' visits rlb written)
  · intro spares
    have split (earlier later : List CsrWrite) (cut : writes = earlier ++ later) :
        afterWrites H s writes = afterWrites H (afterWrites H s earlier) later := by
      rw [cut]
      exact foldl_append
    refine ⟨?_, ?_, ?_, ?_⟩
    · intro earlier later cut rlb i inside locked
      rw [split earlier later cut]
      exact (Held.afterWrites ⟨rlb, locked⟩ inside later).1
    · intro earlier later cut rlb i inside tor
      rw [split earlier later cut]
      have locked : ((afterWrites H s earlier).pmp (i + 1)).locked = true :=
        (Bool.and_eq_true_iff.mp tor).1
      exact Held.addrReg_afterWrites ⟨rlb, locked⟩ inside tor later
    · intro t w t' visits rlb written
      refine (takenUnlessLocked_iff rlb written).mpr (spares t w visits rlb ?_)
      rw [written]
      rfl
    · intro t w _
      exact mseccfgSticky_afterWrite

/-- The TOR entry 1 is locked, then the entry 0 below it gets a configuration. -/
theorem cfg_below_tor_ignored :
    ¬∀ writes : List CsrWrite, FollowsLocking sampleHart pmpReset writes := by
  intro follows
  have visits : Visits sampleHart pmpReset [.pmpcfg 0 0x8800, .pmpcfg 0 0x881F]
      (afterWrites sampleHart pmpReset [.pmpcfg 0 0x8800]) (.pmpcfg 0 0x881F) :=
    ⟨[.pmpcfg 0 0x8800], [], rfl, rfl⟩
  have taken := (follows _).taken _ _ _ visits (by decide)
    (eq_some_of_isSome (by decide)) 0 (by decide)
  exact absurd taken (by decide)

end Tlib.Riscv
