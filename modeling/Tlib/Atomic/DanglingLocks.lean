import Tlib.Atomic.StoreTableLocks

/-!
Contract: the locks of a core after a fault has taken it out of a block.

Owns: what `unlock_dangling_locks` releases, against the entries that the core holds at the fault.
Does not own: the order in which locks are taken.
-/

namespace Tlib.Atomic

open Option

variable {T : StoreTable} {s s' : LockSystem} {c other cores : Nat}

theorem releaseLocked_lock (high : Bool) (entry : Nat) : (releaseLocked T s c high).lock entry =
      if s.lock entry = some c ∧ s.locked c high ≠ 0 ∧ entry = T.addressHash (s.locked c high)
      then none else s.lock entry := by
  unfold releaseLocked
  split
  next named =>
    unfold releaseEntry
    split
    next own =>
      rw [LockSystem.setLock_lock, LockSystem.setLocked_lock]
      by_cases here : entry = T.addressHash (s.locked c high)
      · rw [if_pos here, if_pos ⟨by rw [here]; exact own, named, here⟩]
      · rw [if_neg here, if_neg fun all => here all.2.2]
    next foreign =>
      rw [LockSystem.setLocked_lock, if_neg]
      intro all
      rw [all.2.2] at all
      exact foreign all.1
  next zero => rw [if_neg fun all => zero all.2.1]

theorem releaseEntry_core (entry : Nat) : (releaseEntry s c entry).core = s.core := by
  unfold releaseEntry
  split <;> rfl

theorem releaseLocked_locked (high field : Bool) :
    (releaseLocked T s c high).locked c field = if field = high then 0 else s.locked c field := by
  unfold releaseLocked
  split
  next named =>
    rw [← LockSystem.setLocked_locked]
    unfold LockSystem.locked
    rw [releaseEntry_core]
  next zero =>
    by_cases here : field = high
    · rw [if_pos here, here]
      exact not_not.mp zero
    · rw [if_neg here]

theorem releaseLocked_core (high : Bool) (ne : other ≠ c) :
    (releaseLocked T s c high).core other = s.core other := by
  unfold releaseLocked
  split
  · rw [releaseEntry_core]
    exact LockSystem.setCore_core_ne _ ne
  · rfl

theorem releaseEntry_global (entry : Nat) : (releaseEntry s c entry).lockingCpuId = s.lockingCpuId ∧
      (releaseEntry s c entry).entriesCount = s.entriesCount := by
  unfold releaseEntry
  split <;> exact ⟨rfl, rfl⟩

theorem releaseLocked_global (high : Bool) :
    (releaseLocked T s c high).lockingCpuId = s.lockingCpuId ∧
      (releaseLocked T s c high).entriesCount = s.entriesCount := by
  unfold releaseLocked
  split
  · exact releaseEntry_global _
  · exact ⟨rfl, rfl⟩

def clearOwnGlobal (s : LockSystem) (c : Nat) : LockSystem :=
  if s.lockingCpuId = some c then clearGlobalMemoryLock s else s

theorem clearOwnGlobal_lock : (clearOwnGlobal s c).lock = s.lock := by
  unfold clearOwnGlobal
  split <;> rfl

theorem clearOwnGlobal_core : (clearOwnGlobal s c).core = s.core := by
  unfold clearOwnGlobal
  split <;> rfl

theorem clearOwnGlobal_locked (high : Bool) :
    (clearOwnGlobal s c).locked c high = s.locked c high := by
  unfold LockSystem.locked
  rw [clearOwnGlobal_core]

theorem unlockDanglingLocks_eq : unlockDanglingLocks T s c =
      releaseLocked T (releaseLocked T (clearOwnGlobal s c) c false) c true := rfl

theorem unlockDanglingLocks_lock (entry : Nat) : (unlockDanglingLocks T s c).lock entry =
      if s.lock entry = some c ∧
          ∃ high, s.locked c high ≠ 0 ∧ entry = T.addressHash (s.locked c high)
      then none else s.lock entry := by
  have second : (releaseLocked T (clearOwnGlobal s c) c false).locked c true = s.locked c true := by
    rw [releaseLocked_locked, if_neg (by simp), clearOwnGlobal_locked]
  have first := releaseLocked_lock (T := T) (s := clearOwnGlobal s c) (c := c) false entry
  have two : (∃ high, s.locked c high ≠ 0 ∧ entry = T.addressHash (s.locked c high)) ↔
      (s.locked c false ≠ 0 ∧ entry = T.addressHash (s.locked c false)) ∨
        (s.locked c true ≠ 0 ∧ entry = T.addressHash (s.locked c true)) := Bool.exists_bool
  rw [clearOwnGlobal_lock, clearOwnGlobal_locked] at first
  rw [unlockDanglingLocks_eq, releaseLocked_lock, second]
  by_cases own : s.lock entry = some c
  · by_cases isLow : s.locked c false ≠ 0 ∧ entry = T.addressHash (s.locked c false)
    · rw [if_pos ⟨own, isLow⟩] at first
      rw [first, ite_self, if_pos ⟨own, two.mpr (.inl isLow)⟩]
    · rw [if_neg fun all => isLow all.2] at first
      rw [first]
      by_cases isHigh : s.locked c true ≠ 0 ∧ entry = T.addressHash (s.locked c true)
      · rw [if_pos ⟨own, isHigh⟩, if_pos ⟨own, two.mpr (.inr isHigh)⟩]
      · rw [if_neg fun all => isHigh all.2, if_neg fun all => (two.mp all.2).elim isLow isHigh]
  · rw [if_neg fun all => own all.1] at first
    rw [first, if_neg fun all => own all.1, if_neg fun all => own all.1]

theorem unlockDanglingLocks_locked (high : Bool) :
    (unlockDanglingLocks T s c).locked c high = 0 := by
  rw [unlockDanglingLocks_eq, releaseLocked_locked, releaseLocked_locked]
  cases high <;> rfl

theorem unlockDanglingLocks_core (ne : other ≠ c) :
    (unlockDanglingLocks T s c).core other = s.core other := by
  rw [unlockDanglingLocks_eq, releaseLocked_core _ ne, releaseLocked_core _ ne, clearOwnGlobal_core]

theorem unlockDanglingLocks_global :
    (unlockDanglingLocks T s c).lockingCpuId = (clearOwnGlobal s c).lockingCpuId ∧
      (unlockDanglingLocks T s c).entriesCount = (clearOwnGlobal s c).entriesCount := by
  obtain ⟨owner, count⟩ := releaseLocked_global (T := T) (s := clearOwnGlobal s c) (c := c) false
  rw [unlockDanglingLocks_eq, (releaseLocked_global true).1, (releaseLocked_global true).2]
  exact ⟨owner, count⟩

/-- The core is free of locks, and nothing of the others has changed. -/
structure Released (s s' : LockSystem) (c : Nat) : Prop where
  lock : ∀ entry, s'.lock entry ≠ some c
  global : s'.lockingCpuId ≠ some c
  locked : ∀ high, s'.locked c high = 0
  lock_others : ∀ entry, s.lock entry ≠ some c → s'.lock entry = s.lock entry
  core_others : ∀ other ≠ c, s'.core other = s.core other
  global_others : s.lockingCpuId ≠ some c →
    s'.lockingCpuId = s.lockingCpuId ∧ s'.entriesCount = s.entriesCount

theorem CoreAgrees.released_iff (agrees : CoreAgrees T s c) :
    Released s (unlockDanglingLocks T s c) c ↔ Recorded s c := by
  have named : ∀ high, (s.locked c high ≠ 0 ↔
      (s.core c).phase.records high = true ∧ (s.core c).phase.address high ≠ 0) := by
    intro high
    rw [agrees.locked_eq]
    by_cases recorded : (s.core c).phase.records high = true <;> simp
  constructor
  · intro released high held
    have own : s.lock (T.addressHash ((s.core c).phase.address high)) = some c :=
      (agrees.lock_iff _).mpr ⟨high, held, rfl⟩
    have gone := released.lock (T.addressHash ((s.core c).phase.address high))
    rw [unlockDanglingLocks_lock] at gone
    split at gone
    next all =>
      obtain ⟨_, field, nonzero, same⟩ := all
      obtain ⟨recorded, address⟩ := (named field).mp nonzero
      rw [agrees.locked_eq, if_pos recorded] at same
      by_cases here : field = high
      · rw [← here]
        exact ⟨recorded, address⟩
      · -- two entries that a core holds or has recorded are never the same
        have heldTouches : (s.core c).phase.touches high = true := by
          simp [LockPhase.touches, held]
        have recordedTouches : (s.core c).phase.touches field = true := by
          simp [LockPhase.touches, recorded]
        cases field <;> cases high
        · exact absurd rfl here
        · exact absurd same.symm (agrees.apart recordedTouches heldTouches)
        · exact absurd same (agrees.apart heldTouches recordedTouches)
        · exact absurd rfl here
    next => exact absurd own gone
  · intro recorded
    refine ⟨?_, ?_, unlockDanglingLocks_locked, ?_, fun _ => unlockDanglingLocks_core, ?_⟩
    · intro entry
      rw [unlockDanglingLocks_lock]
      split
      · simp
      next kept =>
        intro own
        obtain ⟨high, held, same⟩ := (agrees.lock_iff entry).mp own
        obtain ⟨isRecorded, address⟩ := recorded high held
        refine kept ⟨own, high, (named high).mpr ⟨isRecorded, address⟩, ?_⟩
        rw [agrees.locked_eq, if_pos isRecorded]
        exact same
    · rw [unlockDanglingLocks_global.1]
      unfold clearOwnGlobal
      split
      · simp [clearGlobalMemoryLock]
      next foreign => exact foreign
    · intro entry foreign
      rw [unlockDanglingLocks_lock, if_neg fun all => foreign all.1]
    · intro foreign
      rw [unlockDanglingLocks_global.1, unlockDanglingLocks_global.2]
      unfold clearOwnGlobal
      rw [if_neg foreign]
      exact ⟨rfl, rfl⟩

theorem lockStart_agrees (c : Nat) : CoreAgrees T lockStart c := by
  refine ⟨trivial, ?_, ?_, ?_⟩
  · intro entry
    unfold HoldsEntry
    simp [lockStart, LockPhase.holds]
  · intro touched
    simp [lockStart, LockPhase.touches, LockPhase.holds, LockPhase.records] at touched
  · intro high
    cases high <;> rfl

theorem CoreAgrees.start (agrees : CoreAgrees T s c) (outside : (s.core c).phase = .outside)
    {request : LockRequest} (hashed : request.Hashed T) :
    CoreAgrees T (s.setPhase c (.swapping request false)) c := by
  refine agrees.setPhase ⟨hashed, nofun⟩ ?_ ?_ ?_
  · intro high
    rw [outside]
    rfl
  · intro high
    rw [outside]
    rfl
  · intro high touched
    rw [outside] at touched
    simp [LockPhase.touches, LockPhase.holds, LockPhase.records] at touched

theorem acquireGlobalMemoryLock_keeps (done : acquireGlobalMemoryLock s c = some s') :
    s'.lock = s.lock ∧ s'.core = s.core := by
  unfold acquireGlobalMemoryLock at done
  split at done
  · rw [← some.inj done]
    exact ⟨rfl, rfl⟩
  · split at done
    · rw [← some.inj done]
      exact ⟨rfl, rfl⟩
    · cases done

theorem releaseGlobalMemoryLock_keeps (done : releaseGlobalMemoryLock s c = some s') :
    s'.lock = s.lock ∧ s'.core = s.core := by
  unfold releaseGlobalMemoryLock at done
  split at done
  · split at done
    · rw [← some.inj done]
      exact ⟨rfl, rfl⟩
    · rw [← some.inj done]
      exact ⟨rfl, rfl⟩
  · cases done

theorem frame_unlockDanglingLocks : Frame s (unlockDanglingLocks T s c) c := by
  refine ⟨fun _ => unlockDanglingLocks_core, ?_⟩
  intro other ne entry
  rw [unlockDanglingLocks_lock]
  split
  next all =>
    refine iff_of_false (by simp) ?_
    rw [all.1]
    exact fun same => ne (some.inj same).symm
  next => rfl

theorem CoreAgrees.fault (agrees : CoreAgrees T s c) (recorded : Recorded s c) :
    CoreAgrees T ((unlockDanglingLocks T s c).setPhase c .outside) c := by
  have released := agrees.released_iff.mpr recorded
  refine ⟨?_, ?_, ?_, ?_⟩
  · rw [LockSystem.setPhase_phase]
    trivial
  · intro entry
    unfold HoldsEntry
    rw [LockSystem.setPhase_phase, LockSystem.setPhase_lock]
    refine iff_of_false (released.lock entry) ?_
    simp [LockPhase.holds]
  · rw [LockSystem.setPhase_phase]
    intro touched
    simp [LockPhase.touches, LockPhase.holds, LockPhase.records] at touched
  · intro high
    rw [LockSystem.setPhase_phase, LockSystem.setPhase_locked]
    exact released.locked high

theorem CoreAgrees.step (agree : ∀ c, CoreAgrees T s c) {e : LockEvent} (hashed : e.Hashed T)
    (allowed : FaultsRecorded s c e) (done : lockStep T s c e = some s') :
    ∀ c, CoreAgrees T s' c := by
  have others : Frame s s' c → CoreAgrees T s' c → ∀ c, CoreAgrees T s' c := by
    intro frame own other
    by_cases here : other = c
    · rw [here]
      exact own
    · exact (agree other).congr (frame.core other here) (frame.lock other here)
  cases e with
  | start request =>
    simp only [lockStep] at done
    split at done
    next outside =>
      rw [← some.inj done] at others ⊢
      exact others (Frame.refl.setPhase _) ((agree c).start outside hashed)
    next => cases done
  | advance => exact others ((agree c).frame_advance done) ((agree c).advance done)
  | acquire =>
    obtain ⟨lock, core⟩ := acquireGlobalMemoryLock_keeps done
    intro other
    exact (agree other).congr (by rw [core]) (by simp [lock])
  | release =>
    obtain ⟨lock, core⟩ := releaseGlobalMemoryLock_keeps done
    intro other
    exact (agree other).congr (by rw [core]) (by simp [lock])
  | fault =>
    rw [← some.inj done] at others ⊢
    exact others (frame_unlockDanglingLocks.setPhase _) ((agree c).fault (allowed rfl))

theorem agrees_of_run (run : LockRun T cores FaultsRecorded s) (c : Nat) : CoreAgrees T s c := by
  have all : ∀ c, CoreAgrees T s c := by
    induction run with
    | start => exact lockStart_agrees
    | step _ _ hashed allowed done agree => exact CoreAgrees.step agree hashed allowed done
  exact all c

/-- After a fault in a run all locks of the core are released, and no others, exactly if
every entry it holds is recorded under an address that is not 0. -/
theorem unlockDanglingLocks_releases_iff (run : LockRun T cores FaultsRecorded s) (c : Nat) :
    Released s (unlockDanglingLocks T s c) c ↔ Recorded s c :=
  (agrees_of_run run c).released_iff

/-- Core 0 in the critical section of one entry. -/
def insideSingle (T : StoreTable) (address : Nat) : LockSystem :=
  let request := LockRequest.single address
  let swapping := lockStart.setPhase 0 (.swapping request false)
  let entry := T.addressHash (request.address false)
  let recording := (swapping.setLock entry (some 0)).setPhase 0 (.recording request false)
  (recording.setLocked 0 false (request.address false)).setPhase 0 (.inside request)

theorem run_insideSingle {address : Nat} : LockRun T 2 FaultsRecorded (insideSingle T address) := by
  have empty : LockRun T 2 FaultsRecorded lockStart := .start
  have swapping := empty.step (c := 0) (e := .start (.single address)) (by decide)
    LockRequest.ofWords_hashed nofun rfl
  have recording := swapping.step (c := 0) (e := .advance) (by decide) trivial nofun rfl
  exact recording.step (c := 0) (e := .advance) (by decide) trivial nofun rfl

def sampleTable : StoreTable where
  storeTableBits := 60
  storeTable := 0x1000
  bits_pos := by decide
  bits_le := by decide
  storeTable_lt := by decide
  aligned := by decide

/-- A fault while the entry of the guest address 8 is locked. -/
theorem unlockDanglingLocks_releases_sample :
    Released (insideSingle sampleTable 8) (unlockDanglingLocks sampleTable
      (insideSingle sampleTable 8) 0) 0 ↔ Recorded (insideSingle sampleTable 8) 0 :=
  unlockDanglingLocks_releases_iff run_insideSingle 0

/-- The guest address 0 stays locked for ever: the field says that nothing is locked. -/
theorem unlockDanglingLocks_misses_zero :
    LockRun sampleTable 2 FaultsRecorded (insideSingle sampleTable 0) ∧
      ((insideSingle sampleTable 0).core 0).phase = .inside (.single 0) ∧
      (unlockDanglingLocks sampleTable (insideSingle sampleTable 0) 0).lock 0x1000 = some 0 ∧
      ¬Released (insideSingle sampleTable 0)
        (unlockDanglingLocks sampleTable (insideSingle sampleTable 0) 0) 0 := by
  have kept : (unlockDanglingLocks sampleTable (insideSingle sampleTable 0) 0).lock 0x1000 =
      some 0 := by decide
  exact ⟨run_insideSingle, rfl, kept, fun released => released.lock 0x1000 kept⟩

end Tlib.Atomic
