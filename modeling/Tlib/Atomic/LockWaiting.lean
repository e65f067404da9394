import Tlib.Atomic.DanglingLocks
import Tlib.Library.WaitCycles

/-!
Contract: cores that wait for each other's entries.

Owns: mutual exclusion of the locks of the store table, and the size of the table from which no ring
of waiting cores can form.
-/

namespace Tlib.Atomic

open Relation Tlib.Library.WaitCycles Nat Option

variable {T : StoreTable} {s s' : LockSystem} {c other cores : Nat}

def WaitsFor (T : StoreTable) (s : LockSystem) (c other : Nat) : Prop :=
  ∃ request high, (s.core c).phase = .swapping request high ∧
    s.lock (T.genHashAddress (request.lockTemp high)) = some other

structure LocksSafe (T : StoreTable) (s : LockSystem) : Prop where
  exclusive : ∀ c other entry, HoldsEntry T s c entry → HoldsEntry T s other entry → c = other
  holder : ∀ c request high, (s.core c).phase = .storing request high →
    s.lock (T.genHashAddress (request.unlockTemp high)) = some c
  noAbort : ∀ c request high, (s.core c).phase ≠ .aborted request high
  noCycle : ∀ c, ¬TransGen (WaitsFor T s) c c

def NoFault (_ : LockSystem) (_ : Nat) (e : LockEvent) : Prop := e ≠ .fault

theorem LockRun.faultsRecorded (run : LockRun T cores NoFault s) :
    LockRun T cores FaultsRecorded s := by
  induction run with
  | start => exact .start
  | step _ less hashed noFault done run =>
    exact run.step less hashed (fun fault => absurd fault noFault) done

theorem lockStep_core (agrees : CoreAgrees T s c) {e : LockEvent}
    (done : lockStep T s c e = some s') (ne : other ≠ c) : s'.core other = s.core other := by
  cases e with
  | start request =>
    simp only [lockStep] at done
    split at done
    · rw [← some.inj done]
      exact LockSystem.setCore_core_ne _ ne
    · cases done
  | advance => exact (agrees.frame_advance done).core other ne
  | acquire => rw [(acquireGlobalMemoryLock_keeps done).2]
  | release => rw [(releaseGlobalMemoryLock_keeps done).2]
  | fault =>
    rw [← some.inj done]
    exact (frame_unlockDanglingLocks.setPhase _).core other ne

theorem outside_of_le (run : LockRun T cores NoFault s) (absent : cores ≤ c) :
    (s.core c).phase = .outside := by
  induction run with
  | start => rfl
  | step run less _ _ done outside =>
    rw [lockStep_core (agrees_of_run run.faultsRecorded _) done (by omega)]
    exact outside

def wantedPlace (T : StoreTable) (s : LockSystem) (c : Nat) : Nat :=
  match (s.core c).phase with
  | .swapping request high => request.address high / 8 % T.hstTableEntriesCount
  | _ => 0

theorem wantedPlace_next (own : CoreAgrees T s c) (agrees : CoreAgrees T s other)
    (waits : WaitsFor T s c other) {third : Nat} (next : WaitsFor T s other third) :
    wantedPlace T s other = (wantedPlace T s c + 1) % T.hstTableEntriesCount := by
  obtain ⟨request, high, swapping, taken⟩ := waits
  obtain ⟨request', high', swapping', _⟩ := next
  have hashed := own.valid
  rw [swapping] at hashed
  rw [(hashed.1 high).1] at taken
  obtain ⟨field, held, same⟩ := (agrees.lock_iff _).mp taken
  rw [swapping'] at held same
  have second : high' = true ∧ field = false := by simpa [LockPhase.holds] using held
  rw [StoreTable.addressHash_eq_iff] at same
  unfold wantedPlace
  rw [swapping, swapping']
  dsimp only
  rw [same, second.1, second.2]
  have above : request'.address true = (request'.address false + 8) % 2 ^ 64 := request'.high
  rw [above]
  exact StoreTable.pair_places _

theorem entriesCount_le_of_cycle (run : LockRun T cores NoFault s)
    (cycle : TransGen (WaitsFor T s) c c) : T.hstTableEntriesCount ≤ cores := by
  have agree := agrees_of_run run.faultsRecorded
  have edge : ∀ a b, WaitsFor T s a b → TransGen (WaitsFor T s) b b →
      wantedPlace T s b = (wantedPlace T s a + 1) % T.hstTableEntriesCount := by
    intro a b waits onCycle
    obtain ⟨third, next, _⟩ := exists_next onCycle
    exact wantedPlace_next (agree a) (agree b) waits next
  have party : ∀ a, TransGen (WaitsFor T s) a a → a ∈ Finset.range cores := by
    intro a onCycle
    obtain ⟨b, ⟨request, high, swapping, _⟩, _⟩ := exists_next onCycle
    rw [Finset.mem_range]
    by_contra absent
    rw [outside_of_le run (by omega)] at swapping
    cases swapping
  have bound := places_le_card edge (Finset.range cores) party cycle
  rw [Finset.card_range] at bound
  exact bound

theorem advance_aborts (done : advance T s c = some s') {request : LockRequest} {high : Bool}
    (aborted : (s'.core c).phase = .aborted request high) :
    WaitsFor T s c c := by
  unfold advance at done
  split at done
  case h_1 => cases done
  case h_2 request' high' swapping =>
    split at done
    next free =>
      rw [← some.inj done, LockSystem.setPhase_phase] at aborted
      cases aborted
    next owner taken =>
      split at done
      next own => exact ⟨request', high', swapping, by rw [taken, own]⟩
      next =>
        rw [← some.inj done, swapping] at aborted
        cases aborted
  case h_3 request' high' _ =>
    rw [← some.inj done, LockSystem.setPhase_phase] at aborted
    unfold LockRequest.next at aborted
    split at aborted <;> cases aborted
  case h_4 =>
    rw [← some.inj done, LockSystem.setPhase_phase] at aborted
    cases aborted
  case h_5 =>
    rw [← some.inj done, LockSystem.setPhase_phase] at aborted
    cases aborted
  case h_6 request' high' _ =>
    rw [← some.inj done, LockSystem.setPhase_phase] at aborted
    unfold LockRequest.next at aborted
    split at aborted <;> cases aborted
  case h_7 => cases done

theorem lockStep_aborts {e : LockEvent} (before : ∀ request high, (s.core c).phase ≠
    .aborted request high) (done : lockStep T s c e = some s') {request : LockRequest}
    {high : Bool} (aborted : (s'.core c).phase = .aborted request high) : WaitsFor T s c c := by
  cases e with
  | start request' =>
    simp only [lockStep] at done
    split at done
    · rw [← some.inj done, LockSystem.setPhase_phase] at aborted
      cases aborted
    · cases done
  | advance => exact advance_aborts done aborted
  | acquire =>
    rw [(acquireGlobalMemoryLock_keeps done).2] at aborted
    exact absurd aborted (before request high)
  | release =>
    rw [(releaseGlobalMemoryLock_keeps done).2] at aborted
    exact absurd aborted (before request high)
  | fault =>
    rw [← some.inj done, LockSystem.setPhase_phase] at aborted
    cases aborted

theorem noAbort_of_lt (small : cores < T.hstTableEntriesCount) (run : LockRun T cores NoFault s) :
    ∀ c request high, (s.core c).phase ≠ .aborted request high := by
  induction run with
  | start => nofun
  | @step s s' c e run _ _ _ done before =>
    intro other request high aborted
    by_cases here : other = c
    · rw [here] at aborted
      have cycle := TransGen.single (lockStep_aborts (before c) done aborted)
      have := entriesCount_le_of_cycle run cycle
      omega
    · rw [lockStep_core (agrees_of_run run.faultsRecorded c) done here] at aborted
      exact before other request high aborted

theorem locksSafe_of_lt (small : cores < T.hstTableEntriesCount) (run : LockRun T cores NoFault s) :
    LocksSafe T s := by
  have agree := agrees_of_run run.faultsRecorded
  refine ⟨?_, ?_, noAbort_of_lt small run, ?_⟩
  · intro c other entry own foreign
    have first := ((agree c).lock_iff entry).mpr own
    have second := ((agree other).lock_iff entry).mpr foreign
    rw [first] at second
    exact some.inj second
  · intro c request high storing
    have hashed := (agree c).valid
    rw [storing] at hashed
    rw [(hashed.1 high).2]
    exact (agree c).storing_lock storing
  · intro c cycle
    have := entriesCount_le_of_cycle run cycle
    omega

/-- The first cores have each locked the first entry of a pair. -/
def lockRing (T : StoreTable) : Nat → LockSystem
  | 0 => lockStart
  | c + 1 =>
    let request := LockRequest.pair (8 * c)
    let swapping := (lockRing T c).setPhase c (.swapping request false)
    let entry := T.addressHash (request.address false)
    let recording := (swapping.setLock entry (some c)).setPhase c (.recording request false)
    (recording.setLocked c false (request.address false)).setPhase c (.swapping request true)

theorem lockRing_core_ne (ne : other ≠ c) :
    (lockRing T (c + 1)).core other = (lockRing T c).core other := by
  simp only [lockRing]
  unfold LockSystem.setPhase LockSystem.setLocked
  rw [LockSystem.setCore_core_ne _ ne, LockSystem.setCore_core_ne _ ne,
    LockSystem.setCore_core_ne _ ne, LockSystem.setLock_core, LockSystem.setCore_core_ne _ ne]

theorem lockRing_phase (count c : Nat) : ((lockRing T count).core c).phase =
    if c < count then .swapping (.pair (8 * c)) true else .outside := by
  induction count with
  | zero => rfl
  | succ count ih =>
    by_cases here : c = count
    · rw [here, if_pos (lt_succ_self count)]
      exact LockSystem.setPhase_phase _
    · rw [lockRing_core_ne here, ih]
      exact if_congr (by omega) rfl rfl

theorem addressHash_eight_mul (less : c < T.hstTableEntriesCount) :
    T.addressHash (8 * c) = T.storeTable + 8 * c := by
  rw [StoreTable.addressHash_eq, Nat.mul_div_cancel_left c (by decide), mod_eq_of_lt less]

theorem lockRing_lock {count : Nat} (room : count ≤ T.hstTableEntriesCount)
    (less : c < T.hstTableEntriesCount) :
    (lockRing T count).lock (T.addressHash (8 * c)) = if c < count then some c else none := by
  induction count with
  | zero => rfl
  | succ count ih =>
    have places := addressHash_eight_mul less
    have places' := addressHash_eight_mul (T := T) (c := count) (by omega)
    change (LockSystem.setLock _ (T.addressHash (8 * count % 2 ^ 64)) (some count)).lock _ = _
    rw [LockSystem.setLock_lock, StoreTable.addressHash_mod]
    by_cases here : c = count
    · rw [if_pos (by rw [here]), if_pos (by omega), here]
    · rw [if_neg (by omega)]
      refine (ih (by omega)).trans ?_
      exact if_congr (by omega) rfl rfl

theorem advance_free {request : LockRequest} {high : Bool}
    (swapping : (s.core c).phase = .swapping request high)
    (free : s.lock (T.genHashAddress (request.lockTemp high)) = none) :
    lockStep T s c .advance =
      some ((s.setLock (T.genHashAddress (request.lockTemp high)) (some c)).setPhase c
        (.recording request high)) := by
  unfold lockStep advance
  rw [swapping]
  dsimp only
  rw [free]

theorem run_lockRing {count : Nat} (room : count ≤ T.hstTableEntriesCount) (enough : count ≤ cores) :
    LockRun T cores NoFault (lockRing T count) := by
  induction count with
  | zero => exact .start
  | succ count ih =>
    have before := ih (by omega) (by omega)
    have outside := lockRing_phase (T := T) count count
    rw [if_neg (by omega)] at outside
    have free : (lockRing T count).lock (T.addressHash (8 * count)) =
        if count < count then some count else none := lockRing_lock (by omega) (by omega)
    rw [if_neg (by omega), ← StoreTable.addressHash_mod] at free
    have swapping := before.step (c := count) (e := .start (.pair (8 * count))) (by omega)
      LockRequest.ofWords_hashed LockEvent.noConfusion (by simp only [lockStep]; rw [if_pos outside])
    have locked := @advance_free T
      ((lockRing T count).setPhase count (.swapping (.pair (8 * count)) false)) count
      (.pair (8 * count)) false (LockSystem.setPhase_phase _) free
    have recording := swapping.step (c := count) (e := .advance) (by omega) trivial
      LockEvent.noConfusion locked
    exact recording.step (c := count) (e := .advance) (by omega) trivial LockEvent.noConfusion (by
      unfold lockStep advance
      rw [LockSystem.setPhase_phase]
      rfl)

theorem lockRing_waits (less : c < T.hstTableEntriesCount) :
    WaitsFor T (lockRing T T.hstTableEntriesCount) c ((c + 1) % T.hstTableEntriesCount) := by
  have nextLess := mod_lt (c + 1) (StoreTable.entriesCount_pos (T := T))
  have phase := lockRing_phase (T := T) T.hstTableEntriesCount c
  rw [if_pos less] at phase
  refine ⟨_, _, phase, ?_⟩
  have same : T.addressHash ((8 * c + 8) % 2 ^ 64) =
      T.addressHash (8 * ((c + 1) % T.hstTableEntriesCount)) := by
    rw [StoreTable.addressHash_eq_iff, StoreTable.pair_places,
      Nat.mul_div_cancel_left _ (by decide), Nat.mul_div_cancel_left _ (by decide),
      mod_add_mod, mod_mod]
  change (lockRing T T.hstTableEntriesCount).lock (T.addressHash ((8 * c + 8) % 2 ^ 64)) = _
  rw [same, lockRing_lock (Nat.le_refl _) nextLess, if_pos nextLess]

theorem lockRing_reaches (steps : Nat) (some' : 0 < steps) (room : steps ≤ T.hstTableEntriesCount) :
    TransGen (WaitsFor T (lockRing T T.hstTableEntriesCount)) 0
      (steps % T.hstTableEntriesCount) := by
  induction steps with
  | zero => omega
  | succ steps ih =>
    have waits := lockRing_waits (T := T) (c := steps) (by omega)
    by_cases first : steps = 0
    · rw [first] at waits ⊢
      exact .single waits
    · have reached := ih (by omega) (by omega)
      rw [mod_eq_of_lt (by omega)] at reached
      exact reached.tail waits

theorem lockRing_cycle : TransGen (WaitsFor T (lockRing T T.hstTableEntriesCount)) 0 0 := by
  have cycle := lockRing_reaches (T := T) T.hstTableEntriesCount StoreTable.entriesCount_pos
    (Nat.le_refl _)
  rw [mod_self] at cycle
  exact cycle

/-- All runs are safe exactly if the table has more entries than there are cores. -/
theorem locksSafe_iff :
    (∀ s, LockRun T cores NoFault s → LocksSafe T s) ↔ cores < T.hstTableEntriesCount := by
  constructor
  · intro safe
    by_contra full
    exact (safe _ (run_lockRing (Nat.le_refl _) (by omega))).noCycle 0 lockRing_cycle
  · intro small s run
    exact locksSafe_of_lt small run

/-- Two cores that lock the pairs at 0 and at 8 wait for each other in a table of two
entries, where the second entry of the second pair is the first of the first. -/
theorem lockRing_deadlock : LockRun sampleTable 2 NoFault (lockRing sampleTable 2) ∧
      ((lockRing sampleTable 2).core 0).phase = .swapping (.pair 0) true ∧
      ((lockRing sampleTable 2).core 1).phase = .swapping (.pair 8) true ∧
      ¬LocksSafe sampleTable (lockRing sampleTable 2) := by
  refine ⟨run_lockRing (T := sampleTable) (by decide) (by decide), rfl, rfl, ?_⟩
  intro safe
  exact safe.noCycle 0 (lockRing_cycle (T := sampleTable))

end Tlib.Atomic
