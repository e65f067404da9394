import Mathlib.Algebra.Group.Nat.Defs
import Mathlib.Data.List.Infix
import Mathlib.Logic.Function.Basic
import Mathlib.Tactic.Push

/-!
Contract: the global memory lock as a monitor.

Owns: the code of the global memory lock statement by statement, with its mutex and its condition
variable, and runs in which any CPU takes the next statement.
-/

namespace Tlib.Atomic.GlobalLock

open List Option Or

variable {α : Type} [DecidableEq α] {c d : α}

/-! ### The code of the lock -/

inductive Call where
  | acquire
  | release
  | clear
  deriving DecidableEq, Repr

/-- Where a CPU is in the code of the lock. -/
inductive Phase where
  | outside
  /-- Before `pthread_mutex_lock`. -/
  | entering (call : Call)
  | inside (call : Call)
  /-- Before the test of the loop around `pthread_cond_wait`. -/
  | testing
  | waiting
  /-- Woken in `pthread_cond_wait`, without the mutex yet. -/
  | woken
  /-- Before `pthread_mutex_unlock`. -/
  | leaving
  deriving DecidableEq, Repr

def Phase.holdsMutex : Phase → Bool
  | .inside _ | .testing | .leaving => true
  | _ => false

/-- The words of `atomic_memory_state` that the lock uses, and where its CPUs are. -/
structure State (α : Type) where
  lockingCpuId : Option α
  /-- A `uint32_t`. -/
  entriesCount : Nat
  globalMutex : Option α
  phase : α → Phase

def State.initial : State α where
  lockingCpuId := none
  entriesCount := 0
  globalMutex := none
  phase := fun _ => .outside

def areMultipleCpusRegistered (numberOfRegisteredCpus : Nat) : Bool :=
  decide (1 < numberOfRegisteredCpus)

namespace State

variable {s s' : State α}

def setPhase (s : State α) (c : α) (p : Phase) : State α :=
  { s with phase := Function.update s.phase c p }

@[simp] theorem setPhase_lockingCpuId (p : Phase) :
    (s.setPhase c p).lockingCpuId = s.lockingCpuId := rfl

@[simp] theorem setPhase_entriesCount (p : Phase) :
    (s.setPhase c p).entriesCount = s.entriesCount := rfl

@[simp] theorem setPhase_globalMutex (p : Phase) :
    (s.setPhase c p).globalMutex = s.globalMutex := rfl

@[simp] theorem setPhase_phase (p : Phase) : (s.setPhase c p).phase c = p := Function.update_self ..

theorem setPhase_phase_ne (p : Phase) (ne : d ≠ c) : (s.setPhase c p).phase d = s.phase d :=
  Function.update_of_ne ne ..

def enter (s : State α) (cpus : Nat) (c : α) (call : Call) : State α :=
  if areMultipleCpusRegistered cpus then s.setPhase c (.entering call) else s

/-- The part of `unlock_dangling_locks` that is about this lock. -/
def unlockDanglingLocks (s : State α) (cpus : Nat) (c : α) : State α :=
  if s.lockingCpuId = some c then s.enter cpus c .clear else s

def countEntry (s : State α) (c : α) : State α :=
  ({ s with
    lockingCpuId := some c
    entriesCount := (s.entriesCount + 1) % 2 ^ 32 } : State α).setPhase c .leaving

def free (s : State α) (c : α) : State α :=
  ({ s with lockingCpuId := none, entriesCount := 0 } : State α).setPhase c .leaving

/-- `entries_count` after the decrement. -/
def afterRelease (s : State α) : Nat := (s.entriesCount + (2 ^ 32 - 1)) % 2 ^ 32

def keep (s : State α) (c : α) : State α :=
  ({ s with entriesCount := s.afterRelease } : State α).setPhase c .leaving

theorem keep_words :
    (s.keep c).lockingCpuId = s.lockingCpuId ∧ (s.keep c).entriesCount = s.afterRelease ∧
      (s.keep c).globalMutex = s.globalMutex := by
  exact ⟨setPhase_lockingCpuId _, setPhase_entriesCount _, setPhase_globalMutex _⟩

/-- `pthread_cond_signal`: a CPU that waits is woken, if there is one. -/
def Signalled (s s' : State α) : Prop :=
  (∃ w, s.phase w = .waiting ∧ s' = s.setPhase w .woken) ∨ ((∀ w, s.phase w ≠ .waiting) ∧ s' = s)

end State

inductive Completion (α : Type) where
  | acquired (c : α)
  | released (c : α)
  | cleared (c : α)
  deriving DecidableEq, Repr

/-- The steps of a CPU. Only the owner calls `release` and `clear`. -/
inductive Step (cpus : Nat) (c : α) : State α → Option (Completion α) → State α → Prop
  | call {s : State α} (call : Call) (outside : s.phase c = .outside)
      (byOwner : call ≠ .acquire → s.lockingCpuId = some c) :
      Step cpus c s none (s.enter cpus c call)
  | unlockDanglingLocks {s : State α} (outside : s.phase c = .outside) :
      Step cpus c s none (s.unlockDanglingLocks cpus c)
  | lock {s : State α} {call : Call} (entering : s.phase c = .entering call)
      (unlocked : s.globalMutex = none) :
      Step cpus c s none ({ s with globalMutex := some c }.setPhase c (.inside call))
  | reenter {s : State α} (inside : s.phase c = .inside .acquire)
      (own : s.lockingCpuId = some c) :
      Step cpus c s (some (.acquired c)) (s.countEntry c)
  | loop {s : State α} (inside : s.phase c = .inside .acquire)
      (foreign : s.lockingCpuId ≠ some c) :
      Step cpus c s none (s.setPhase c .testing)
  | take {s : State α} (testing : s.phase c = .testing) (unowned : s.lockingCpuId = none) :
      Step cpus c s (some (.acquired c)) (s.countEntry c)
  | wait {s : State α} (testing : s.phase c = .testing) (owned : s.lockingCpuId ≠ none) :
      Step cpus c s none ({ s with globalMutex := none }.setPhase c .waiting)
  | wakeUp {s : State α} (waiting : s.phase c = .waiting) : Step cpus c s none (s.setPhase c .woken)
  | relock {s : State α} (woken : s.phase c = .woken) (unlocked : s.globalMutex = none) :
      Step cpus c s none ({ s with globalMutex := some c }.setPhase c .testing)
  | release {s s' : State α} (inside : s.phase c = .inside .release)
      (last : s.afterRelease = 0) (signalled : (s.free c).Signalled s') :
      Step cpus c s (some (.released c)) s'
  | releaseNested {s : State α} (inside : s.phase c = .inside .release)
      (nested : s.afterRelease ≠ 0) :
      Step cpus c s (some (.released c)) (s.keep c)
  | clear {s s' : State α} (inside : s.phase c = .inside .clear)
      (signalled : (s.free c).Signalled s') :
      Step cpus c s (some (.cleared c)) s'
  | unlock {s : State α} (leaving : s.phase c = .leaving) :
      Step cpus c s none ({ s with globalMutex := none }.setPhase c .outside)

/-- Any interleaving of the CPUs, in the order in which sections are completed. -/
inductive Run (cpus : Nat) : List (Completion α) → State α → Prop
  | start : Run cpus [] .initial
  | step {trace : List (Completion α)} {s s' : State α} {done : Option (Completion α)} (c : α)
      (run : Run cpus trace s) (moves : Step cpus c s done s') :
      Run cpus (trace ++ done.toList) s'

/-! ### Open acquires -/

/-- How many acquires of the CPU are not released yet. -/
def openAfter (c : α) (n : Nat) : Completion α → Nat
  | .acquired d => if d = c then n + 1 else n
  | .released d => if d = c then n - 1 else n
  | .cleared d => if d = c then 0 else n

def openAcquires (trace : List (Completion α)) (c : α) : Nat := trace.foldl (openAfter c) 0

theorem openAcquires_concat (trace : List (Completion α)) (e : Completion α) :
    openAcquires (trace ++ [e]) c = openAfter c (openAcquires trace c) e := by
  unfold openAcquires
  rw [foldl_append]
  rfl

def Completion.cpu : Completion α → α
  | .acquired c | .released c | .cleared c => c

theorem openAfter_of_ne (e : Completion α) (ne : e.cpu ≠ c) (n : Nat) : openAfter c n e = n := by
  cases e with
  | acquired => exact if_neg ne
  | released => exact if_neg ne
  | cleared => exact if_neg ne

def Countable (trace : List (Completion α)) : Prop :=
  ∀ earlier, earlier <+: trace → ∀ c, openAcquires earlier c < 2 ^ 32

theorem Countable.of_prefix {earlier trace : List (Completion α)} (countable : Countable trace)
    (before : earlier <+: trace) : Countable earlier :=
  fun _ first => countable _ (first.trans before)

theorem openAcquires_le (trace : List (Completion α)) (c : α) :
    openAcquires trace c ≤ trace.length := by
  induction trace using reverseRecOn with
  | nil => exact Nat.le_refl 0
  | append_singleton trace e bound =>
    rw [openAcquires_concat, length_append]
    unfold openAfter
    split <;> split <;> simp <;> omega

theorem Countable.of_length {trace : List (Completion α)} (short : trace.length < 2 ^ 32) :
    Countable trace := fun earlier before c =>
  Nat.lt_of_le_of_lt ((openAcquires_le earlier c).trans before.length_le) short

/-! ### One step -/

variable {cpus : Nat} {s s' : State α} {done : Option (Completion α)}

theorem State.Signalled.words (signalled : s.Signalled s') :
    s'.lockingCpuId = s.lockingCpuId ∧ s'.entriesCount = s.entriesCount ∧
      s'.globalMutex = s.globalMutex := by
  rcases signalled with ⟨w, _, rfl⟩ | ⟨_, rfl⟩
  · exact ⟨rfl, rfl, rfl⟩
  · exact ⟨rfl, rfl, rfl⟩

theorem State.Signalled.phase (signalled : s.Signalled s') (d : α) :
    s'.phase d = s.phase d ∨ s.phase d = .waiting ∧ s'.phase d = .woken := by
  rcases signalled with ⟨w, waiting, rfl⟩ | ⟨_, rfl⟩
  · by_cases same : d = w
    · rw [same]
      exact inr ⟨waiting, State.setPhase_phase _⟩
    · exact inl (State.setPhase_phase_ne _ same)
  · exact inl rfl

theorem State.Signalled.leaving (signalled : (s.free c).Signalled s') : s'.phase c = .leaving := by
  have free : (s.free c).phase c = .leaving := State.setPhase_phase _
  rcases signalled.phase c with same | ⟨waiting, _⟩
  · rw [same, free]
  · rw [free] at waiting
    cases waiting

theorem State.enter_words (call : Call) : (s.enter cpus c call).lockingCpuId = s.lockingCpuId ∧
      (s.enter cpus c call).entriesCount = s.entriesCount ∧
      (s.enter cpus c call).globalMutex = s.globalMutex := by
  unfold State.enter
  split <;> exact ⟨rfl, rfl, rfl⟩

theorem State.unlockDanglingLocks_words :
    (s.unlockDanglingLocks cpus c).lockingCpuId = s.lockingCpuId ∧
      (s.unlockDanglingLocks cpus c).entriesCount = s.entriesCount ∧
      (s.unlockDanglingLocks cpus c).globalMutex = s.globalMutex := by
  unfold State.unlockDanglingLocks
  split
  · exact State.enter_words _
  · exact ⟨rfl, rfl, rfl⟩

theorem Step.words (moves : Step cpus c s done s') :
    (done = none ∧ s'.lockingCpuId = s.lockingCpuId ∧ s'.entriesCount = s.entriesCount) ∨
    (done = some (.acquired c) ∧ (s.lockingCpuId = some c ∨ s.lockingCpuId = none) ∧
      s'.lockingCpuId = some c ∧ s'.entriesCount = (s.entriesCount + 1) % 2 ^ 32) ∨
    (done = some (.released c) ∧ s.phase c = .inside .release ∧ s.afterRelease ≠ 0 ∧
      s'.lockingCpuId = s.lockingCpuId ∧ s'.entriesCount = s.afterRelease) ∨
    (((done = some (.released c) ∧ s.phase c = .inside .release ∧ s.afterRelease = 0) ∨
        (done = some (.cleared c) ∧ s.phase c = .inside .clear)) ∧
      s'.lockingCpuId = none ∧ s'.entriesCount = 0) := by
  cases moves with
  | call call => exact inl ⟨rfl, (State.enter_words call).1, (State.enter_words call).2.1⟩
  | unlockDanglingLocks =>
    exact inl ⟨rfl, State.unlockDanglingLocks_words.1, State.unlockDanglingLocks_words.2.1⟩
  | lock => exact inl ⟨rfl, rfl, rfl⟩
  | reenter _ own => exact inr (inl ⟨rfl, inl own, rfl, rfl⟩)
  | loop => exact inl ⟨rfl, rfl, rfl⟩
  | take _ unowned => exact inr (inl ⟨rfl, inr unowned, rfl, rfl⟩)
  | wait => exact inl ⟨rfl, rfl, rfl⟩
  | wakeUp => exact inl ⟨rfl, rfl, rfl⟩
  | relock => exact inl ⟨rfl, rfl, rfl⟩
  | release inside last signalled =>
    have words := signalled.words
    exact inr (inr (inr ⟨inl ⟨rfl, inside, last⟩, words.1, words.2.1⟩))
  | releaseNested inside nested =>
    exact inr (inr (inl ⟨rfl, inside, nested, State.keep_words.1, State.keep_words.2.1⟩))
  | clear inside signalled =>
    have words := signalled.words
    exact inr (inr (inr ⟨inr ⟨rfl, inside⟩, words.1, words.2.1⟩))
  | unlock => exact inl ⟨rfl, rfl, rfl⟩

theorem State.enter_phase_ne (call : Call) (ne : d ≠ c) :
    (s.enter cpus c call).phase d = s.phase d := by
  unfold State.enter
  split
  · exact State.setPhase_phase_ne _ ne
  · rfl

theorem Step.phase_ne (moves : Step cpus c s done s') (ne : d ≠ c) :
    s'.phase d = s.phase d ∨ s.phase d = .waiting ∧ s'.phase d = .woken := by
  have own (t : State α) (p : Phase) (same : t.phase d = s.phase d) :
      (t.setPhase c p).phase d = s.phase d := by
    rw [State.setPhase_phase_ne _ ne, same]
  cases moves with
  | call call => exact inl (State.enter_phase_ne call ne)
  | unlockDanglingLocks =>
    unfold State.unlockDanglingLocks
    split
    · exact inl (State.enter_phase_ne _ ne)
    · exact inl rfl
  | lock => exact inl (own _ _ rfl)
  | reenter => exact inl (own _ _ rfl)
  | loop => exact inl (own _ _ rfl)
  | take => exact inl (own _ _ rfl)
  | wait => exact inl (own _ _ rfl)
  | wakeUp => exact inl (own _ _ rfl)
  | relock => exact inl (own _ _ rfl)
  | release _ _ signalled =>
    have free : (s.free c).phase d = s.phase d := own _ _ rfl
    rw [← free]
    exact signalled.phase d
  | releaseNested => exact inl (own _ _ rfl)
  | clear _ signalled =>
    have free : (s.free c).phase d = s.phase d := own _ _ rfl
    rw [← free]
    exact signalled.phase d
  | unlock => exact inl (own _ _ rfl)

theorem State.enter_phase (call : Call) (outside : s.phase c = .outside) :
    (s.enter cpus c call).phase c = .entering call ∨ (s.enter cpus c call).phase c = .outside := by
  unfold State.enter
  split
  · exact inl (State.setPhase_phase _)
  · exact inr outside

section

variable (moves : Step cpus c s done s')

include moves

theorem Step.mutex :
    (s'.globalMutex = s.globalMutex ∧ (s'.phase c).holdsMutex = (s.phase c).holdsMutex) ∨
    (s.globalMutex = none ∧ s'.globalMutex = some c ∧ (s'.phase c).holdsMutex = true) ∨
    ((s.phase c).holdsMutex = true ∧ s'.globalMutex = none ∧ (s'.phase c).holdsMutex = false) := by
  have enters (call : Call) (outside : s.phase c = .outside) :
      ((s.enter cpus c call).phase c).holdsMutex = (s.phase c).holdsMutex := by
    rcases s.enter_phase call outside with phase | phase
    · rw [phase, outside]
      rfl
    · rw [phase, outside]
  have stays (t : State α) (p : Phase) (holds : p.holdsMutex = (s.phase c).holdsMutex) :
      ((t.setPhase c p).phase c).holdsMutex = (s.phase c).holdsMutex := by
    rw [State.setPhase_phase, holds]
  cases moves with
  | call call outside => exact inl ⟨(State.enter_words call).2.2, enters call outside⟩
  | unlockDanglingLocks outside =>
    refine inl ⟨State.unlockDanglingLocks_words.2.2, ?_⟩
    unfold State.unlockDanglingLocks
    split
    · exact enters .clear outside
    · rfl
  | lock _ unlocked =>
    exact inr (inl ⟨unlocked, rfl, by rw [State.setPhase_phase]; rfl⟩)
  | reenter inside => exact inl ⟨rfl, stays _ _ (by rw [inside]; rfl)⟩
  | loop inside => exact inl ⟨rfl, stays _ _ (by rw [inside]; rfl)⟩
  | take testing => exact inl ⟨rfl, stays _ _ (by rw [testing]; rfl)⟩
  | wait testing =>
    exact inr (inr ⟨by rw [testing]; rfl, rfl, by rw [State.setPhase_phase]; rfl⟩)
  | wakeUp waiting => exact inl ⟨rfl, stays _ _ (by rw [waiting]; rfl)⟩
  | relock _ unlocked =>
    exact inr (inl ⟨unlocked, rfl, by rw [State.setPhase_phase]; rfl⟩)
  | release inside _ signalled =>
    exact inl ⟨signalled.words.2.2, by rw [signalled.leaving, inside]; rfl⟩
  | releaseNested inside =>
    exact inl ⟨State.keep_words.2.2, stays _ _ (by rw [inside]; rfl)⟩
  | clear inside signalled =>
    exact inl ⟨signalled.words.2.2, by rw [signalled.leaving, inside]; rfl⟩
  | unlock leaving =>
    exact inr (inr ⟨by rw [leaving]; rfl, rfl, by rw [State.setPhase_phase]; rfl⟩)

theorem Step.inCall {call : Call}
    (now : s'.phase c = .entering call ∨ s'.phase c = .inside call) (ne : call ≠ .acquire) :
    s'.lockingCpuId = s.lockingCpuId ∧
      (s.lockingCpuId = some c ∨ s.phase c = .entering call ∨ s.phase c = .inside call) := by
  have moved {t : State α} {p : Phase} (phase : t.phase c = p)
      (now : t.phase c = .entering call ∨ t.phase c = .inside call) :
      p = .entering call ∨ p = .inside call := by
    rwa [phase] at now
  cases moves with
  | call call outside byOwner =>
    refine ⟨(State.enter_words call).1, ?_⟩
    rcases s.enter_phase call outside with phase | phase
    · obtain entering | inside := moved phase now
      · rw [Phase.entering.inj entering] at byOwner
        exact inl (byOwner ne)
      · cases inside
    · obtain entering | inside := moved phase now
      · cases entering
      · cases inside
  | unlockDanglingLocks outside =>
    refine ⟨State.unlockDanglingLocks_words.1, ?_⟩
    unfold State.unlockDanglingLocks at now
    split at now
    next own => exact inl own
    next => exact inr now
  | @lock call' entering =>
    refine ⟨rfl, inr ?_⟩
    obtain same | same := moved (State.setPhase_phase _) now
    · cases same
    · rw [Phase.inside.inj same] at entering
      exact inl entering
  | reenter => exact absurd (moved (State.setPhase_phase _) now) (by simp)
  | loop => exact absurd (moved (State.setPhase_phase _) now) (by simp)
  | take => exact absurd (moved (State.setPhase_phase _) now) (by simp)
  | wait => exact absurd (moved (State.setPhase_phase _) now) (by simp)
  | wakeUp => exact absurd (moved (State.setPhase_phase _) now) (by simp)
  | relock => exact absurd (moved (State.setPhase_phase _) now) (by simp)
  | release _ _ signalled => exact absurd (moved signalled.leaving now) (by simp)
  | releaseNested => exact absurd (moved (State.setPhase_phase _) now) (by simp)
  | clear _ signalled => exact absurd (moved signalled.leaving now) (by simp)
  | unlock => exact absurd (moved (State.setPhase_phase _) now) (by simp)

theorem Step.waits (waiting : s'.phase c = .waiting) : s'.lockingCpuId ≠ none := by
  have moved {t : State α} {p : Phase} (phase : t.phase c = p) (now : t.phase c = .waiting) :
      p = .waiting := by
    rwa [phase] at now
  cases moves with
  | call call outside =>
    rcases s.enter_phase call outside with phase | phase
    · cases moved phase waiting
    · cases moved phase waiting
  | unlockDanglingLocks outside =>
    unfold State.unlockDanglingLocks at waiting
    split at waiting
    · rcases @State.enter_phase _ _ _ cpus _ .clear outside with phase | phase
      · cases moved phase waiting
      · cases moved phase waiting
    · rw [outside] at waiting
      cases waiting
  | lock => cases moved (State.setPhase_phase _) waiting
  | reenter => cases moved (State.setPhase_phase _) waiting
  | loop => cases moved (State.setPhase_phase _) waiting
  | take => cases moved (State.setPhase_phase _) waiting
  | wait _ owned => exact owned
  | wakeUp => cases moved (State.setPhase_phase _) waiting
  | relock => cases moved (State.setPhase_phase _) waiting
  | release _ _ signalled => cases moved signalled.leaving waiting
  | releaseNested => cases moved (State.setPhase_phase _) waiting
  | clear _ signalled => cases moved signalled.leaving waiting
  | unlock => cases moved (State.setPhase_phase _) waiting

theorem Step.wakes (owned : s.lockingCpuId ≠ none)
    (free : s'.lockingCpuId = none) {w : α} (waiting : s'.phase w = .waiting) :
    ∃ v, s'.phase v = .woken := by
  have signal {s' : State α} (signalled : (s.free c).Signalled s') (waiting : s'.phase w = .waiting) :
      ∃ v, s'.phase v = .woken := by
    rcases signalled with ⟨v, _, rfl⟩ | ⟨nobody, rfl⟩
    · exact ⟨v, State.setPhase_phase _⟩
    · exact absurd waiting (nobody w)
  cases moves with
  | call call => exact absurd free (by rw [(State.enter_words call).1]; exact owned)
  | unlockDanglingLocks =>
    exact absurd free (by rw [State.unlockDanglingLocks_words.1]; exact owned)
  | lock => exact absurd free owned
  | reenter => cases free
  | loop => exact absurd free owned
  | take => cases free
  | wait => exact absurd free owned
  | wakeUp => exact absurd free owned
  | relock => exact absurd free owned
  | release _ _ signalled => exact signal signalled waiting
  | releaseNested => exact absurd free (by rw [State.keep_words.1]; exact owned)
  | clear _ signalled => exact signal signalled waiting
  | unlock => exact absurd free owned

theorem Step.awake (free : s'.lockingCpuId = none)
    (unowned : s.lockingCpuId = none) (byOwner : ∀ call, s.phase c = .inside call → call = .acquire)
    {v : α} (awake : s.phase v = .woken ∨ s.phase v = .testing) :
    s'.phase v = .woken ∨ s'.phase v = .testing := by
  by_cases same : v = c
  · subst same
    cases moves with
    | call call outside => simp [outside] at awake
    | unlockDanglingLocks outside => simp [outside] at awake
    | lock entering => simp [entering] at awake
    | reenter => cases free
    | loop => exact inr (State.setPhase_phase _)
    | take => cases free
    | wait _ owned => exact absurd unowned owned
    | wakeUp => exact inl (State.setPhase_phase _)
    | relock => exact inr (State.setPhase_phase _)
    | release inside => cases byOwner _ inside
    | releaseNested inside => cases byOwner _ inside
    | clear inside => cases byOwner _ inside
    | unlock leaving => simp [leaving] at awake
  · rcases moves.phase_ne same with phase | ⟨_, woken⟩
    · rw [phase]
      exact awake
    · exact inl woken

end

/-! ### Invariant -/

/-- What the words of the lock and the phases say in every state of a run. -/
structure Guarded (trace : List (Completion α)) (s : State α) : Prop where
  open_eq : ∀ c, openAcquires trace c = if s.lockingCpuId = some c then s.entriesCount else 0
  positive : 0 < s.entriesCount ↔ s.lockingCpuId ≠ none
  mutex : ∀ c, s.globalMutex = some c ↔ (s.phase c).holdsMutex
  byOwner : ∀ c call, s.phase c = .entering call ∨ s.phase c = .inside call → call ≠ .acquire →
    s.lockingCpuId = some c
  awake : s.lockingCpuId = none → (∃ w, s.phase w = .waiting) →
    ∃ w, s.phase w = .woken ∨ s.phase w = .testing

variable {trace : List (Completion α)}

theorem guarded_initial : Guarded ([] : List (Completion α)) State.initial := by
  refine ⟨fun _ => rfl, ?_, ?_, ?_, ?_⟩
  · simp [State.initial]
  · intro c
    simp [State.initial, Phase.holdsMutex]
  · intro c call inCall
    simp [State.initial] at inCall
  · rintro _ ⟨w, waiting⟩
    cases waiting

section

variable (guarded : Guarded trace s)

include guarded

theorem Guarded.entriesCount_lt (countable : Countable trace) : s.entriesCount < 2 ^ 32 := by
  cases owner : s.lockingCpuId with
  | none =>
    have zero := guarded.positive.not.mpr (not_not.mpr owner)
    omega
  | some c =>
    have bound := countable trace (prefix_refl _) c
    rw [guarded.open_eq, if_pos owner] at bound
    exact bound

theorem Guarded.afterRelease_eq (countable : Countable trace)
    (owned : s.lockingCpuId ≠ none) : s.afterRelease = s.entriesCount - 1 := by
  have bound := guarded.entriesCount_lt countable
  have positive := guarded.positive.mpr owned
  unfold State.afterRelease
  omega

theorem Guarded.step_open (countable : Countable (trace ++ done.toList))
    (moves : Step cpus c s done s') :
    (∀ d, openAcquires (trace ++ done.toList) d =
      if s'.lockingCpuId = some d then s'.entriesCount else 0) ∧
    (0 < s'.entriesCount ↔ s'.lockingCpuId ≠ none) := by
  have before := countable.of_prefix (prefix_append trace _)
  have owned (call : Call) (inside : s.phase c = .inside call) (ne : call ≠ .acquire) :=
    guarded.byOwner c call (inr inside) ne
  -- what a section of `c` changes is the count of `c`
  have other (e : Completion α) (own : e.cpu = c) (d : α) (ne : d ≠ c) :
      openAcquires (trace ++ [e]) d = if s.lockingCpuId = some d then s.entriesCount else 0 := by
    rw [openAcquires_concat, openAfter_of_ne e (by rw [own]; exact Ne.symm ne), guarded.open_eq]
  rcases moves.words with ⟨rfl, owner, count⟩ | ⟨rfl, free, owner, count⟩ |
    ⟨rfl, inside, nested, owner, count⟩ | ⟨section_, owner, count⟩
  · rw [owner, count]
    simp only [toList_none, append_nil]
    exact ⟨guarded.open_eq, guarded.positive⟩
  · have bound := countable (trace ++ [.acquired c]) (prefix_refl _) c
    have own : openAcquires (trace ++ [.acquired c]) c = s.entriesCount + 1 := by
      rw [openAcquires_concat, guarded.open_eq]
      rcases free with mine | unowned
      · simp [openAfter, mine]
      · have zero := guarded.positive.not.mpr (not_not.mpr unowned)
        simp only [openAfter, unowned, if_true, reduceCtorEq, if_false]
        omega
    rw [own] at bound
    rw [owner, count, Nat.mod_eq_of_lt bound]
    refine ⟨fun d => ?_, by simp⟩
    by_cases same : d = c
    · rw [same, if_pos rfl]
      exact own
    · rw [if_neg (by simpa using Ne.symm same)]
      rw [show (some (Completion.acquired c)).toList = [.acquired c] from rfl, other _ rfl d same]
      rcases free with mine | unowned
      · rw [mine, if_neg (by simpa using Ne.symm same)]
      · rw [unowned, if_neg (by simp)]
  · have mine := owned _ inside (by decide)
    have less := guarded.afterRelease_eq before (by rw [mine]; simp)
    rw [owner, count, mine]
    refine ⟨fun d => ?_, iff_of_true (Nat.pos_of_ne_zero nested) (some_ne_none c)⟩
    by_cases same : d = c
    · rw [same, if_pos rfl, less]
      rw [show (some (Completion.released c)).toList = [.released c] from rfl, openAcquires_concat,
        guarded.open_eq, mine]
      simp [openAfter]
    · rw [if_neg (by simpa using Ne.symm same)]
      rw [show (some (Completion.released c)).toList = [.released c] from rfl, other _ rfl d same,
        mine, if_neg (by simpa using Ne.symm same)]
  · rw [owner, count]
    refine ⟨fun d => ?_, by simp⟩
    simp only [reduceCtorEq, if_false]
    rcases section_ with ⟨rfl, inside, last⟩ | ⟨rfl, inside⟩
    · have mine := owned _ inside (by decide)
      have less := guarded.afterRelease_eq before (by rw [mine]; simp)
      rw [show (some (Completion.released c)).toList = [.released c] from rfl]
      by_cases same : d = c
      · rw [same, openAcquires_concat, guarded.open_eq, mine]
        simp only [openAfter, if_true]
        omega
      · rw [other _ rfl d same, mine, if_neg (by simpa using Ne.symm same)]
    · have mine := owned _ inside (by decide)
      rw [show (some (Completion.cleared c)).toList = [.cleared c] from rfl]
      by_cases same : d = c
      · rw [same, openAcquires_concat]
        simp [openAfter]
      · rw [other _ rfl d same, mine, if_neg (by simpa using Ne.symm same)]

theorem Guarded.step_mutex (moves : Step cpus c s done s') (d : α) :
    s'.globalMutex = some d ↔ (s'.phase d).holdsMutex := by
  have mine := guarded.mutex c
  by_cases same : d = c
  · rw [same]
    rcases moves.mutex with ⟨mutex, phase⟩ | ⟨_, mutex, phase⟩ | ⟨_, mutex, phase⟩
    · rw [mutex, phase]
      exact mine
    · rw [mutex, phase]
      simp
    · rw [mutex, phase]
      simp
  · have phase : (s'.phase d).holdsMutex = (s.phase d).holdsMutex := by
      rcases moves.phase_ne same with phase | ⟨waiting, woken⟩
      · rw [phase]
      · rw [waiting, woken]
        rfl
    rw [phase, ← guarded.mutex d]
    rcases moves.mutex with ⟨mutex, _⟩ | ⟨before, mutex, _⟩ | ⟨holds, mutex, _⟩
    · rw [mutex]
    · rw [mutex, before]
      simpa using Ne.symm same
    · rw [mutex, mine.mpr holds]
      simpa using Ne.symm same

theorem Guarded.step_byOwner (moves : Step cpus c s done s') (d : α)
    (call : Call) (inCall : s'.phase d = .entering call ∨ s'.phase d = .inside call)
    (ne : call ≠ .acquire) : s'.lockingCpuId = some d := by
  by_cases same : d = c
  · subst same
    obtain ⟨owner, own | before⟩ := moves.inCall inCall ne
    · rw [owner, own]
    · rw [owner, guarded.byOwner d call before ne]
  · have before : s.phase d = .entering call ∨ s.phase d = .inside call := by
      rcases moves.phase_ne same with phase | ⟨_, woken⟩
      · rwa [phase] at inCall
      · simp [woken] at inCall
    have owner := guarded.byOwner d call before ne
    -- the lock does not change hands while another CPU owns it
    rcases moves.words with ⟨_, stays, _⟩ | ⟨_, free, _⟩ | ⟨_, _, _, stays, _⟩ |
      ⟨⟨_, inside, _⟩ | ⟨_, inside⟩, _⟩
    · rw [stays, owner]
    · rw [owner] at free
      simp [same] at free
    · rw [stays, owner]
    · have other := guarded.byOwner c _ (inr inside) (by decide)
      rw [owner] at other
      exact absurd (some.inj other) same
    · have other := guarded.byOwner c _ (inr inside) (by decide)
      rw [owner] at other
      exact absurd (some.inj other) same

theorem Guarded.step_awake (moves : Step cpus c s done s')
    (free : s'.lockingCpuId = none) {w : α} (waiting : s'.phase w = .waiting) :
    ∃ v, s'.phase v = .woken ∨ s'.phase v = .testing := by
  by_cases unowned : s.lockingCpuId = none
  · have before : s.phase w = .waiting := by
      by_cases same : w = c
      · rw [same] at waiting
        exact absurd free (moves.waits waiting)
      · rcases moves.phase_ne same with phase | ⟨_, woken⟩
        · rwa [phase] at waiting
        · rw [woken] at waiting
          cases waiting
    obtain ⟨v, awake⟩ := guarded.awake unowned ⟨w, before⟩
    refine ⟨v, moves.awake free unowned (fun call inside => ?_) awake⟩
    by_contra ne
    have owner := guarded.byOwner c call (inr inside) ne
    rw [unowned] at owner
    cases owner
  · obtain ⟨v, woken⟩ := moves.wakes unowned free waiting
    exact ⟨v, inl woken⟩

theorem Guarded.step (countable : Countable (trace ++ done.toList))
    (moves : Step cpus c s done s') : Guarded (trace ++ done.toList) s' where
  open_eq := (guarded.step_open countable moves).1
  positive := (guarded.step_open countable moves).2
  mutex := guarded.step_mutex moves
  byOwner := guarded.step_byOwner moves
  awake free := fun ⟨_, waiting⟩ => guarded.step_awake moves free waiting

end

theorem guarded_of_run (run : Run cpus trace s) (countable : Countable trace) :
    Guarded trace s := by
  induction run with
  | start => exact guarded_initial
  | step c _ moves guarded =>
    exact (guarded (countable.of_prefix (prefix_append _ _))).step countable moves

/-! ### Steps of one CPU -/

inductive OwnSteps (cpus : Nat) (c : α) : State α → List (Completion α) → State α → Prop
  | refl {s : State α} : OwnSteps cpus c s [] s
  | step {trace : List (Completion α)} {s s' s'' : State α} {done : Option (Completion α)}
      (steps : OwnSteps cpus c s trace s') (moves : Step cpus c s' done s'') :
      OwnSteps cpus c s (trace ++ done.toList) s''

theorem Step.own (moves : Step cpus c s done s') : OwnSteps cpus c s done.toList s' :=
  OwnSteps.refl.step moves

theorem Run.ownSteps (run : Run cpus trace s) {more : List (Completion α)}
    (steps : OwnSteps cpus c s more s') : Run cpus (trace ++ more) s' := by
  induction steps with
  | refl => simpa using run
  | step _ moves before =>
    rw [← append_assoc]
    exact (before run).step c moves

theorem takes_of_testing (testing : s.phase c = .testing) (unowned : s.lockingCpuId = none) :
    ∃ s', OwnSteps cpus c s [.acquired c] s' ∧ s'.lockingCpuId = some c :=
  ⟨s.countEntry c, (Step.take testing unowned).own, rfl⟩

theorem takes_of_woken (woken : s.phase c = .woken) (unlocked : s.globalMutex = none)
    (unowned : s.lockingCpuId = none) :
    ∃ s', OwnSteps cpus c s [.acquired c] s' ∧ s'.lockingCpuId = some c := by
  have locked : OwnSteps cpus c s [] _ := (Step.relock woken unlocked).own
  exact ⟨_, locked.step (.take (State.setPhase_phase _) unowned), rfl⟩

theorem unlocks_of_leaving (leaving : s.phase c = .leaving) :
    ∃ s', OwnSteps cpus c s [] s' ∧ s'.globalMutex = none ∧ s'.phase c = .outside ∧
      s'.lockingCpuId = s.lockingCpuId ∧ s'.entriesCount = s.entriesCount :=
  ⟨_, (Step.unlock leaving).own, rfl, State.setPhase_phase _, rfl, rfl⟩

theorem exists_signalled (s : State α) : ∃ s', s.Signalled s' := by
  by_cases waits : ∃ w, s.phase w = .waiting
  · obtain ⟨w, waiting⟩ := waits
    exact ⟨_, inl ⟨w, waiting, rfl⟩⟩
  · push Not at waits
    exact ⟨s, inr ⟨waits, rfl⟩⟩

theorem OwnSteps.trans {s'' : State α} {more : List (Completion α)}
    (steps : OwnSteps cpus c s trace s') (further : OwnSteps cpus c s' more s'') :
    OwnSteps cpus c s (trace ++ more) s'' := by
  induction further with
  | refl => simpa using steps
  | step _ moves before =>
    rw [← append_assoc]
    exact (before steps).step moves

theorem unlocks_of_holds (holds : (s.phase c).holdsMutex = true) :
    ∃ more s', OwnSteps cpus c s more s' ∧ s'.globalMutex = none := by
  have leave {more : List (Completion α)} {t : State α} (steps : OwnSteps cpus c s more t)
      (leaving : t.phase c = .leaving) :
      ∃ more s', OwnSteps cpus c s more s' ∧ s'.globalMutex = none := by
    obtain ⟨s', last, unlocked, _⟩ := @unlocks_of_leaving _ _ _ cpus t leaving
    exact ⟨_, s', steps.trans last, unlocked⟩
  have test {t : State α} (steps : OwnSteps cpus c s [] t) (testing : t.phase c = .testing) :
      ∃ more s', OwnSteps cpus c s more s' ∧ s'.globalMutex = none := by
    by_cases unowned : t.lockingCpuId = none
    · exact leave (steps.step (.take testing unowned)) (State.setPhase_phase _)
    · exact ⟨_, _, steps.step (.wait testing unowned), rfl⟩
  cases phase : s.phase c with
  | inside call =>
    cases call with
    | acquire =>
      by_cases own : s.lockingCpuId = some c
      · exact leave (Step.reenter phase own).own (State.setPhase_phase _)
      · exact test (Step.loop phase own).own (State.setPhase_phase _)
    | release =>
      by_cases last : s.afterRelease = 0
      · obtain ⟨s', signalled⟩ := exists_signalled (s.free c)
        exact leave (Step.release phase last signalled).own signalled.leaving
      · exact leave (Step.releaseNested phase last).own (State.setPhase_phase _)
    | clear =>
      obtain ⟨s', signalled⟩ := exists_signalled (s.free c)
      exact leave (Step.clear phase signalled).own signalled.leaving
  | testing => exact test OwnSteps.refl phase
  | leaving => exact leave OwnSteps.refl phase
  | outside => simp [phase, Phase.holdsMutex] at holds
  | entering => simp [phase, Phase.holdsMutex] at holds
  | waiting => simp [phase, Phase.holdsMutex] at holds
  | woken => simp [phase, Phase.holdsMutex] at holds

/-! ### Runs of one CPU -/

theorem acquire_alone (multiple : areMultipleCpusRegistered cpus = true)
    (outside : s.phase c = .outside) (unlocked : s.globalMutex = none)
    (mine : s.lockingCpuId = some c ∨ s.lockingCpuId = none) :
    ∃ s', OwnSteps cpus c s [.acquired c] s' ∧ s'.phase c = .outside ∧ s'.globalMutex = none ∧
      s'.lockingCpuId = some c ∧ s'.entriesCount = (s.entriesCount + 1) % 2 ^ 32 := by
  have leave {t : State α} (steps : OwnSteps cpus c s [] t)
      (moves : Step cpus c t (some (.acquired c)) (t.countEntry c))
      (same : t.entriesCount = s.entriesCount) :
      ∃ s', OwnSteps cpus c s [.acquired c] s' ∧ s'.phase c = .outside ∧ s'.globalMutex = none ∧
        s'.lockingCpuId = some c ∧ s'.entriesCount = (s.entriesCount + 1) % 2 ^ 32 := by
    obtain ⟨s', last, free, phase, owner, count⟩ :=
      @unlocks_of_leaving _ _ _ cpus (t.countEntry c) (State.setPhase_phase _)
    rw [← same]
    exact ⟨s', (steps.step moves).trans last, phase, free, owner, count⟩
  have enter : s.enter cpus c .acquire = s.setPhase c (.entering .acquire) := if_pos multiple
  have first := (@Step.call _ _ cpus c s .acquire outside (absurd rfl)).own
  rw [enter] at first
  have second := first.step (.lock (State.setPhase_phase _) unlocked)
  rcases mine with own | unowned
  · exact leave second (.reenter (State.setPhase_phase _) own) rfl
  · have foreign : s.lockingCpuId ≠ some c := by simp [unowned]
    have third := second.step (.loop (State.setPhase_phase _) foreign)
    exact leave third (.take (State.setPhase_phase _) unowned) rfl

theorem acquires_run (multiple : areMultipleCpusRegistered cpus = true) (c : α) (n : Nat) :
    ∃ s : State α, Run cpus (replicate n (.acquired c)) s ∧ s.phase c = .outside ∧
      s.globalMutex = none ∧ (n = 0 ∧ s.lockingCpuId = none ∨ s.lockingCpuId = some c) ∧
      s.entriesCount = n % 2 ^ 32 := by
  induction n with
  | zero => exact ⟨.initial, .start, rfl, rfl, inl ⟨rfl, rfl⟩, rfl⟩
  | succ n before =>
    obtain ⟨s, run, outside, unlocked, mine, count⟩ := before
    obtain ⟨s', steps, outside', unlocked', owner, count'⟩ :=
      acquire_alone multiple outside unlocked (by tauto)
    refine ⟨s', ?_, outside', unlocked', inr owner, ?_⟩
    · rw [replicate_succ']
      exact run.ownSteps steps
    · rw [count', count]
      omega

/-! ### Every run -/

/-- The CPU has been woken, and takes the lock unless another CPU has the mutex. -/
def CanTake (cpus : Nat) (s : State α) (c : α) : Prop :=
  (s.phase c = .woken ∨ s.phase c = .testing) ∧ (s.globalMutex = none ∨ s.globalMutex = some c →
      ∃ s', OwnSteps cpus c s [.acquired c] s' ∧ s'.lockingCpuId = some c)

structure Monitor (cpus : Nat) (trace : List (Completion α)) (s : State α) : Prop where
  exclusive : ∀ c d, 0 < openAcquires trace c → 0 < openAcquires trace d → c = d
  owner : ∀ c, s.lockingCpuId = some c ↔ 0 < openAcquires trace c
  count : ∀ c, s.lockingCpuId = some c → s.entriesCount = openAcquires trace c
  positive : 0 < s.entriesCount ↔ ∃ c, s.lockingCpuId = some c
  blocked : ∀ earlier c later, trace = earlier ++ .acquired c :: later →
    ∀ d, 0 < openAcquires earlier d → d = c
  wakeUp : s.lockingCpuId = none → (∃ w, s.phase w = .waiting) → ∃ c, CanTake cpus s c
  unlocks : ∀ d, s.globalMutex = some d →
    ∃ more s', OwnSteps cpus d s more s' ∧ s'.globalMutex = none

theorem Guarded.owner_iff (guarded : Guarded trace s) :
    s.lockingCpuId = some c ↔ 0 < openAcquires trace c := by
  rw [guarded.open_eq]
  constructor
  · intro owner
    rw [if_pos owner]
    exact guarded.positive.mpr (by rw [owner]; simp)
  · intro positive
    by_contra foreign
    rw [if_neg foreign] at positive
    omega

theorem Guarded.acquire_owner (guarded : Guarded trace s)
    (moves : Step cpus c s (some (.acquired d)) s') {e : α} (owned : 0 < openAcquires trace e) :
    e = d := by
  have owner := guarded.owner_iff.mpr owned
  rcases moves.words with ⟨absent, _⟩ | ⟨same, free, _⟩ | ⟨other, _⟩ |
    ⟨⟨other, _⟩ | ⟨other, _⟩, _⟩
  · cases absent
  · cases same
    rw [owner] at free
    simpa using free
  · cases other
  · cases other
  · cases other

theorem Run.split (run : Run cpus trace s) {earlier later : List (Completion α)}
    {e : Completion α} (at_ : trace = earlier ++ e :: later) :
    ∃ c t t', Run cpus earlier t ∧ Step cpus c t (some e) t' := by
  induction run generalizing later with
  | start => simp at at_
  | @step trace' s s' done c run moves before =>
    cases done with
    | none =>
      simp only [toList_none, append_nil] at at_
      exact before at_
    | some last =>
      cases later using reverseRecOn with
      | nil =>
        obtain ⟨same, lasts⟩ := append_inj' at_ rfl
        cases lasts
        rw [← same]
        exact ⟨c, s, s', run, moves⟩
      | append_singleton later' final =>
        rw [← cons_append, ← append_assoc] at at_
        exact before (append_inj' at_ rfl).1

/-- The lock is a re-entrant monitor as long as the open acquires can be counted in 32 bits. -/
theorem monitor_of_run (run : Run cpus trace s) (countable : Countable trace) :
    Monitor cpus trace s := by
  have guarded := guarded_of_run run countable
  refine ⟨?_, fun c => guarded.owner_iff, ?_, ?_, ?_, ?_, ?_⟩
  · intro c d first second
    have owner := guarded.owner_iff.mpr first
    rw [guarded.owner_iff.mpr second] at owner
    exact (some.inj owner).symm
  · intro c owner
    rw [guarded.open_eq, if_pos owner]
  · rw [guarded.positive, ne_none_iff_exists']
  · intro earlier c later at_ d owned
    obtain ⟨mover, t, t', before, moves⟩ := run.split at_
    have first := countable.of_prefix ⟨_, at_.symm⟩
    exact (guarded_of_run before first).acquire_owner moves owned
  · intro unowned waits
    obtain ⟨c, awake⟩ := guarded.awake unowned waits
    refine ⟨c, awake, fun mutex => ?_⟩
    rcases awake with woken | testing
    · have unlocked : s.globalMutex = none := by
        rcases mutex with unlocked | mine
        · exact unlocked
        · have holds := (guarded.mutex c).mp mine
          simp [woken, Phase.holdsMutex] at holds
      exact takes_of_woken woken unlocked unowned
    · exact takes_of_testing testing unowned
  · intro d mutex
    exact unlocks_of_holds ((guarded.mutex d).mp mutex)

/-- One CPU holds the lock twice, and the other one waits for it. -/
theorem monitor_of_run_nested :
    ∃ s : State Bool, Run 2 (replicate 2 (.acquired true)) s ∧ s.entriesCount = 2 ∧
      s.phase false = .waiting ∧ Monitor 2 (replicate 2 (.acquired true)) s := by
  -- the first acquire finds the lock free
  have first : Run 2 ([] : List (Completion Bool)) _ := Run.start.step true (.call .acquire rfl nofun)
  have first := first.step true (.lock (State.setPhase_phase _) rfl)
  have first := first.step true (.loop (State.setPhase_phase _) nofun)
  have first := first.step true (.take (State.setPhase_phase _) rfl)
  have first := first.step true (.unlock (State.setPhase_phase _))
  -- the second one is counted
  have second := first.step true (.call .acquire (State.setPhase_phase _) nofun)
  have second := second.step true (.lock (State.setPhase_phase _) rfl)
  have second := second.step true (.reenter (State.setPhase_phase _) rfl)
  have second := second.step true (.unlock (State.setPhase_phase _))
  -- the other CPU finds the lock taken
  have third := second.step false (.call .acquire rfl nofun)
  have third := third.step false (.lock (State.setPhase_phase _) rfl)
  have third := third.step false (.loop (State.setPhase_phase _) nofun)
  have third := third.step false (.wait (State.setPhase_phase _) nofun)
  exact ⟨_, third, rfl, State.setPhase_phase _,
    monitor_of_run third (Countable.of_length (by decide))⟩

/-- After 2 ^ 32 acquires the counter is 0 and the lock is owned. -/
theorem entriesCount_wraps : ¬∀ (trace : List (Completion Bool)) (s : State Bool), Run 2 trace s →
      (0 < s.entriesCount ↔ ∃ c, s.lockingCpuId = some c) := by
  intro positive
  obtain ⟨s, run, _, _, mine, count⟩ := @acquires_run Bool _ 2 (by decide) true (2 ^ 32)
  have owner : s.lockingCpuId = some true := by
    rcases mine with ⟨zero, _⟩ | owner
    · omega
    · exact owner
  have some_ := (positive _ s run).mpr ⟨true, owner⟩
  rw [count, Nat.mod_self] at some_
  exact Nat.lt_irrefl 0 some_

end Tlib.Atomic.GlobalLock
