import Tlib.Atomic.StoreTable

/-!
Contract: which core holds which entry of the store table.

Owns: what each phase of the generated code holds and has recorded, and that every step keeps this.
-/

namespace Tlib.Atomic

open Tlib.Library.BitMasks Nat Option

namespace StoreTable

variable {T : StoreTable}

theorem contentBits_le : T.contentBits ≤ 63 := by
  have := T.bits_pos
  unfold contentBits
  omega

theorem le_contentBits : 3 ≤ T.contentBits := by
  have := T.bits_le
  unfold contentBits
  omega

theorem eight_mul_entriesCount : 8 * T.hstTableEntriesCount = 2 ^ T.contentBits := by
  have divides : 2 ^ 3 ∣ 2 ^ T.contentBits := Nat.pow_dvd_pow 2 le_contentBits
  exact Nat.mul_div_cancel' divides

theorem entriesCount_pos : 0 < T.hstTableEntriesCount := by
  have := Nat.two_pow_pos T.contentBits
  rw [← eight_mul_entriesCount] at this
  omega

theorem interiorMask_eq :
    complement ((2 ^ T.storeTableBits - 1) <<< T.contentBits) = 2 ^ T.contentBits - 1 := by
  have every : ∀ bits < 62, 0 < bits →
      complement ((2 ^ bits - 1) <<< (64 - bits)) = 2 ^ (64 - bits) - 1 := by decide
  exact every T.storeTableBits (by have := T.bits_le; omega) T.bits_pos

theorem and_hstGuestAddressMask (guestAddress : Nat) : guestAddress &&& T.hstGuestAddressMask =
      8 * (guestAddress / 8 % T.hstTableEntriesCount) := by
  have small : guestAddress % 2 ^ T.contentBits < 2 ^ 64 :=
    (mod_lt _ (Nat.two_pow_pos _)).trans_le
      (Nat.pow_le_pow_right (by decide) (by have := contentBits_le (T := T); omega))
  have alignment : complement 7 = 2 ^ 64 - 2 ^ 3 := by decide
  unfold hstGuestAddressMask
  dsimp only
  rw [interiorMask_eq, ← Nat.and_assoc, and_two_pow_sub_one_eq_mod, alignment,
    and_highMask small (by decide), ← eight_mul_entriesCount]
  change guestAddress % (8 * T.hstTableEntriesCount) / 8 * 8 = _
  rw [mod_mul_right_div_self, Nat.mul_comm]

theorem addressHash_eq (guestAddress : Nat) : T.addressHash guestAddress =
      T.storeTable + 8 * (guestAddress / 8 % T.hstTableEntriesCount) := by
  have inside : 8 * (guestAddress / 8 % T.hstTableEntriesCount) < 2 ^ T.contentBits := by
    have := mod_lt (guestAddress / 8) (entriesCount_pos (T := T))
    have := eight_mul_entriesCount (T := T)
    omega
  obtain ⟨prefix', eq⟩ : 2 ^ T.contentBits ∣ T.storeTable := dvd_of_mod_eq_zero T.aligned
  unfold addressHash
  rw [and_hstGuestAddressMask, Nat.or_comm, eq, two_pow_add_eq_or_of_lt inside]

theorem addressHash_eq_iff (a b : Nat) : T.addressHash a = T.addressHash b ↔
      a / 8 % T.hstTableEntriesCount = b / 8 % T.hstTableEntriesCount := by
  rw [addressHash_eq, addressHash_eq]
  omega

theorem entriesCount_dvd : T.hstTableEntriesCount ∣ 2 ^ 61 := by
  have divides : 2 ^ T.contentBits ∣ 2 ^ 64 :=
    Nat.pow_dvd_pow 2 (by have := contentBits_le (T := T); omega)
  rw [← eight_mul_entriesCount] at divides
  exact Nat.dvd_of_mul_dvd_mul_left (by decide : 0 < 8) divides

theorem addressHash_mod (a : Nat) : T.addressHash (a % 2 ^ 64) = T.addressHash a := by
  rw [addressHash_eq_iff]
  change a % (8 * 2 ^ 61) / 8 % T.hstTableEntriesCount = _
  rw [mod_mul_right_div_self, mod_mod_of_dvd _ entriesCount_dvd]

theorem pair_places (low : Nat) : (low + 8) % 2 ^ 64 / 8 % T.hstTableEntriesCount =
      (low / 8 % T.hstTableEntriesCount + 1) % T.hstTableEntriesCount := by
  change (low + 8) % (8 * 2 ^ 61) / 8 % T.hstTableEntriesCount = _
  rw [mod_mul_right_div_self, mod_mod_of_dvd _ entriesCount_dvd,
    add_div_right low (by decide), mod_add_mod]

end StoreTable

namespace LockPhase

def address : LockPhase → Bool → Nat
  | outside, _ => 0
  | swapping request _, high => request.address high
  | recording request _, high => request.address high
  | inside request, high => request.address high
  | storing request _, high => request.address high
  | erasing request _, high => request.address high
  | aborted request _, high => request.address high

def holds : LockPhase → Bool → Bool
  | outside, _ => false
  | swapping _ second, high => second && !high
  | recording _ second, high => second || !high
  | inside request, high => request.isPair || !high
  | storing request second, high => if high then request.isPair else !second
  | erasing request second, high => if high then request.isPair && !second else false
  | aborted _ second, high => second && !high

def records : LockPhase → Bool → Bool
  | outside, _ => false
  | swapping _ second, high => second && !high
  | recording _ second, high => second && !high
  | inside request, high => request.isPair || !high
  | storing request second, high => if high then request.isPair else !second
  | erasing request second, high => if high then request.isPair else !second
  | aborted _ second, high => second && !high

def touches (phase : LockPhase) (high : Bool) : Bool := phase.holds high || phase.records high

def Valid (T : StoreTable) : LockPhase → Prop
  | outside => True
  | swapping request second => request.Hashed T ∧ (second = true → request.isPair = true)
  | recording request second => request.Hashed T ∧ (second = true → request.isPair = true)
  | inside request => request.Hashed T
  | storing request second => request.Hashed T ∧ (second = true → request.isPair = true)
  | erasing request second => request.Hashed T ∧ (second = true → request.isPair = true)
  | aborted request second => request.Hashed T ∧ (second = true → request.isPair = true)

end LockPhase

def HoldsEntry (T : StoreTable) (s : LockSystem) (c entry : Nat) : Prop :=
  ∃ high, (s.core c).phase.holds high = true ∧ entry = T.addressHash ((s.core c).phase.address high)

structure CoreAgrees (T : StoreTable) (s : LockSystem) (c : Nat) : Prop where
  valid : (s.core c).phase.Valid T
  lock_iff : ∀ entry, s.lock entry = some c ↔ HoldsEntry T s c entry
  apart : (s.core c).phase.touches false = true → (s.core c).phase.touches true = true →
    T.addressHash ((s.core c).phase.address false) ≠ T.addressHash ((s.core c).phase.address true)
  locked_eq : ∀ high, s.locked c high =
    if (s.core c).phase.records high then (s.core c).phase.address high else 0

section Agree

variable {T : StoreTable} {s s' : LockSystem} {c other : Nat}

namespace LockSystem

@[simp] theorem setCore_core_self (core : LockCore) : (s.setCore c core).core c = core := by
  simp [setCore]

theorem setCore_core_ne (core : LockCore) (ne : other ≠ c) :
    (s.setCore c core).core other = s.core other := by
  simp [setCore, ne]

@[simp] theorem setPhase_phase (phase : LockPhase) : ((s.setPhase c phase).core c).phase = phase := by
  simp [setPhase]

@[simp] theorem setPhase_lock (phase : LockPhase) : (s.setPhase c phase).lock = s.lock := rfl

@[simp] theorem setPhase_locked (phase : LockPhase) (high : Bool) :
    (s.setPhase c phase).locked c high = s.locked c high := by
  simp [setPhase, locked]

@[simp] theorem setLocked_lock (high : Bool) (address : Nat) :
    (s.setLocked c high address).lock = s.lock := rfl

theorem setLocked_locked (high field : Bool) (address : Nat) :
    (s.setLocked c high address).locked c field =
      if field = high then address else s.locked c field := by
  cases high <;> cases field <;> simp [setLocked, locked]

@[simp] theorem setLock_core (entry : Nat) (owner : Option Nat) :
    (s.setLock entry owner).core = s.core := rfl

@[simp] theorem setLock_locked (entry : Nat) (owner : Option Nat) (high : Bool) :
    (s.setLock entry owner).locked c high = s.locked c high := rfl

theorem setLock_lock (entry at' : Nat) (owner : Option Nat) :
    (s.setLock entry owner).lock at' = if at' = entry then owner else s.lock at' := by
  unfold setLock
  dsimp only
  rw [Function.update_apply]

end LockSystem

theorem CoreAgrees.congr (agrees : CoreAgrees T s other) (core : s'.core other = s.core other)
    (lock : ∀ entry, s'.lock entry = some other ↔ s.lock entry = some other) :
    CoreAgrees T s' other := by
  refine ⟨?_, ?_, ?_, ?_⟩
  · rw [core]
    exact agrees.valid
  · intro entry
    rw [lock, agrees.lock_iff]
    unfold HoldsEntry
    rw [core]
  · rw [core]
    exact agrees.apart
  · intro high
    have same : s'.locked other high = s.locked other high := by
      unfold LockSystem.locked
      rw [core]
    rw [same, core]
    exact agrees.locked_eq high

section

variable (agrees : CoreAgrees T s c)

include agrees

theorem CoreAgrees.setPhase {phase : LockPhase} (valid : phase.Valid T)
    (holds : ∀ high, phase.holds high = (s.core c).phase.holds high)
    (records : ∀ high, phase.records high = (s.core c).phase.records high)
    (address : ∀ high, (s.core c).phase.touches high = true →
      phase.address high = (s.core c).phase.address high) :
    CoreAgrees T (s.setPhase c phase) c := by
  have touches : ∀ high, phase.touches high = (s.core c).phase.touches high := by
    intro high
    unfold LockPhase.touches
    rw [holds, records]
  refine ⟨?_, ?_, ?_, ?_⟩
  · rw [LockSystem.setPhase_phase]
    exact valid
  · intro entry
    rw [LockSystem.setPhase_lock, agrees.lock_iff]
    unfold HoldsEntry
    rw [LockSystem.setPhase_phase]
    refine exists_congr fun high => ?_
    rw [holds]
    refine and_congr_right fun held => ?_
    rw [address high (by simp [LockPhase.touches, held])]
  · rw [LockSystem.setPhase_phase, touches, touches]
    intro low high
    rw [address false low, address true high]
    exact agrees.apart low high
  · intro high
    rw [LockSystem.setPhase_phase, LockSystem.setPhase_locked, agrees.locked_eq, records]
    by_cases recorded : (s.core c).phase.records high = true
    · rw [if_pos recorded, if_pos recorded, address high (by simp [LockPhase.touches, recorded])]
    · rw [if_neg recorded, if_neg recorded]

theorem CoreAgrees.swap {request : LockRequest} {high : Bool}
    (phase : (s.core c).phase = .swapping request high)
    (free : s.lock (T.addressHash (request.address high)) = none) :
    CoreAgrees T ((s.setLock (T.addressHash (request.address high)) (some c)).setPhase c
      (.recording request high)) c := by
  have valid := agrees.valid
  have locked := agrees.locked_eq
  have lock := agrees.lock_iff
  unfold HoldsEntry at lock
  rw [phase] at valid locked lock
  have apart : high = true →
      T.addressHash (request.address false) ≠ T.addressHash (request.address true) := by
    intro second same
    have first := (lock (T.addressHash (request.address false))).mpr
      ⟨false, by simp [LockPhase.holds, second], rfl⟩
    rw [second, ← same, first] at free
    cases free
  refine ⟨?_, ?_, ?_, ?_⟩
  · rw [LockSystem.setPhase_phase]
    exact valid
  · intro entry
    unfold HoldsEntry
    rw [LockSystem.setPhase_phase, LockSystem.setPhase_lock, LockSystem.setLock_lock]
    by_cases here : entry = T.addressHash (request.address high)
    · rw [if_pos here]
      refine iff_of_true rfl ⟨high, ?_, here⟩
      cases high <;> rfl
    · rw [if_neg here, lock]
      refine exists_congr fun field => ?_
      cases high <;> cases field <;> simp [LockPhase.holds, LockPhase.address] at here ⊢
      · exact here
      · exact here
  · rw [LockSystem.setPhase_phase]
    intro _ second
    exact apart (by simpa [LockPhase.touches, LockPhase.holds, LockPhase.records] using second)
  · intro field
    rw [LockSystem.setPhase_phase, LockSystem.setPhase_locked, LockSystem.setLock_locked]
    exact locked field

theorem CoreAgrees.setLocked {phase : LockPhase} {high : Bool}
    {address : Nat} (valid : phase.Valid T)
    (holds : ∀ field, phase.holds field = (s.core c).phase.holds field)
    (same : ∀ field, phase.touches field = true →
      phase.address field = (s.core c).phase.address field)
    (records : ∀ field ≠ high, phase.records field = (s.core c).phase.records field)
    (touches : ∀ field, phase.touches field = true → (s.core c).phase.touches field = true)
    (changed : address = if phase.records high then phase.address high else 0) :
    CoreAgrees T ((s.setLocked c high address).setPhase c phase) c := by
  refine ⟨?_, ?_, ?_, ?_⟩
  · rw [LockSystem.setPhase_phase]
    exact valid
  · intro entry
    rw [LockSystem.setPhase_lock, LockSystem.setLocked_lock, agrees.lock_iff]
    unfold HoldsEntry
    rw [LockSystem.setPhase_phase]
    refine exists_congr fun field => ?_
    rw [holds]
    refine and_congr_right fun held => ?_
    rw [same field (by simp [LockPhase.touches, holds, held])]
  · rw [LockSystem.setPhase_phase]
    intro first second
    rw [same false first, same true second]
    exact agrees.apart (touches false first) (touches true second)
  · intro field
    rw [LockSystem.setPhase_phase, LockSystem.setPhase_locked, LockSystem.setLocked_locked]
    by_cases here : field = high
    · rw [if_pos here, here]
      exact changed
    · rw [if_neg here, agrees.locked_eq, ← records field here]
      by_cases recorded : phase.records field = true
      · rw [if_pos recorded, if_pos recorded, same field (by simp [LockPhase.touches, recorded])]
      · rw [if_neg recorded, if_neg recorded]

theorem CoreAgrees.record {request : LockRequest} {high : Bool}
    (phase : (s.core c).phase = .recording request high) :
    CoreAgrees T ((s.setLocked c high (request.address high)).setPhase c
      (request.next high .swapping (.inside request))) c := by
  have valid := agrees.valid
  rw [phase] at valid
  unfold LockRequest.next
  cases high with
  | true =>
    have pair : request.isPair = true := valid.2 rfl
    rw [if_neg (by simp)]
    refine agrees.setLocked valid.1 ?_ ?_ ?_ ?_ ?_
    · intro field
      simp [phase, LockPhase.holds, pair]
    · intro field _
      rw [phase]
      rfl
    · intro field ne
      cases field <;> simp [phase, LockPhase.records] at ne ⊢
    · intro field _
      simp [phase, LockPhase.touches, LockPhase.holds]
    · simp [LockPhase.records, LockPhase.address, pair]
  | false =>
    cases pair : request.isPair with
    | true =>
      refine agrees.setLocked ⟨valid.1, fun _ => pair⟩ ?_ ?_ ?_ ?_ ?_
      · intro field
        simp [phase, LockPhase.holds]
      · intro field _
        rw [phase]
        rfl
      · intro field ne
        cases field <;> simp [phase, LockPhase.records] at ne ⊢
      · intro field _
        cases field <;> simp [phase, LockPhase.touches, LockPhase.holds, LockPhase.records] at *
      · simp [LockPhase.records, LockPhase.address]
    | false =>
      refine agrees.setLocked valid.1 ?_ ?_ ?_ ?_ ?_
      · intro field
        simp [phase, LockPhase.holds, pair]
      · intro field _
        rw [phase]
        rfl
      · intro field ne
        cases field <;> simp [phase, LockPhase.records, pair] at ne ⊢
      · intro field _
        cases field <;> simp [phase, pair, LockPhase.touches, LockPhase.holds,
          LockPhase.records] at *
      · simp [LockPhase.records, LockPhase.address]

theorem CoreAgrees.erase {request : LockRequest} {high : Bool}
    (phase : (s.core c).phase = .erasing request high) :
    CoreAgrees T ((s.setLocked c high 0).setPhase c
      (request.next high .storing .outside)) c := by
  have valid := agrees.valid
  rw [phase] at valid
  unfold LockRequest.next
  cases high with
  | true =>
    rw [if_neg (by simp)]
    refine agrees.setLocked trivial ?_ ?_ ?_ ?_ rfl
    · intro field
      simp [phase, LockPhase.holds]
    · intro field none'
      simp [LockPhase.touches, LockPhase.holds, LockPhase.records] at none'
    · intro field ne
      cases field <;> simp [phase, LockPhase.records] at ne ⊢
    · intro field none'
      simp [LockPhase.touches, LockPhase.holds, LockPhase.records] at none'
  | false =>
    cases pair : request.isPair with
    | true =>
      refine agrees.setLocked ⟨valid.1, fun _ => pair⟩ ?_ ?_ ?_ ?_ ?_
      · intro field
        simp [phase, LockPhase.holds]
      · intro field _
        rw [phase]
        rfl
      · intro field ne
        cases field <;> simp [phase, LockPhase.records] at ne ⊢
      · intro field _
        cases field <;> simp [phase, pair, LockPhase.touches, LockPhase.holds,
          LockPhase.records] at *
      · simp [LockPhase.records]
    | false =>
      refine agrees.setLocked trivial ?_ ?_ ?_ ?_ rfl
      · intro field
        simp [phase, LockPhase.holds, pair]
      · intro field none'
        simp [LockPhase.touches, LockPhase.holds, LockPhase.records] at none'
      · intro field ne
        cases field <;> simp [phase, LockPhase.records, pair] at ne ⊢
      · intro field none'
        simp [LockPhase.touches, LockPhase.holds, LockPhase.records] at none'

theorem CoreAgrees.store {request : LockRequest} {high : Bool}
    (phase : (s.core c).phase = .storing request high) :
    CoreAgrees T ((s.setLock (T.addressHash (request.address high)) none).setPhase c
      (.erasing request high)) c := by
  have valid := agrees.valid
  have locked := agrees.locked_eq
  have lock := agrees.lock_iff
  have apart := agrees.apart
  unfold HoldsEntry at lock
  rw [phase] at valid locked lock apart
  refine ⟨?_, ?_, ?_, ?_⟩
  · rw [LockSystem.setPhase_phase]
    exact valid
  · intro entry
    unfold HoldsEntry
    rw [LockSystem.setPhase_phase, LockSystem.setPhase_lock, LockSystem.setLock_lock]
    by_cases here : entry = T.addressHash (request.address high)
    · rw [if_pos here]
      refine iff_of_false (by simp) ?_
      intro held
      obtain ⟨field, holds, named⟩ := held
      cases high <;> cases field <;> simp [LockPhase.holds] at holds
      refine apart rfl (by simp [LockPhase.touches, LockPhase.holds, holds]) ?_
      rw [here] at named
      exact named
    · rw [if_neg here, lock]
      refine exists_congr fun field => ?_
      cases high <;> cases field <;> simp [LockPhase.holds, LockPhase.address] at here ⊢
      · exact here
      · exact fun _ => here
  · rw [LockSystem.setPhase_phase]
    intro first second
    refine apart ?_ ?_
    · cases high <;> simp [LockPhase.touches, LockPhase.holds, LockPhase.records] at first ⊢
    · cases high <;>
        simpa [LockPhase.touches, LockPhase.holds, LockPhase.records] using second
  · intro field
    rw [LockSystem.setPhase_phase, LockSystem.setPhase_locked, LockSystem.setLock_locked]
    exact locked field

end

/-- Every entry the core holds is recorded, under an address that is not 0. -/
def Recorded (s : LockSystem) (c : Nat) : Prop :=
  ∀ high, (s.core c).phase.holds high = true →
    (s.core c).phase.records high = true ∧ (s.core c).phase.address high ≠ 0

def FaultsRecorded (s : LockSystem) (c : Nat) (e : LockEvent) : Prop := e = .fault → Recorded s c

theorem CoreAgrees.advance (agrees : CoreAgrees T s c) (done : advance T s c = some s') :
    CoreAgrees T s' c := by
  have valid := agrees.valid
  unfold Atomic.advance at done
  split at done
  case h_1 => cases done
  case h_2 request high phase =>
    rw [phase] at valid
    rw [(valid.1 high).1] at done
    split at done
    next free =>
      rw [← some.inj done]
      exact agrees.swap phase free
    next owner taken =>
      split at done
      · rw [← some.inj done]
        refine agrees.setPhase valid ?_ ?_ ?_
        · intro field
          rw [phase]
          rfl
        · intro field
          rw [phase]
          rfl
        · intro field _
          rw [phase]
          rfl
      · rw [← some.inj done]
        exact agrees
  case h_3 request high phase =>
    rw [← some.inj done]
    exact agrees.record phase
  case h_4 request phase =>
    rw [← some.inj done]
    rw [phase] at valid
    refine agrees.setPhase ⟨valid, nofun⟩ ?_ ?_ ?_
    · intro field
      cases field <;> simp [phase, LockPhase.holds]
    · intro field
      cases field <;> simp [phase, LockPhase.records]
    · intro field _
      rw [phase]
      rfl
  case h_5 request high phase =>
    rw [phase] at valid
    rw [(valid.1 high).2] at done
    rw [← some.inj done]
    exact agrees.store phase
  case h_6 request high phase =>
    rw [← some.inj done]
    exact agrees.erase phase
  case h_7 => cases done

/-- What a core does to the table is seen by the others as nothing. -/
structure Frame (s s' : LockSystem) (c : Nat) : Prop where
  core : ∀ other ≠ c, s'.core other = s.core other
  lock : ∀ other ≠ c, ∀ entry, s'.lock entry = some other ↔ s.lock entry = some other

theorem Frame.setPhase (frame : Frame s s' c) (phase : LockPhase) :
    Frame s (s'.setPhase c phase) c := by
  refine ⟨?_, frame.lock⟩
  intro other ne
  rw [← frame.core other ne]
  exact LockSystem.setCore_core_ne _ ne

theorem Frame.refl : Frame s s c := ⟨fun _ _ => rfl, fun _ _ _ => Iff.rfl⟩

theorem Frame.setLocked (high : Bool) (address : Nat) : Frame s (s.setLocked c high address) c :=
  ⟨fun _ ne => LockSystem.setCore_core_ne _ ne, fun _ _ _ => Iff.rfl⟩

theorem Frame.setLock {entry : Nat} {owner : Option Nat}
    (before : s.lock entry = none ∨ s.lock entry = some c) (after : owner = none ∨ owner = some c) :
    Frame s (s.setLock entry owner) c := by
  refine ⟨fun _ _ => rfl, ?_⟩
  intro other ne at'
  rw [LockSystem.setLock_lock]
  by_cases here : at' = entry
  · rw [if_pos here, here]
    refine iff_of_false ?_ ?_
    · intro same
      rcases after with none' | own
      · rw [none'] at same
        cases same
      · rw [own] at same
        exact ne (some.inj same).symm
    · intro same
      rcases before with none' | own
      · rw [none'] at same
        cases same
      · rw [own] at same
        exact ne (some.inj same).symm
  · rw [if_neg here]

theorem CoreAgrees.storing_lock (agrees : CoreAgrees T s c) {request : LockRequest} {high : Bool}
    (phase : (s.core c).phase = .storing request high) :
    s.lock (T.addressHash (request.address high)) = some c := by
  refine (agrees.lock_iff _).mpr ⟨high, ?_, ?_⟩
  · have valid := agrees.valid
    rw [phase] at valid ⊢
    cases high with
    | false => rfl
    | true => exact valid.2 rfl
  · rw [phase]
    rfl

theorem CoreAgrees.frame_advance (agrees : CoreAgrees T s c) (done : Atomic.advance T s c = some s') :
    Frame s s' c := by
  have valid := agrees.valid
  unfold Atomic.advance at done
  split at done
  case h_1 => cases done
  case h_2 request high phase =>
    split at done
    next free =>
      rw [← some.inj done]
      exact (Frame.setLock (.inl free) (.inr rfl)).setPhase _
    next owner taken =>
      split at done
      · rw [← some.inj done]
        exact Frame.refl.setPhase _
      · rw [← some.inj done]
        exact Frame.refl
  case h_3 request high phase =>
    rw [← some.inj done]
    exact (Frame.setLocked _ _).setPhase _
  case h_4 request phase =>
    rw [← some.inj done]
    exact Frame.refl.setPhase _
  case h_5 request high phase =>
    rw [phase] at valid
    rw [(valid.1 high).2] at done
    rw [← some.inj done]
    exact (Frame.setLock (.inr (agrees.storing_lock phase)) (.inl rfl)).setPhase _
  case h_6 request high phase =>
    rw [← some.inj done]
    exact (Frame.setLocked _ _).setPhase _
  case h_7 => cases done

end Agree

end Tlib.Atomic
