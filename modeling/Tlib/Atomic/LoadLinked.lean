import Tlib.Atomic.ReservationTable

/-!
Contract: what a successful check of a reservation says about the stores of other CPUs.

Owns: runs of reservations, checks and guest stores, in which a store and its registration are steps
of their own.
-/

namespace Tlib.Atomic

open List

/-- What the CPUs do. -/
inductive GuestEvent where
  | reserve (cpu address : Nat) (manualFree : Bool)
  | check (cpu address : Nat)
  /-- A store of so many bytes is registered; then the lock is released. -/
  | access (cpu address width : Nat)
  /-- Some bytes of the registered store are written. -/
  | store (cpu address width : Nat)
  /-- The store is done, or has faulted. -/
  | leave (cpu : Nat)
  | cancel (cpu : Nat)
deriving DecidableEq, Repr

namespace GuestEvent

/-- Every store registers the access of its start address. -/
def op : GuestEvent → Option ReservationOp
  | reserve cpu address manualFree => some (.reserve cpu address manualFree)
  | check cpu address => some (.check cpu address)
  | access cpu address _ => some (.access cpu address)
  | store _ _ _ => none
  | leave _ => none
  | cancel cpu => some (.cancel cpu)

def cpu : GuestEvent → Nat
  | reserve cpu _ _ | check cpu _ | access cpu _ _ | store cpu _ _ | leave cpu | cancel cpu => cpu

def perform (s : AtomicMemoryState) (turns : Nat) (e : GuestEvent) : Except Abort AtomicMemoryState :=
  match e.op with
  | some op => applyOp s turns op
  | none => .ok s

end GuestEvent

/-- The registered store of a CPU, by address and width. -/
def underWay (cpu : Nat) : List GuestEvent → Option (Nat × Nat)
  | [] => none
  | .access owner address width :: earlier =>
    if owner = cpu then some (address, width) else underWay cpu earlier
  | .leave owner :: earlier => if owner = cpu then none else underWay cpu earlier
  | _ :: earlier => underWay cpu earlier

/-- Only bytes of a registered store are written. -/
def GuestEvent.Follows (history : List GuestEvent) : GuestEvent → Prop
  | store cpu address width => ∃ begun ∈ underWay cpu history,
    begun.1 ≤ address ∧ address + width ≤ begun.1 + begun.2
  | _ => True

/-- Runs of what the CPUs do, with the latest event first. -/
inductive GuestRun (Allowed : List GuestEvent → AtomicMemoryState → GuestEvent → Prop) :
    List GuestEvent → AtomicMemoryState → Prop
  | start : GuestRun Allowed [] initializeAtomicMemoryState
  | event {history : List GuestEvent} {s s' : AtomicMemoryState} {e : GuestEvent} (turns : Nat) :
      GuestRun Allowed history s → e.cpu < maxNumberOfCpus → e.Follows history →
      Allowed history s e → e.perform s turns = .ok s' → GuestRun Allowed (e :: history) s'

def Overlaps (space stored width address size : Nat) : Prop :=
  ∃ i < width, ∃ j < size, (stored + i) % space = (address + j) % space

instance (space stored width address size : Nat) :
    Decidable (Overlaps space stored width address size) := by
  unfold Overlaps
  infer_instance

/-- No check succeeds after another CPU has stored to the reserved bytes. -/
def Undisturbed (space size : Nat) (history : List GuestEvent) (s : AtomicMemoryState) : Prop :=
  ∀ later earlier cpu address, history = later ++ .reserve cpu address false :: earlier →
    (∀ manualFree, .reserve cpu address manualFree ∉ later) →
    checkAddressReservation s cpu address = .ok 0 →
    ∀ other stored width, .store other stored width ∈ later → other ≠ cpu →
      ¬ Overlaps space stored width address size

/-- Stores start where reserved locations do, nothing is reserved both ways, and no location is
reserved while another CPU is between the registration and the end of a store to it. -/
def KeepsReservations (space size : Nat) (history : List GuestEvent) (s : AtomicMemoryState) :
    GuestEvent → Prop
  | .access cpu stored width =>
    ∀ other < maxNumberOfCpus, other ≠ cpu → ∀ held ∈ s.held other,
      held.manualFree = false → Overlaps space stored width held.address size →
        stored = held.address
  | .reserve cpu address false => s.held cpu ≠ some { address := address, manualFree := true } ∧
    ∀ other < maxNumberOfCpus, other ≠ cpu → ∀ begun ∈ underWay other history,
      ¬Overlaps space begun.1 begun.2 address size
  | _ => True

instance (space size : Nat) (history : List GuestEvent) (s : AtomicMemoryState) (e : GuestEvent) :
    Decidable (KeepsReservations space size history s e) := by
  unfold KeepsReservations
  split <;> infer_instance

section Runs

variable {Allowed : List GuestEvent → AtomicMemoryState → GuestEvent → Prop}
  {history : List GuestEvent} {s s' : AtomicMemoryState} {e : GuestEvent} {held : Held}
  {cpu other address width start total space size turns : Nat}

theorem GuestEvent.op_cpu {op : ReservationOp} (isOp : e.op = some op) : op.cpu = e.cpu := by
  cases e <;> cases isOp <;> rfl

theorem GuestRun.reachable (run : GuestRun Allowed history s) : Reachable s := by
  induction run with
  | start => exact .start
  | event turns _ less _ _ done ih =>
    unfold GuestEvent.perform at done
    split at done
    next op isOp => exact ih.step turns (by rwa [GuestEvent.op_cpu isOp]) done
    next =>
      rw [← Except.ok.inj done]
      exact ih

theorem GuestRun.cpu_lt (run : GuestRun Allowed history s) :
    ∀ e ∈ history, e.cpu < maxNumberOfCpus := by
  induction run with
  | start => simp
  | event turns _ less _ _ _ ih =>
    intro e member
    rcases mem_cons.mp member with rfl | member
    · exact less
    · exact ih e member

theorem mem_of_underWay (begun : underWay cpu history = some (start, total)) :
    .access cpu start total ∈ history := by
  induction history with
  | nil => cases begun
  | cons e history ih =>
    cases e with
    | access owner address width =>
      simp only [underWay] at begun
      split at begun
      next own =>
        cases begun
        rw [own]
        exact mem_cons_self
      next => exact mem_cons_of_mem _ (ih begun)
    | leave owner =>
      simp only [underWay] at begun
      split at begun
      · cases begun
      · exact mem_cons_of_mem _ (ih begun)
    | _ => exact mem_cons_of_mem _ (ih begun)

theorem underWay_cons (begun : underWay cpu (e :: history) = some (start, total)) :
    underWay cpu history = some (start, total) ∨ e = .access cpu start total := by
  cases e with
  | access owner address width =>
    simp only [underWay] at begun
    split at begun
    next own =>
      cases begun
      exact .inr (by rw [own])
    next => exact .inl begun
  | leave owner =>
    simp only [underWay] at begun
    split at begun
    · cases begun
    · exact .inl begun
  | _ => exact .inl begun

theorem Overlaps.widen {stored : Nat} (overlaps : Overlaps space stored width address size)
    (ge : start ≤ stored) (le : stored + width ≤ start + total) :
    Overlaps space start total address size := by
  obtain ⟨i, inside, j, less, same⟩ := overlaps
  refine ⟨stored - start + i, by omega, j, less, ?_⟩
  rw [← same]
  congr 1
  omega

theorem Table.check_succeeds (table : Table s) (less : cpu < maxNumberOfCpus) :
    checkAddressReservation s cpu address = .ok 0 ↔
      ∃ held, s.held cpu = some held ∧ held.address = address := by
  unfold checkAddressReservation AtomicMemoryState.held
  rw [table.findReservationByCpu less]
  cases s.reservationsByCpu cpu with
  | none => simp
  | some i =>
    by_cases same : (s.reservations i).address = address <;>
      simp [AddressReservation.held]

theorem ReservationMap.before_apply {map : ReservationMap} {op : ReservationOp}
    (after : map.apply op cpu = some held)
    (other : ∀ manualFree, op ≠ .reserve cpu held.address manualFree) : map cpu = some held := by
  cases op with
  | reserve owner address manualFree =>
    unfold ReservationMap.apply at after
    dsimp only at after
    split at after
    · exact after
    · by_cases own : cpu = owner
      · subst own
        rw [Function.update_self] at after
        rw [← Option.some.inj after] at other
        exact absurd rfl (other manualFree)
      · rw [Function.update_of_ne own] at after
        exact after
  | check owner address => exact after
  | access owner stored =>
    unfold ReservationMap.apply at after
    dsimp only at after
    split at after
    · cases after
    · exact after
  | cancel owner =>
    unfold ReservationMap.apply at after
    dsimp only at after
    by_cases own : cpu = owner
    · rw [own, Function.update_self] at after
      cases after
    · rw [Function.update_of_ne own] at after
      exact after

theorem ReservationMap.automatic_reserve {map : ReservationMap}
    (open' : map cpu ≠ some { address := address, manualFree := true })
    (after : map.apply (.reserve cpu address false) cpu = some held)
    (same : held.address = address) : held.manualFree = false := by
  unfold ReservationMap.apply at after
  dsimp only at after
  split at after
  next kept =>
    rw [after, ← same] at open'
    cases manual : held.manualFree with
    | false => rfl
    | true =>
      refine absurd ?_ open'
      rw [← manual]
  next =>
    rw [Function.update_self] at after
    rw [← Option.some.inj after]

theorem held_perform (table : Table s) (less : e.cpu < maxNumberOfCpus)
    (done : e.perform s turns = .ok s') (cpuLess : cpu < maxNumberOfCpus)
    (isHeld : s'.held cpu = some held)
    (other : ∀ manualFree, e ≠ .reserve cpu held.address manualFree) : s.held cpu = some held := by
  unfold GuestEvent.perform at done
  split at done
  next op isOp =>
    obtain ⟨_, maps⟩ := table.of_applyOp (by rwa [GuestEvent.op_cpu isOp]) done
    rw [maps cpu cpuLess] at isHeld
    refine ReservationMap.before_apply isHeld fun manualFree made => other manualFree ?_
    rw [made] at isOp
    cases e <;> cases isOp
    rfl
  next =>
    rw [Except.ok.inj done]
    exact isHeld

/-- What keeps a location apart from the stores of the other CPUs after it was reserved. -/
structure Apart (space size : Nat) (later history : List GuestEvent) (cpu address : Nat) :
    Prop where
  stores : ∀ other stored width, .store other stored width ∈ later → other ≠ cpu →
    ¬Overlaps space stored width address size
  underWay : ∀ other start total, underWay other history = some (start, total) → other ≠ cpu →
    ¬Overlaps space start total address size

/-- A store that is registered and overlaps a reserved location has cancelled the reservation. -/
theorem not_overlaps_of_access {stored : Nat} (table : Table s) (less : other < maxNumberOfCpus)
    (cpuLess : cpu < maxNumberOfCpus) (ne : other ≠ cpu)
    (keeps : KeepsReservations space size history s (.access other stored width))
    (done : (GuestEvent.access other stored width).perform s turns = .ok s')
    (before : s.held cpu = some held) (automatic : held.manualFree = false)
    (isHeld : s'.held cpu = some held) : ¬Overlaps space stored width held.address size := by
  intro overlaps
  have start : stored = held.address := keeps cpu cpuLess ne.symm held before automatic overlaps
  have same : s.held cpu = some { address := stored, manualFree := false } := by
    rw [before, start, ← automatic]
  have isCpu : (ReservationOp.access other stored).cpu < maxNumberOfCpus := less
  obtain ⟨_, maps⟩ := table.of_applyOp isCpu done
  rw [maps cpu cpuLess] at isHeld
  unfold ReservationMap.apply at isHeld
  dsimp only at isHeld
  rw [if_pos ⟨ne.symm, same⟩] at isHeld
  cases isHeld

theorem GuestRun.automatic (run : GuestRun (KeepsReservations space size) history s) :
    ∀ later earlier cpu address, cpu < maxNumberOfCpus →
      history = later ++ .reserve cpu address false :: earlier →
      (∀ manualFree, .reserve cpu address manualFree ∉ later) →
      ∀ held, s.held cpu = some held → held.address = address →
        held.manualFree = false ∧ Apart space size later history cpu address := by
  induction run with
  | start =>
    intro later earlier cpu address _ split
    simp at split
  | @event history s s' e turns run less follows keeps done ih =>
    have table := run.reachable.table
    intro later earlier cpu address cpuLess split none' held isHeld same
    cases later with
    | nil =>
      obtain ⟨rfl, rfl⟩ := cons.inj split
      have reserved : applyOp s turns (.reserve cpu address false) = .ok s' := done
      have isCpu : (ReservationOp.reserve cpu address false).cpu < maxNumberOfCpus := less
      obtain ⟨_, maps⟩ := table.of_applyOp isCpu reserved
      rw [maps cpu cpuLess] at isHeld
      refine ⟨ReservationMap.automatic_reserve keeps.1 isHeld same, by simp, ?_⟩
      intro other start total begun ne
      have otherLess := run.cpu_lt _ (mem_of_underWay begun)
      exact keeps.2 other otherLess ne _ begun
    | cons latest later =>
      obtain ⟨rfl, rest⟩ := cons.inj split
      have notReserve : ∀ manualFree, e ≠ .reserve cpu held.address manualFree := by
        intro manualFree made
        refine none' manualFree ?_
        rw [made, same]
        exact mem_cons_self
      have before := held_perform table less done cpuLess isHeld notReserve
      obtain ⟨automatic, apart⟩ := ih later earlier cpu address cpuLess rest
        (fun manualFree member => none' manualFree (mem_cons_of_mem _ member))
        held before same
      refine ⟨automatic, ?_, ?_⟩
      · intro other stored width member ne overlaps
        rcases mem_cons.mp member with rfl | member
        · obtain ⟨⟨start, total⟩, begun, ge, le⟩ := follows
          exact apart.underWay other start total begun ne (overlaps.widen ge le)
        · exact apart.stores other stored width member ne overlaps
      · intro other start total begun ne
        rcases underWay_cons begun with begun | rfl
        · exact apart.underWay other start total begun ne
        · rw [← same]
          exact not_overlaps_of_access table less cpuLess ne keeps done before automatic isHeld

/-- In such runs a check that succeeds means that no other CPU has stored to the location. -/
theorem undisturbed_of_keepsReservations
    (run : GuestRun (KeepsReservations space size) history s) :
    Undisturbed space size history s := by
  intro later earlier cpu address split none' succeeds
  have less : cpu < maxNumberOfCpus := by
    refine run.cpu_lt (.reserve cpu address false) ?_
    rw [split]
    simp
  obtain ⟨held, isHeld, same⟩ := (run.reachable.table.check_succeeds less).mp succeeds
  exact (run.automatic later earlier cpu address less split none' held isHeld same).2.stores

end Runs

/-- CPU 0 reserves a word; CPU 1 writes it and the next one. -/
def reservedTwice : List GuestEvent :=
  [.store 1 12 4, .access 1 12 4, .reserve 0 8 false, .leave 1, .store 1 8 4, .access 1 8 4,
    .reserve 0 8 false]

/-- A reservation that is lost to a store is made again, and then another word is stored to. -/
theorem undisturbed_of_keepsReservations_sample : Undisturbed (2 ^ 64) 4 reservedTwice
      (tableOf [.reserve 0 8 false, .access 1 8, .reserve 0 8 false, .access 1 12]) := by
  have empty : GuestRun (KeepsReservations (2 ^ 64) 4) [] initializeAtomicMemoryState := .start
  have first := empty.event (e := .reserve 0 8 false) 5 (by decide) trivial (by decide) rfl
  have second := first.event (e := .access 1 8 4) 5 (by decide) trivial (by decide) rfl
  have written := second.event (e := .store 1 8 4) 5 (by decide) ⟨(8, 4), rfl, by decide⟩ trivial rfl
  have left := written.event (e := .leave 1) 5 (by decide) trivial trivial rfl
  have again := left.event (e := .reserve 0 8 false) 5 (by decide) trivial (by decide) rfl
  have next := again.event (e := .access 1 12 4) 5 (by decide) trivial (by decide) rfl
  exact undisturbed_of_keepsReservations
    (next.event (e := .store 1 12 4) 5 (by decide) ⟨(12, 4), rfl, by decide⟩ trivial rfl)

/-- A store into the middle of a reserved word; a word that was reserved manually before; and a
word that is reserved between the registration of a store and its bytes. -/
theorem undisturbed_fails :
    (let history := [.store 1 10 2, .access 1 10 2, .reserve 0 8 false]
      let s := tableOf [.reserve 0 8 false, .access 1 10]
      GuestRun (fun _ _ _ => True) history s ∧ ¬Undisturbed (2 ^ 64) 4 history s) ∧
    (let history := [.store 1 8 4, .access 1 8 4, .reserve 0 8 false, .reserve 0 8 true]
      let s := tableOf [.reserve 0 8 true, .reserve 0 8 false, .access 1 8]
      GuestRun (fun _ _ _ => True) history s ∧ ¬Undisturbed (2 ^ 64) 4 history s) ∧
    (let history := [.store 1 8 4, .reserve 0 8 false, .access 1 8 4]
      let s := tableOf [.access 1 8, .reserve 0 8 false]
      GuestRun (fun _ _ _ => True) history s ∧ ¬Undisturbed (2 ^ 64) 4 history s) := by
  refine ⟨⟨?_, ?_⟩, ⟨?_, ?_⟩, ?_, ?_⟩
  · exact .event 5 (.event 5 (.event 5 .start (by decide) trivial trivial rfl) (by decide) trivial
      trivial rfl) (by decide) ⟨(10, 2), rfl, by decide⟩ trivial rfl
  · intro undisturbed
    exact undisturbed [.store 1 10 2, .access 1 10 2] [] 0 8 rfl (by simp) (by decide) 1 10 2
      (by simp) (by decide) (by decide)
  · exact .event 5 (.event 5 (.event 5 (.event 5 .start (by decide) trivial trivial rfl) (by decide)
      trivial trivial rfl) (by decide) trivial trivial rfl) (by decide) ⟨(8, 4), rfl, by decide⟩
      trivial rfl
  · intro undisturbed
    exact undisturbed [.store 1 8 4, .access 1 8 4] [.reserve 0 8 true] 0 8 rfl (by simp)
      (by decide) 1 8 4 (by simp) (by decide) (by decide)
  · exact .event 5 (.event 5 (.event 5 .start (by decide) trivial trivial rfl) (by decide) trivial
      trivial rfl) (by decide) ⟨(8, 4), rfl, by decide⟩ trivial rfl
  · intro undisturbed
    exact undisturbed [.store 1 8 4] [.access 1 8 4] 0 8 rfl (by simp) (by decide) 1 8 4 (by simp)
      (by decide) (by decide)

end Tlib.Atomic
