import Mathlib.Algebra.Group.Nat.Defs
import Mathlib.Data.Finset.Card
import Mathlib.Data.List.Range
import Mathlib.Logic.Function.Basic

/-!
Contract: the table of address reservations that all CPUs share.

Owns: the table with its index by CPU, the operations on it and the states that they reach. Does not
own: the lock under which an operation runs.
-/

namespace Tlib.Atomic

open Function

def maxNumberOfCpus : Nat := 32

def noCpuId : Nat := 0xFFFFFFFF

structure AddressReservation where
  (lockingCpuId address : Nat)
  activeFlag : Bool
  id : Nat
  manualFree : Bool
deriving DecidableEq, Repr

/-- The part of `atomic_memory_state_t` that the reservations use. -/
structure AtomicMemoryState where
  reservationsCount : Nat
  /-- `none` stands for `NO_RESERVATION`. -/
  reservationsByCpu : Nat → Option Nat
  reservations : Nat → AddressReservation

/-- The ways in which an operation does not return. -/
inductive Abort where
  | noMoreSlots
  | inconsistentCount
  | notActive
  | countIsZero
  | movedNotActive
  /-- The scan of the table has not come to an end. -/
  | scanning
deriving DecidableEq, Repr

/-- The table after `initialize_atomic_memory_state`. -/
def initializeAtomicMemoryState : AtomicMemoryState where
  reservationsCount := 0
  reservationsByCpu _ := none
  reservations i :=
    { lockingCpuId := noCpuId, address := 0, activeFlag := false, id := i, manualFree := false }

variable (s : AtomicMemoryState)

def findReservationOnAddress (address startingPosition : Nat) : Option Nat :=
  (List.range' startingPosition (s.reservationsCount - startingPosition)).find?
    fun i => (s.reservations i).address = address

def findReservationByCpu (cpu : Nat) : Except Abort (Option Nat) :=
  match s.reservationsByCpu cpu with
  | none => .ok none
  | some i => if i ≥ s.reservationsCount then .error .inconsistentCount else .ok (some i)

def makeReservation (cpu address : Nat) (manualFree : Bool) : Except Abort AtomicMemoryState :=
  if s.reservationsCount = maxNumberOfCpus then .error .noMoreSlots
  else .ok
    { reservationsCount := s.reservationsCount + 1
      reservationsByCpu := update s.reservationsByCpu cpu (some s.reservationsCount)
      reservations := update s.reservations s.reservationsCount
        { s.reservations s.reservationsCount with
          activeFlag := true
          address := address
          lockingCpuId := cpu
          manualFree := manualFree } }

def AtomicMemoryState.unown (cpu : Nat) : AtomicMemoryState :=
  { s with reservationsByCpu := update s.reservationsByCpu cpu none }

def AtomicMemoryState.dropLast : AtomicMemoryState :=
  { s with
    reservationsCount := s.reservationsCount - 1
    reservations := update s.reservations (s.reservationsCount - 1)
      { s.reservations (s.reservationsCount - 1) with activeFlag := false } }

/-- The content of the last entry is copied into the entry at `i`. -/
def AtomicMemoryState.moveLast (i : Nat) : AtomicMemoryState :=
  let last := s.reservations (s.reservationsCount - 1)
  { s with
    reservationsByCpu :=
      update s.reservationsByCpu last.lockingCpuId (some (s.reservations i).id)
    reservations := update s.reservations i
      { s.reservations i with
        lockingCpuId := last.lockingCpuId
        address := last.address
        manualFree := last.manualFree } }

def freeReservation (i : Nat) (isManual : Bool) : Except Abort (AtomicMemoryState × Bool) :=
  let reservation := s.reservations i
  let last := s.reservations (s.reservationsCount - 1)
  if !reservation.activeFlag then .error .notActive
  else if s.reservationsCount = 0 then .error .countIsZero
  else if reservation.manualFree && !isManual then .ok (s, false)
  else
    let unowned := s.unown reservation.lockingCpuId
    if reservation.id ≠ s.reservationsCount - 1 then
      if reservation.activeFlag && last.activeFlag then .ok ((unowned.moveLast i).dropLast, true)
      else .error .movedNotActive
    else .ok (unowned.dropLast, true)

def reserveAddress (cpu address : Nat) (manualFree : Bool) : Except Abort AtomicMemoryState :=
  match findReservationByCpu s cpu with
  | .error abort => .error abort
  | .ok none => makeReservation s cpu address manualFree
  | .ok (some i) =>
    if (s.reservations i).address = address then .ok s
    else
      match freeReservation s i true with
      | .error abort => .error abort
      | .ok (s, _) => makeReservation s cpu address manualFree

/-- `0` if the CPU has a reservation of the address. -/
def checkAddressReservation (cpu address : Nat) : Except Abort Nat :=
  match findReservationByCpu s cpu with
  | .error abort => .error abort
  | .ok none => .ok 1
  | .ok (some i) => .ok (if (s.reservations i).address = address then 0 else 1)

def cancelReservation (cpu : Nat) : Except Abort AtomicMemoryState :=
  match findReservationByCpu s cpu with
  | .error abort => .error abort
  | .ok none => .ok s
  | .ok (some i) => (freeReservation s i true).map Prod.fst

/-- The loop of `register_address_access`, for a number of turns. -/
def registerAddressAccess (cpu address : Nat) :
    Nat → AtomicMemoryState → Nat → Except Abort AtomicMemoryState
  | 0, _, _ => .error .scanning
  | turns + 1, s, position =>
    match findReservationOnAddress s address position with
    | none => .ok s
    | some i =>
      let position := (s.reservations i).id + 1
      if (s.reservations i).lockingCpuId ≠ cpu then
        match freeReservation s i false with
        | .error abort => .error abort
        -- the last entry may be in this slot now
        | .ok (s, freed) =>
          registerAddressAccess cpu address turns s (if freed then position - 1 else position)
      else registerAddressAccess cpu address turns s position

inductive ReservationOp where
  | reserve (cpu address : Nat) (manualFree : Bool)
  | check (cpu address : Nat)
  | access (cpu address : Nat)
  | cancel (cpu : Nat)
deriving DecidableEq, Repr

def ReservationOp.cpu : ReservationOp → Nat
  | .reserve cpu _ _ => cpu
  | .check cpu _ => cpu
  | .access cpu _ => cpu
  | .cancel cpu => cpu

def applyOp (turns : Nat) : ReservationOp → Except Abort AtomicMemoryState
  | .reserve cpu address manualFree => reserveAddress s cpu address manualFree
  | .check cpu address => (checkAddressReservation s cpu address).map fun _ => s
  | .access cpu address => registerAddressAccess cpu address turns s 0
  | .cancel cpu => cancelReservation s cpu

/-- The tables that CPUs with ids below the limit make. -/
inductive Reachable : AtomicMemoryState → Prop
  | start : Reachable initializeAtomicMemoryState
  | step {s s' : AtomicMemoryState} {op : ReservationOp} (turns : Nat) : Reachable s →
      op.cpu < maxNumberOfCpus → applyOp s turns op = .ok s' → Reachable s'

/-- A reservation as its owner sees it. -/
structure Held where
  address : Nat
  manualFree : Bool
deriving DecidableEq, Repr

abbrev ReservationMap := Nat → Option Held

/-- What each operation is for. -/
def ReservationMap.apply (map : ReservationMap) : ReservationOp → ReservationMap
  | .reserve cpu address manualFree =>
    if (map cpu).map Held.address = some address then map
    else update map cpu (some { address := address, manualFree := manualFree })
  | .check _ _ => map
  | .access cpu address => fun other =>
    if other ≠ cpu ∧ map other = some { address := address, manualFree := false } then none
    else map other
  | .cancel cpu => update map cpu none

def AddressReservation.held (reservation : AddressReservation) : Held :=
  { address := reservation.address, manualFree := reservation.manualFree }

def AtomicMemoryState.held : ReservationMap :=
  fun cpu => (s.reservationsByCpu cpu).map fun i => (s.reservations i).held

/-- The entries in use come first, and the index by CPU is their inverse. -/
structure Table : Prop where
  count_le : s.reservationsCount ≤ maxNumberOfCpus
  active_iff : ∀ i < maxNumberOfCpus, (s.reservations i).activeFlag = true ↔ i < s.reservationsCount
  id_eq : ∀ i < maxNumberOfCpus, (s.reservations i).id = i
  owner_lt : ∀ i < s.reservationsCount, (s.reservations i).lockingCpuId < maxNumberOfCpus
  byCpu_owner : ∀ i < s.reservationsCount,
    s.reservationsByCpu (s.reservations i).lockingCpuId = some i
  owner_byCpu : ∀ cpu < maxNumberOfCpus, ∀ i, s.reservationsByCpu cpu = some i →
    i < s.reservationsCount ∧ (s.reservations i).lockingCpuId = cpu

end Tlib.Atomic
