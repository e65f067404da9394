import Mathlib.Logic.Function.Basic
import Tlib.Library.BitMasks

/-!
Contract: the hash table of the store test with its locks.

Owns: the hash of guest addresses in the helpers and in generated code, and what a core locks.
-/

namespace Tlib.Atomic

open Tlib.Library.BitMasks

/-- The table as `tlib_store_table_init` accepts it, on a host with 64-bit addresses. -/
structure StoreTable where
  (storeTableBits storeTable : Nat)
  bits_pos : 0 < storeTableBits
  bits_le : storeTableBits ≤ 61
  storeTable_lt : storeTable < 2 ^ 64
  /-- The address of the table replaces the upper bits of guest addresses. -/
  aligned : storeTable % 2 ^ (64 - storeTableBits) = 0

/-- A temp that holds a guest address in 64 bits of the host. -/
structure GuestTemp where
  /-- `TARGET_LONG_BITS` -/
  (longBits address bits : Nat)
  longBits_cases : longBits = 32 ∨ longBits = 64
  bits_lt : bits < 2 ^ 64
  low : bits % 2 ^ longBits = address
deriving DecidableEq, Repr

theorem word_longBits : 64 = 32 ∨ 64 = 64 := .inr rfl

theorem word_lt {address : Nat} : address % 2 ^ 64 < 2 ^ 64 := Nat.mod_lt _ (Nat.two_pow_pos 64)

theorem word_low {address : Nat} : address % 2 ^ 64 % 2 ^ 64 = address % 2 ^ 64 := Nat.mod_mod _ _

def GuestTemp.word (address : Nat) : GuestTemp where
  longBits := 64
  address := address % 2 ^ 64
  bits := address % 2 ^ 64
  longBits_cases := word_longBits
  bits_lt := word_lt
  low := word_low

namespace StoreTable

variable (T : StoreTable)

def contentBits : Nat := 64 - T.storeTableBits

/-- `hst_table_entries_count`; an entry has 8 bytes. -/
def hstTableEntriesCount : Nat := 2 ^ T.contentBits / 8

/-- `~value` of a 64-bit value -/
def complement (value : Nat) : Nat := value ^^^ (2 ^ 64 - 1)

def hstGuestAddressMask : Nat :=
  let nBits := 2 ^ T.storeTableBits - 1
  let tableMask := nBits <<< T.contentBits
  let interiorMask := complement tableMask
  let alignmentMask := complement 7
  interiorMask &&& alignmentMask

def addressHash (guestAddress : Nat) : Nat :=
  (guestAddress &&& T.hstGuestAddressMask) ||| T.storeTable

/-- `gen_hash_address`: the address is copied at the width of the guest and masked at 64 bits. -/
def genHashAddress (guestAddress : GuestTemp) : Nat :=
  let hashedAddress := guestAddress.bits
  let hashedAddress := hashedAddress &&& T.hstGuestAddressMask
  hashedAddress ||| T.storeTable

end StoreTable

/-- What a core locks: one entry, or also the one 8 bytes above. Each address is in a temp where its
lock is generated and in one where its unlock is. -/
structure LockRequest where
  isPair : Bool
  (locking unlocking lockingHigh unlockingHigh : GuestTemp)
  low : unlocking.address = locking.address
  high : lockingHigh.address = (locking.address + 8) % 2 ^ 64
  unlockingHigh_address : unlockingHigh.address = (locking.address + 8) % 2 ^ 64
deriving DecidableEq, Repr

namespace LockRequest

def lockTemp (request : LockRequest) (high : Bool) : GuestTemp :=
  if high then request.lockingHigh else request.locking

def unlockTemp (request : LockRequest) (high : Bool) : GuestTemp :=
  if high then request.unlockingHigh else request.unlocking

def address (request : LockRequest) (high : Bool) : Nat := (request.lockTemp high).address

/-- The generated code finds the entries that the helpers find. -/
def Hashed (T : StoreTable) (request : LockRequest) : Prop :=
  ∀ high, T.genHashAddress (request.lockTemp high) = T.addressHash (request.address high) ∧
    T.genHashAddress (request.unlockTemp high) = T.addressHash (request.address high)

theorem word_high {low : Nat} :
    (GuestTemp.word (low + 8)).address = ((GuestTemp.word low).address + 8) % 2 ^ 64 :=
  (Nat.mod_add_mod _ _ _).symm

def ofWords (isPair : Bool) (low : Nat) : LockRequest where
  isPair := isPair
  locking := .word low
  unlocking := .word low
  lockingHigh := .word (low + 8)
  unlockingHigh := .word (low + 8)
  low := rfl
  high := word_high
  unlockingHigh_address := word_high

theorem ofWords_hashed {T : StoreTable} {isPair : Bool} {low : Nat} :
    (ofWords isPair low).Hashed T := by
  intro high
  cases high <;> exact ⟨rfl, rfl⟩

def single (address : Nat) : LockRequest := ofWords false address

def pair (low : Nat) : LockRequest := ofWords true low

end LockRequest

/-- Where a core is in the generated code; the flag is for the second lock of a pair. -/
inductive LockPhase where
  | outside
  /-- The compare-and-swap comes next. -/
  | swapping (request : LockRequest) (high : Bool)
  /-- The entry is locked; the guest address is recorded next. -/
  | recording (request : LockRequest) (high : Bool)
  | inside (request : LockRequest)
  /-- `HST_UNLOCKED` is stored next. -/
  | storing (request : LockRequest) (high : Bool)
  /-- The entry is unlocked; the recorded address is erased next. -/
  | erasing (request : LockRequest) (high : Bool)
  /-- The core has met a lock that it already holds. -/
  | aborted (request : LockRequest) (high : Bool)
deriving DecidableEq, Repr

structure LockCore where
  phase : LockPhase
  (lockedAddress lockedAddressHigh : Nat)
deriving DecidableEq, Repr

/-- The locks by address, the cores by id, and the global memory lock. -/
structure LockSystem where
  lock : Nat → Option Nat
  core : Nat → LockCore
  lockingCpuId : Option Nat
  entriesCount : Nat

namespace LockSystem

variable (s : LockSystem)

def setCore (c : Nat) (core : LockCore) : LockSystem :=
  { s with core := Function.update s.core c core }

def setPhase (c : Nat) (phase : LockPhase) : LockSystem :=
  s.setCore c { s.core c with phase := phase }

def setLock (entry : Nat) (owner : Option Nat) : LockSystem :=
  { s with lock := Function.update s.lock entry owner }

/-- The field `locked_address` or `locked_address_high`. -/
def setLocked (c : Nat) (high : Bool) (address : Nat) : LockSystem :=
  s.setCore c (if high then { s.core c with lockedAddressHigh := address }
    else { s.core c with lockedAddress := address })

def locked (c : Nat) (high : Bool) : Nat :=
  if high then (s.core c).lockedAddressHigh else (s.core c).lockedAddress

end LockSystem

def LockRequest.next (request : LockRequest) (high : Bool)
    (again : LockRequest → Bool → LockPhase) (done : LockPhase) : LockPhase :=
  if request.isPair && !high then again request true else done

variable (T : StoreTable)

/-- The next atomic step of the generated code. -/
def advance (s : LockSystem) (c : Nat) : Option LockSystem :=
  match (s.core c).phase with
  | .outside => none
  | .swapping request high =>
    match s.lock (T.genHashAddress (request.lockTemp high)) with
    | none =>
      some ((s.setLock (T.genHashAddress (request.lockTemp high)) (some c)).setPhase c
        (.recording request high))
    | some owner =>
      if owner = c then some (s.setPhase c (.aborted request high))
      -- locked by another core: once more
      else some s
  | .recording request high =>
    some ((s.setLocked c high (request.address high)).setPhase c
      (request.next high .swapping (.inside request)))
  | .inside request => some (s.setPhase c (.storing request false))
  | .storing request high =>
    some ((s.setLock (T.genHashAddress (request.unlockTemp high)) none).setPhase c
      (.erasing request high))
  | .erasing request high =>
    some ((s.setLocked c high 0).setPhase c (request.next high .storing .outside))
  | .aborted _ _ => none

def acquireGlobalMemoryLock (s : LockSystem) (c : Nat) : Option LockSystem :=
  if s.lockingCpuId = some c then some { s with entriesCount := s.entriesCount + 1 }
  else if s.lockingCpuId = none then
    some { s with lockingCpuId := some c, entriesCount := s.entriesCount + 1 }
  -- the core waits
  else none

def releaseGlobalMemoryLock (s : LockSystem) (c : Nat) : Option LockSystem :=
  if s.lockingCpuId = some c then
    if s.entriesCount - 1 = 0 then some { s with lockingCpuId := none, entriesCount := 0 }
    else some { s with entriesCount := s.entriesCount - 1 }
  else none

def clearGlobalMemoryLock (s : LockSystem) : LockSystem :=
  { s with lockingCpuId := none, entriesCount := 0 }

def releaseEntry (s : LockSystem) (c entry : Nat) : LockSystem :=
  if s.lock entry = some c then s.setLock entry none else s

/-- The entry that one of the two fields names. -/
def releaseLocked (s : LockSystem) (c : Nat) (high : Bool) : LockSystem :=
  if s.locked c high ≠ 0 then
    releaseEntry (s.setLocked c high 0) c (T.addressHash (s.locked c high))
  else s

def unlockDanglingLocks (s : LockSystem) (c : Nat) : LockSystem :=
  let s := if s.lockingCpuId = some c then clearGlobalMemoryLock s else s
  releaseLocked T (releaseLocked T s c false) c true

inductive LockEvent where
  | start (request : LockRequest)
  | advance
  | acquire
  | release
  | fault
deriving DecidableEq, Repr

def lockStep (s : LockSystem) (c : Nat) : LockEvent → Option LockSystem
  | .start request =>
    if (s.core c).phase = .outside then some (s.setPhase c (.swapping request false)) else none
  | .advance => advance T s c
  | .acquire => acquireGlobalMemoryLock s c
  | .release => releaseGlobalMemoryLock s c
  | .fault => some ((unlockDanglingLocks T s c).setPhase c .outside)

def lockStart : LockSystem where
  lock _ := none
  core _ := { phase := .outside, lockedAddress := 0, lockedAddressHigh := 0 }
  lockingCpuId := none
  entriesCount := 0

def LockEvent.Hashed : LockEvent → Prop
  | .start request => request.Hashed T
  | _ => True

/-- Runs of any interleaving of the steps of a number of cores, which find the helpers' entries. -/
inductive LockRun (cores : Nat) (Allowed : LockSystem → Nat → LockEvent → Prop) : LockSystem → Prop
  | start : LockRun cores Allowed lockStart
  | step {s s' : LockSystem} {c : Nat} {e : LockEvent} : LockRun cores Allowed s → c < cores →
      e.Hashed T → Allowed s c e → lockStep T s c e = some s' → LockRun cores Allowed s'

end Tlib.Atomic
