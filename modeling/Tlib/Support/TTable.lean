import Mathlib.Algebra.Group.Int.Defs
import Mathlib.Algebra.Group.Nat.Defs
import Tlib.Library.ExchangeSort

/-!
Contract: the translation table, an array of pairs of a key and a value.

Owns: insertion, the sort by exchanges, and the two searches, with the accesses that are out of
bounds.
-/

namespace Tlib.Support

open Tlib.Library.ExchangeSort

structure TTableEntry (κ ν : Type) where
  key : κ
  value : ν

/-- The entries are `entries[0]` to `entries[count - 1]`; there are `size` of them at most. -/
structure TTable (κ ν : Type) where
  entries : List (TTableEntry κ ν)
  size : Nat
  sorted : Bool

/-- How a call may end that does not return. -/
inductive Fault where
  | assertion
  | outOfBounds (index : Int)
deriving DecidableEq

variable {κ ν : Type}

def TTable.count (t : TTable κ ν) : Nat := t.entries.length

def entryAt (entries : List (TTableEntry κ ν)) (index : Int) : Except Fault (TTableEntry κ ν) :=
  if 0 ≤ index then
    match entries[index.toNat]? with
    | some entry => .ok entry
    | none => .error (.outOfBounds index)
  else .error (.outOfBounds index)

/-- A counter of type `int` as an index; its word is compared with `count`, which is unsigned. -/
def intIndex (i : Nat) : Int := if i < 2 ^ 31 then i else (i : Int) - 2 ^ 32

/-- `count - 1`, of type `uint32_t` -/
def predUint32 (count : Nat) : Nat := (count + (2 ^ 32 - 1)) % 2 ^ 32

section

variable (keyCompare : κ → κ → Int)

def greaterKey (a b : TTableEntry κ ν) : Bool := 0 < keyCompare a.key b.key

def sortInner (count i j : Nat) (entries : List (TTableEntry κ ν)) :
    Except Fault (List (TTableEntry κ ν)) :=
  if j < count then do
    let a ← entryAt entries (intIndex i)
    let b ← entryAt entries (intIndex j)
    sortInner count i (j + 1) (compareExchange (greaterKey keyCompare) entries i j a b)
  else return entries
termination_by count - j

def sortOuter (count bound i : Nat) (entries : List (TTableEntry κ ν)) :
    Except Fault (List (TTableEntry κ ν)) :=
  if i < bound then do
    let entries ← sortInner keyCompare count i (i + 1) entries
    sortOuter count bound (i + 1) entries
  else return entries
termination_by bound - i

def ttableSortByKeys (t : TTable κ ν) : Except Fault (TTable κ ν) := do
  let entries ← sortOuter keyCompare t.count (predUint32 t.count) 0 t.entries
  return { t with entries := entries, sorted := true }

def ttableCreate (entriesMax : Nat) : TTable κ ν where
  entries := []
  size := entriesMax
  sorted := false

def ttableInsert (t : TTable κ ν) (key : κ) (value : ν) : Except Fault (TTable κ ν) :=
  if t.count < t.size then
    let t := { t with entries := t.entries ++ [⟨key, value⟩] }
    if t.sorted then ttableSortByKeys keyCompare t else .ok t
  else .error .assertion

/-- `left`, `right` and `pivot` are of type `int64_t`. -/
def binarySearch (compare : TTableEntry κ ν → Int) (entries : List (TTableEntry κ ν))
    (left right : Int) : Except Fault (Option Nat) :=
  if left ≤ right then do
    let pivot := (left + right) / 2
    let entry ← entryAt entries pivot
    if compare entry < 0 then binarySearch compare entries (pivot + 1) right
    else if 0 < compare entry then binarySearch compare entries left (pivot - 1)
    else return some pivot.toNat
  else return none
termination_by (right + 1 - left).toNat

def linearSearch (compare : TTableEntry κ ν → Int) (entries : List (TTableEntry κ ν)) (i : Nat) :
    Except Fault (Option Nat) :=
  if i < entries.length then do
    let entry ← entryAt entries i
    if compare entry = 0 then return some i
    else linearSearch compare entries (i + 1)
  else return none
termination_by entries.length - i

/-- A comparison is the table's own one or another function. -/
inductive EntryCompare (κ ν : Type) where
  | key
  | custom (compare : TTableEntry κ ν → κ → Int)

def EntryCompare.compare (entryCompare : EntryCompare κ ν) (entry : TTableEntry κ ν) (value : κ) :
    Int :=
  match entryCompare with
  | .key => keyCompare entry.key value
  | .custom compare => compare entry value

def EntryCompare.isKey : EntryCompare κ ν → Bool
  | .key => true
  | .custom _ => false

/-- The index of an entry; a null pointer is `none`. -/
def ttableLookupCustom (t : TTable κ ν) (entryCompare : EntryCompare κ ν) (value : κ) :
    Except Fault (Option Nat) :=
  if t.sorted && entryCompare.isKey then
    binarySearch (entryCompare.compare keyCompare · value) t.entries 0 (predUint32 t.count)
  else linearSearch (entryCompare.compare keyCompare · value) t.entries 0

def ttableLookup (t : TTable κ ν) (key : κ) : Except Fault (Option Nat) :=
  ttableLookupCustom keyCompare t .key key

def ttableInsertCheck (t : TTable κ ν) (key : κ) (value : ν) : Except Fault (Bool × TTable κ ν) := do
  let found ← ttableLookup keyCompare t key
  if found.isSome then return (false, t)
  else
    let t ← ttableInsert keyCompare t key value
    return (true, t)

inductive TTableCall (κ ν : Type) where
  | insert (key : κ) (value : ν)
  | insertCheck (key : κ) (value : ν)
  | sortByKeys
  | lookupCustom (entryCompare : EntryCompare κ ν) (value : κ)

inductive TTableAnswer where
  | done
  | inserted (inserted : Bool)
  | entry (found : Option Nat)

def TTable.call (t : TTable κ ν) : TTableCall κ ν → Except Fault (TTableAnswer × TTable κ ν)
  | .insert key value => do
    let t ← ttableInsert keyCompare t key value
    return (.done, t)
  | .insertCheck key value => do
    let (inserted, t) ← ttableInsertCheck keyCompare t key value
    return (.inserted inserted, t)
  | .sortByKeys => do
    let t ← ttableSortByKeys keyCompare t
    return (.done, t)
  | .lookupCustom entryCompare value => do
    let found ← ttableLookupCustom keyCompare t entryCompare value
    return (.entry found, t)

end

end Tlib.Support
