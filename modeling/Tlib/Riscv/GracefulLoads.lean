import Tlib.Library.ByteElements

/-!
Contract: loads of the software MMU for RISC-V, with and without a place for errors.

Owns: the path of a load through `tlb_fill` and accesses over two pages.
-/

namespace Tlib.Riscv.Vector

open Tlib.Library.ByteElements BitVec List Option

variable {xlen : Nat}

/-- An exception that leaves a helper, with `badaddr` if it is set. -/
structure Raised (xlen : Nat) where
  exceptionIndex : Int
  badaddr : Option (BitVec xlen)
  deriving DecidableEq, Repr

def excpNone : Int := -1

/-- `RISCV_EXCP_ILLEGAL_INST` -/
def excpIllegalInst : Int := 2

/-- `RISCV_EXCP_LOAD_ADDR_MIS` -/
def excpLoadAddrMis : Int := 4

/-- `RISCV_EXCP_LOAD_ACCESS_FAULT` -/
def excpLoadAccessFault : Int := 5

/-- `RISCV_EXCP_LOAD_PAGE_FAULT` -/
def excpLoadPageFault : Int := 13

/-- What the loads of a hart can reach. -/
structure MemoryMap (xlen : Nat) where
  /-- `TRANSLATE_SUCCESS` for a load of some bytes, with the memory protection. -/
  translates : BitVec xlen → Nat → Bool
  mmio : BitVec xlen → Bool
  contents : BitVec xlen → BitVec 8
  (allowUnalignedAccesses pageFaultExceptions : Bool)

namespace MemoryMap

variable (map : MemoryMap xlen)

/-- `raise_mmu_exception` for a load. -/
def raiseMmuException (address : BitVec xlen) : Raised xlen :=
  ⟨if map.pageFaultExceptions then excpLoadPageFault else excpLoadAccessFault, some address⟩

/-- `cpu_handle_mmu_fault`, whose exception stays pending. -/
def cpuHandleMmuFault (address : BitVec xlen) (accessWidth : Nat) (noPageFault : Bool) :
    Bool × Option (Raised xlen) :=
  if map.translates address accessWidth then (true, none)
  else (false, if noPageFault then none else some (map.raiseMmuException address))

/-- `tlb_fill`, which reports a failure unless it raises it. -/
def tlbFill (address : BitVec xlen) (accessWidth : Nat) (noPageFault : Bool) :
    Except (Raised xlen) Bool :=
  match map.cpuHandleMmuFault address accessWidth noPageFault with
  | (true, _) => .ok true
  | (false, some raised) => .error raised
  | (false, none) => .ok false

/-- `ld_raw` -/
def raw (n : Nat) (address : BitVec xlen) : BitVec n :=
  load n (fun k => map.contents (address + BitVec.ofNat xlen k)) 0

/-- `addr & (DATA_SIZE - 1)` -/
def offset (size : Nat) (address : BitVec xlen) : Nat := address.toNat % size

/-- `addr1`, the aligned address in front of an access. -/
def addr1 (size : Nat) (address : BitVec xlen) : BitVec xlen :=
  address - BitVec.ofNat xlen (offset size address)

def addr2 (size : Nat) (address : BitVec xlen) : BitVec xlen :=
  addr1 size address + BitVec.ofNat xlen size

/-- The access spans two pages, or it is an unaligned one to a device. -/
def splits (size : Nat) (address : BitVec xlen) : Bool :=
  (map.mmio address && decide (offset size address ≠ 0)) ||
    decide (4096 ≤ address.toNat % 4096 + size - 1)

/-- `slow_ld_err` of an aligned part. -/
def slowPart (n : Nat) (err : Bool) (address : BitVec xlen) :
    Except (Raised xlen) (BitVec n × Bool) :=
  (map.tlbFill address (n / 8) err).map fun filled =>
    if filled then (map.raw n address, false) else (allOnes n, true)

/-- `slow_ld_err` of an access in two parts. -/
def slowLd (n : Nat) (err : Bool) (address : BitVec xlen) :
    Except (Raised xlen) (BitVec n × Bool) := do
  let res1 ← map.slowPart n err (addr1 (n / 8) address)
  let res2 ← map.slowPart n err (addr2 (n / 8) address)
  let shift := offset (n / 8) address * 8
  return (res1.1 >>> shift ||| res2.1 <<< (n - shift), res1.2 || res2.2)

/-- The access is unaligned and unaligned accesses are not allowed. -/
def misaligned (size : Nat) (address : BitVec xlen) : Bool :=
  offset size address ≠ 0 && !map.allowUnalignedAccesses

/-- `inner_ld_err`; `err` says that the caller has a place for errors. -/
def innerLd (n : Nat) (err : Bool) (address : BitVec xlen) :
    Except (Raised xlen) (BitVec n × Bool) :=
  if map.misaligned (n / 8) address then .error ⟨excpLoadAddrMis, some address⟩
  else do
    let filled ← map.tlbFill address (n / 8) err
    if filled then
      if map.splits (n / 8) address then map.slowLd n err address
      else return (map.raw n address, false)
    else return (allOnes n, true)

def parts (size : Nat) (address : BitVec xlen) : List (BitVec xlen) :=
  address :: if map.splits size address then [addr1 size address, addr2 size address] else []

def exception (size : Nat) (address : BitVec xlen) : Option (Raised xlen) :=
  if map.misaligned size address then some ⟨excpLoadAddrMis, some address⟩
  else ((map.parts size address).find? fun part => !map.translates part size).map
    map.raiseMmuException

variable {map} {n : Nat} {address : BitVec xlen}

theorem raw_add (whole : 8 ∣ n) (address : BitVec xlen) (k : Nat) :
    map.raw n (address + BitVec.ofNat xlen k) =
      load n (fun j => map.contents (address + BitVec.ofNat xlen j)) k := by
  unfold raw
  apply eq_of_getLsbD_eq
  intro i below
  rw [getLsbD_load whole _ _ _ below, getLsbD_load whole _ _ _ below, Nat.zero_add, BitVec.add_assoc,
    ← ofNat_add]

theorem raw_split (whole : 8 ∣ n) (positive : 0 < n / 8) (address : BitVec xlen) :
    map.raw n (addr1 (n / 8) address) >>> (offset (n / 8) address * 8) |||
        map.raw n (addr2 (n / 8) address) <<< (n - offset (n / 8) address * 8) =
      map.raw n address := by
  have less : offset (n / 8) address < n / 8 := Nat.mod_lt _ positive
  have back : address = addr1 (n / 8) address + BitVec.ofNat xlen (offset (n / 8) address) :=
    (BitVec.sub_add_cancel _ _).symm
  unfold addr2
  generalize addr1 (n / 8) address = base at back
  have first : map.raw n (base + BitVec.ofNat xlen 0) = _ := raw_add whole base 0
  rw [BitVec.add_zero] at first
  have split := load_split whole (fun j => map.contents (base + BitVec.ofNat xlen j)) 0 less
  rw [Nat.zero_add, Nat.zero_add, ← first, ← raw_add whole, ← raw_add whole, ← back] at split
  exact split

theorem tlbFill_of_translates {size : Nat} {err : Bool}
    (translated : map.translates address size = true) :
    map.tlbFill address size err = .ok true := by
  unfold tlbFill cpuHandleMmuFault
  rw [if_pos translated]

theorem tlbFill_raises {size : Nat} (missing : map.translates address size = false) :
    map.tlbFill address size false = .error (map.raiseMmuException address) := by
  unfold tlbFill cpuHandleMmuFault
  rw [missing]
  rfl

theorem tlbFill_reports {size : Nat} (missing : map.translates address size = false) :
    map.tlbFill address size true = .ok false := by
  unfold tlbFill cpuHandleMmuFault
  rw [missing]
  rfl

theorem translates_of_exception_none {size : Nat} (none_ : map.exception size address = none) :
    map.misaligned size address = false ∧
      ∀ part ∈ map.parts size address, map.translates part size = true := by
  unfold exception at none_
  split at none_
  · cases none_
  next aligned =>
    rw [map_eq_none_iff, List.find?_eq_none] at none_
    refine ⟨by simpa using aligned, ?_⟩
    intro part member
    simpa using none_ part member

theorem slowPart_loads (err : Bool) (translated : map.translates address (n / 8) = true) :
    map.slowPart n err address = .ok (map.raw n address, false) := by
  unfold slowPart
  rw [tlbFill_of_translates translated]
  rfl

theorem innerLd_loads (whole : 8 ∣ n) (positive : 0 < n / 8) (err : Bool)
    (none_ : map.exception (n / 8) address = none) :
    map.innerLd n err address = .ok (map.raw n address, false) := by
  obtain ⟨aligned, translated⟩ := translates_of_exception_none none_
  unfold innerLd
  rw [aligned, if_neg Bool.false_ne_true, tlbFill_of_translates (translated _ mem_cons_self)]
  unfold parts at translated
  split
  next split_ =>
    rw [if_pos split_] at translated
    have first := slowPart_loads err (translated _ (mem_cons_of_mem _ mem_cons_self))
    have second := slowPart_loads err
      (translated _ (mem_cons_of_mem _ (mem_cons_of_mem _ mem_cons_self)))
    unfold slowLd
    simp only [first, second]
    change Except.ok (_, false) = _
    rw [raw_split whole positive]
  · rfl

theorem slowPart_raises (missing : map.translates address (n / 8) = false) :
    map.slowPart n false address = .error (map.raiseMmuException address) := by
  unfold slowPart
  rw [tlbFill_raises missing]
  rfl

theorem slowPart_reports (address : BitVec xlen) :
    ∃ value, map.slowPart n true address = .ok (value, !map.translates address (n / 8)) := by
  cases here : map.translates address (n / 8) with
  | false =>
    refine ⟨allOnes n, ?_⟩
    unfold slowPart
    rw [tlbFill_reports here]
    rfl
  | true => exact ⟨_, slowPart_loads true here⟩

theorem innerLd_raises {raised : Raised xlen}
    (some_ : map.exception (n / 8) address = some raised) :
    map.innerLd n false address = .error raised := by
  unfold exception at some_
  unfold innerLd
  split at some_
  next unaligned =>
    rw [if_pos unaligned]
    exact congrArg Except.error (some.inj some_)
  next aligned =>
    rw [if_neg aligned]
    obtain ⟨part, found, rfl⟩ := map_eq_some_iff.mp some_
    unfold parts at found
    cases here : map.translates address (n / 8) with
    | false =>
      rw [List.find?_cons_of_pos (by simp [here])] at found
      cases found
      rw [tlbFill_raises here]
      rfl
    | true =>
      rw [List.find?_cons_of_neg (by simp [here])] at found
      rw [tlbFill_of_translates here]
      split at found
      next split_ =>
        rw [if_pos split_]
        unfold slowLd
        cases first : map.translates (addr1 (n / 8) address) (n / 8) with
        | false =>
          rw [List.find?_cons_of_pos (by simp [first])] at found
          cases found
          rw [slowPart_raises first]
          rfl
        | true =>
          rw [List.find?_cons_of_neg (by simp [first])] at found
          rw [slowPart_loads false first]
          cases second : map.translates (addr2 (n / 8) address) (n / 8) with
          | false =>
            rw [List.find?_cons_of_pos (by simp [second])] at found
            cases found
            rw [slowPart_raises second]
            rfl
          | true =>
            rw [List.find?_cons_of_neg (by simp [second])] at found
            cases found
      · cases found

theorem innerLd_reports {raised : Raised xlen}
    (some_ : map.exception (n / 8) address = some raised) :
    if map.misaligned (n / 8) address then map.innerLd n true address = .error raised
    else ∃ value, map.innerLd n true address = .ok (value, true) := by
  unfold exception at some_
  unfold innerLd
  split at some_
  next unaligned =>
    rw [if_pos unaligned, if_pos unaligned]
    exact congrArg Except.error (some.inj some_)
  next aligned =>
    rw [if_neg aligned, if_neg aligned]
    obtain ⟨part, found, rfl⟩ := map_eq_some_iff.mp some_
    have missing := List.find?_some found
    have member := List.mem_of_find?_eq_some found
    rw [Bool.not_eq_true'] at missing
    cases here : map.translates address (n / 8) with
    | false =>
      rw [tlbFill_reports here]
      exact ⟨_, rfl⟩
    | true =>
      rw [tlbFill_of_translates here]
      rcases mem_cons.mp member with rfl | member
      · rw [here] at missing
        cases missing
      · split at member
        next split_ =>
          rw [if_pos split_]
          unfold slowLd
          have reports (part : BitVec xlen) :
              ∃ value, map.slowPart n true part = .ok (value, !map.translates part (n / 8)) :=
            slowPart_reports part
          obtain ⟨first, firstPart⟩ := reports (addr1 (n / 8) address)
          obtain ⟨second, secondPart⟩ := reports (addr2 (n / 8) address)
          rw [firstPart, secondPart]
          refine ⟨_, congrArg (fun e => Except.ok (_, e)) ?_⟩
          rw [Bool.or_eq_true_iff]
          rcases mem_cons.mp member with rfl | member
          · exact Or.inl (by rw [missing]; rfl)
          · cases mem_singleton.mp member
            exact Or.inr (by rw [missing]; rfl)
        · cases member

end MemoryMap

end Tlib.Riscv.Vector
