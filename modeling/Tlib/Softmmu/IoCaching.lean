import Mathlib.Algebra.Group.Nat.Defs
import Mathlib.Data.List.Nodup
import Mathlib.Tactic.Common

/-!
Contract: the cache of I/O accesses.

Owns: the descriptors of cached addresses, the reads and writes that they answer, and the accesses
that reach the device.
-/

namespace Tlib.Softmmu.IoCaching

structure CachedAccessDescriptor where
  (address accessCount notCachedCount cachedCount previousValue : BitVec 64)
deriving DecidableEq, Repr

/-- The fields of the CPU that the caches use; a pointer into a queue is a position. -/
structure CachingState where
  (readCache writeCache : List CachedAccessDescriptor)
  (lastCrd lastCwd : Option Nat)
  (previousIoAccessReadAddress previousIoAccessReadValue : BitVec 64)
  flushCacheDescriptors : Bool
deriving DecidableEq, Repr

/-- The CPU is allocated with zeros. -/
def initialState : CachingState where
  readCache := []
  writeCache := []
  lastCrd := none
  lastCwd := none
  previousIoAccessReadAddress := 0
  previousIoAccessReadValue := 0
  flushCacheDescriptors := false

def pointee (cache : List CachedAccessDescriptor) (pointer : Option Nat) :
    Option (Nat × CachedAccessDescriptor) :=
  pointer.bind fun i => cache[i]?.map (i, ·)

/-- `QTAILQ_FOREACH` up to the address. -/
def search (cache : List CachedAccessDescriptor) (addr : BitVec 64) :
    Option (Nat × CachedAccessDescriptor) :=
  pointee cache (cache.findIdx? (·.address = addr))

def findDescriptor (cache : List CachedAccessDescriptor) (last : Option Nat)
    (addr : BitVec 64) : Option (Nat × CachedAccessDescriptor) :=
  match pointee cache last with
  | some (i, d) => if d.address = addr then some (i, d) else search cache addr
  | none => search cache addr

namespace CachedAccessDescriptor

def counted (d : CachedAccessDescriptor) : CachedAccessDescriptor :=
  { d with accessCount := d.accessCount + 1 }

def restarted (d : CachedAccessDescriptor) : CachedAccessDescriptor :=
  if 0 < d.cachedCount ∧ d.accessCount = d.notCachedCount + d.cachedCount then
    { d with accessCount := 0 }
  else d

def IsCached (d : CachedAccessDescriptor) : Prop :=
  d.cachedCount = 0 ∨ d.accessCount < d.notCachedCount + d.cachedCount

instance (d : CachedAccessDescriptor) : Decidable d.IsCached := inferInstanceAs (Decidable (_ ∨ _))

def cleared (d : CachedAccessDescriptor) : CachedAccessDescriptor := { d with accessCount := 0 }

def withValue (d : CachedAccessDescriptor) (value : BitVec 64) : CachedAccessDescriptor :=
  { d with previousValue := value }

def read (crd : CachedAccessDescriptor) (previous : Option (BitVec 64)) :
    Option (BitVec 64) × CachedAccessDescriptor :=
  let crd := crd.counted.withValue (previous.getD crd.previousValue)
  if crd.accessCount ≤ crd.notCachedCount then (none, crd)
  else
    let crd := crd.restarted
    if crd.IsCached then (some crd.previousValue, crd) else (none, crd)

def write (cwd : CachedAccessDescriptor) (val : BitVec 64) : Bool × CachedAccessDescriptor :=
  let cwd := cwd.counted
  if cwd.accessCount ≤ cwd.notCachedCount then (false, cwd)
  else
    let cwd := cwd.restarted
    if cwd.IsCached ∧ cwd.previousValue = val then (true, cwd)
    else (false, cwd.withValue val)

end CachedAccessDescriptor

/-- The bits of `DATA_TYPE`. -/
abbrev dataBits (shift : Fin 4) : Nat := 8 * 2 ^ shift.val

namespace CachingState

variable {W : Nat}

/-- `target_ulong` as `uint64_t` -/
abbrev wide (x : BitVec W) : BitVec 64 := x.setWidth 64

/-- `*res` where the read is answered. -/
def tryCachedAccessRead (s : CachingState) (shift : Fin 4) (addr : BitVec W) :
    Option (BitVec (dataBits shift)) × CachingState :=
  if s.readCache = [] then (none, s)
  else
    match findDescriptor s.readCache s.lastCrd (wide addr) with
    | none =>
      (none, if s.flushCacheDescriptors then
        { s with
          readCache := s.readCache.map CachedAccessDescriptor.cleared
          flushCacheDescriptors := false }
      else s)
    | some (i, crd) =>
      let (res, crd) := crd.read (if wide addr = s.previousIoAccessReadAddress then
        some s.previousIoAccessReadValue else none)
      (res.map (·.setWidth (dataBits shift)), { s with
        readCache := s.readCache.set i crd
        lastCrd := some i
        flushCacheDescriptors := true })

/-- Whether the write is left out; `val` is a `target_ulong` here. -/
def tryCachedAccessWrite (s : CachingState) (addr val : BitVec W) : Bool × CachingState :=
  if s.writeCache = [] then (false, s)
  else
    match findDescriptor s.writeCache s.lastCwd (wide addr) with
    | none =>
      (false, if s.flushCacheDescriptors then
        { s with
          writeCache := s.writeCache.map CachedAccessDescriptor.cleared
          flushCacheDescriptors := false }
      else s)
    | some (i, cwd) =>
      let (suppressed, cwd) := cwd.write (wide val)
      (suppressed, { s with
        writeCache := s.writeCache.set i cwd
        lastCwd := some i
        flushCacheDescriptors := true })

/-- The I/O access of `__inner_ld`; `answer` is what `io_read` would return. -/
def innerLd (s : CachingState) (shift : Fin 4) (addr : BitVec W)
    (answer : BitVec (dataBits shift)) : BitVec (dataBits shift) × Bool × CachingState :=
  match s.tryCachedAccessRead shift addr with
  | (some res, s) => (res, true, s)
  | (none, s) =>
    (answer, false, { s with
      previousIoAccessReadAddress := wide addr
      previousIoAccessReadValue := answer.setWidth 64 })

/-- The I/O access of `__inner_st`: whether `io_write` is left out. -/
def innerSt (s : CachingState) (shift : Fin 4) (addr : BitVec W)
    (val : BitVec (dataBits shift)) : Bool × CachingState :=
  s.tryCachedAccessWrite addr (val.setWidth W)

/-- `configure_read_caching` and `configure_write_caching`, on their queues. -/
def configure (cache : List CachedAccessDescriptor)
    (address lowerAddressCount upperAddressCount : BitVec 64) : List CachedAccessDescriptor :=
  match search cache address with
  | some (i, d) => cache.set i
      { d with
        notCachedCount := lowerAddressCount
        cachedCount := upperAddressCount
        accessCount := 0 }
  | none => cache ++
      [{ accessCount := 0
         address := address
         notCachedCount := lowerAddressCount
         cachedCount := upperAddressCount
         previousValue := 0 }]

end CachingState

/-- What happens to the I/O of a CPU; slow accesses are the pieces of unaligned ones. -/
inductive IoCall (W : Nat) where
  | load (shift : Fin 4) (addr : BitVec W) (answer : BitVec (dataBits shift))
  | store (shift : Fin 4) (addr : BitVec W) (val : BitVec (dataBits shift))
  | slowLoad (shift : Fin 4) (addr : BitVec W) (answer : BitVec (dataBits shift))
  | slowStore (shift : Fin 4) (addr : BitVec W) (val : BitVec (dataBits shift))
  | configureReadCaching (address lowerAddressCount upperAddressCount : BitVec 64)
  | configureWriteCaching (address lowerAddressCount upperAddressCount : BitVec 64)

/-- An access as the guest sees it, and whether the device saw it. -/
structure IoEvent where
  isWrite : Bool
  (address value : BitVec 64)
  cached : Bool
deriving DecidableEq, Repr

open CachingState List Option Or

section Runs

variable {W : Nat}

def step (s : CachingState) : IoCall W → CachingState × List IoEvent
  | .load shift addr answer =>
    let (res, cached, s) := s.innerLd shift addr answer
    (s, [⟨false, wide addr, res.setWidth 64, cached⟩])
  | .store shift addr val =>
    let (cached, s) := s.innerSt shift addr val
    (s, [⟨true, wide addr, val.setWidth 64, cached⟩])
  | .slowLoad _ addr answer => (s, [⟨false, wide addr, answer.setWidth 64, false⟩])
  | .slowStore _ addr val => (s, [⟨true, wide addr, val.setWidth 64, false⟩])
  | .configureReadCaching address lower upper =>
    ({ s with readCache := configure s.readCache address lower upper }, [])
  | .configureWriteCaching address lower upper =>
    ({ s with writeCache := configure s.writeCache address lower upper }, [])

/-- The states of a run of allowed calls, with the events, the last one first. -/
inductive Reached (Allowed : CachingState → List IoEvent → IoCall W → Prop) :
    CachingState → List IoEvent → Prop
  | start : Reached Allowed initialState []
  | step {s : CachingState} {log : List IoEvent} (call : IoCall W) :
      Reached Allowed s log → Allowed s log call →
      Reached Allowed (step s call).1 ((step s call).2 ++ log)

end Runs

def IoEvent.At (isWrite : Bool) (address : BitVec 64) (e : IoEvent) : Bool :=
  e.isWrite = isWrite ∧ e.address = address

def lastAtDevice (isWrite : Bool) (address : BitVec 64) (log : List IoEvent) : Option (BitVec 64) :=
  (log.find? fun e => e.At isWrite address && !e.cached).map IoEvent.value

def lastAccess (isWrite : Bool) (address : BitVec 64) (log : List IoEvent) : Option (BitVec 64) :=
  (log.find? (IoEvent.At isWrite address)).map IoEvent.value

def served (isWrite : Bool) (address : BitVec 64) (log : List IoEvent) : Nat :=
  ((log.filter (IoEvent.At isWrite address)).takeWhile IoEvent.cached).length

def CachingState.cache (s : CachingState) : Bool → List CachedAccessDescriptor
  | false => s.readCache
  | true => s.writeCache

/-- A cached access has the value that the device last saw, and is not one too many. -/
def Transparent {W : Nat} (s : CachingState) (log : List IoEvent) (call : IoCall W) : Prop :=
  ∀ e ∈ (step s call).2, e.cached = true → lastAtDevice e.isWrite e.address log = some e.value ∧
      ∃ d ∈ s.cache e.isWrite, d.address = e.address ∧
        (d.cachedCount = 0 ∨ served e.isWrite e.address log + 1 ≤ d.cachedCount.toNat)

namespace CachedAccessDescriptor

def NextCached (d : CachedAccessDescriptor) : Prop :=
  d.notCachedCount < d.accessCount + 1 ∧
    (d.cachedCount = 0 ∨ d.accessCount + 1 ≤ d.notCachedCount + d.cachedCount)

instance (d : CachedAccessDescriptor) : Decidable d.NextCached :=
  inferInstanceAs (Decidable (_ ∧ _))

def AtFirstCached (d : CachedAccessDescriptor) : Prop := d.accessCount = d.notCachedCount

instance (d : CachedAccessDescriptor) : Decidable d.AtFirstCached :=
  inferInstanceAs (Decidable (_ = _))

end CachedAccessDescriptor

def CachingState.held (s : CachingState) (d : CachedAccessDescriptor) : BitVec 64 :=
  if d.address = s.previousIoAccessReadAddress then s.previousIoAccessReadValue
  else d.previousValue

/-- The caches are asked in the order that they are made for. -/
def Faithful {W : Nat} (s : CachingState) (log : List IoEvent) : IoCall W → Prop
  | .load shift addr _ => ∀ d ∈ s.readCache, d.address = wide addr → d.NextCached →
      (d.AtFirstCached → s.previousIoAccessReadAddress = wide addr) ∧
        (s.held d).toNat < 2 ^ dataBits shift
  | .store _ addr val => ∀ d ∈ s.writeCache, d.address = wide addr → d.NextCached →
      val.toNat < 2 ^ W ∧ (d.AtFirstCached → d.previousValue = val.setWidth 64 →
          lastAccess true (wide addr) log = some (val.setWidth 64))
  | .slowLoad _ addr answer => ∀ d ∈ s.readCache, d.address = wide addr → d.NextCached →
      lastAtDevice false (wide addr) log = some (answer.setWidth 64)
  | .slowStore _ addr val => ∀ d ∈ s.writeCache, d.address = wide addr → d.NextCached →
      d.AtFirstCached ∨ d.previousValue = val.setWidth 64
  | .configureReadCaching _ lower _ | .configureWriteCaching _ lower _ => lower ≠ 0

instance {W : Nat} (s : CachingState) (log : List IoEvent) (call : IoCall W) :
    Decidable (Faithful s log call) :=
  match call with
  | .load _ _ _ => inferInstanceAs (Decidable (∀ d ∈ s.readCache, _))
  | .store _ _ _ => inferInstanceAs (Decidable (∀ d ∈ s.writeCache, _))
  | .slowLoad _ _ _ => inferInstanceAs (Decidable (∀ d ∈ s.readCache, _))
  | .slowStore _ _ _ => inferInstanceAs (Decidable (∀ d ∈ s.writeCache, _))
  | .configureReadCaching _ _ _ => inferInstanceAs (Decidable (_ ≠ _))
  | .configureWriteCaching _ _ _ => inferInstanceAs (Decidable (_ ≠ _))

section Queues

variable {cache : List CachedAccessDescriptor} {i : Nat} {d v x : CachedAccessDescriptor}
  {addr : BitVec 64}

theorem pointee_eq_some {pointer : Option Nat} (found : pointee cache pointer = some (i, d)) :
    cache[i]? = some d := by
  obtain ⟨j, -, mapped⟩ := bind_eq_some_iff.mp found
  obtain ⟨other, here, same⟩ := map_eq_some_iff.mp mapped
  obtain ⟨rfl, rfl⟩ := Prod.mk.inj same
  exact here

theorem search_eq_some (found : search cache addr = some (i, d)) :
    cache[i]? = some d ∧ d.address = addr := by
  have here := pointee_eq_some found
  obtain ⟨j, first, mapped⟩ := bind_eq_some_iff.mp found
  obtain ⟨other, there, same⟩ := map_eq_some_iff.mp mapped
  obtain ⟨rfl, rfl⟩ := Prod.mk.inj same
  obtain ⟨below, equal, -⟩ := findIdx?_eq_some_iff_getElem.mp first
  obtain ⟨_, get⟩ := List.getElem?_eq_some_iff.mp there
  rw [get] at equal
  exact ⟨here, of_decide_eq_true equal⟩

theorem search_eq_none (missing : search cache addr = none) : ∀ d ∈ cache, d.address ≠ addr := by
  unfold search pointee at missing
  cases first : cache.findIdx? (·.address = addr) with
  | none =>
    intro d member same
    have other := findIdx?_eq_none_iff.mp first d member
    exact absurd same (of_decide_eq_false other)
  | some j =>
    obtain ⟨below, -, -⟩ := findIdx?_eq_some_iff_getElem.mp first
    rw [first, bind_some, List.getElem?_eq_getElem below] at missing
    exact absurd missing (by simp)

theorem findDescriptor_eq_some {last : Option Nat}
    (found : findDescriptor cache last addr = some (i, d)) :
    cache[i]? = some d ∧ d.address = addr := by
  unfold findDescriptor at found
  cases pointed : pointee cache last with
  | none =>
    rw [pointed] at found
    exact search_eq_some found
  | some pair =>
    rw [pointed] at found
    dsimp only at found
    split_ifs at found with same
    · obtain ⟨rfl, rfl⟩ := Prod.mk.inj (some.inj found)
      exact ⟨pointee_eq_some pointed, same⟩
    · exact search_eq_some found

theorem findDescriptor_eq_none {last : Option Nat}
    (missing : findDescriptor cache last addr = none) : ∀ d ∈ cache, d.address ≠ addr := by
  unfold findDescriptor at missing
  cases pointed : pointee cache last with
  | none =>
    rw [pointed] at missing
    exact search_eq_none missing
  | some pair =>
    rw [pointed] at missing
    dsimp only at missing
    split_ifs at missing with same
    exact search_eq_none missing

def Distinct (cache : List CachedAccessDescriptor) : Prop :=
  (cache.map CachedAccessDescriptor.address).Nodup

section

variable (distinct : Distinct cache)

include distinct

theorem Distinct.set (here : cache[i]? = some d)
    (same : v.address = d.address) : Distinct (cache.set i v) := by
  have addresses : (cache.set i v).map CachedAccessDescriptor.address =
      cache.map CachedAccessDescriptor.address := by
    apply ext_getElem?
    intro j
    rw [List.getElem?_map, List.getElem?_map, List.getElem?_set]
    split_ifs with equal below
    · rw [← equal, here, map_some, map_some, same]
    · rw [← equal, List.getElem?_eq_none (Nat.le_of_not_lt below)]
    · rfl
  unfold Distinct
  rw [addresses]
  exact distinct

theorem Distinct.mem_set (here : cache[i]? = some d)
    (member : x ∈ cache.set i v) : x = v ∨ x ∈ cache ∧ x.address ≠ d.address := by
  obtain ⟨below, get⟩ := List.getElem?_eq_some_iff.mp here
  obtain ⟨j, less, at_j⟩ := mem_iff_getElem.mp member
  rw [length_set] at less
  rw [getElem_set] at at_j
  split_ifs at at_j with equal
  · exact inl at_j.symm
  · right
    refine ⟨at_j ▸ getElem_mem less, ?_⟩
    intro same
    have addresses : (cache.map CachedAccessDescriptor.address)[i]? =
        (cache.map CachedAccessDescriptor.address)[j]? := by
      rw [List.getElem?_map, List.getElem?_map, here, List.getElem?_eq_getElem less, at_j,
        map_some, map_some, same]
    exact equal ((List.getElem?_inj (by rw [length_map]; exact below) distinct).mp addresses)

theorem Distinct.cleared : Distinct (cache.map CachedAccessDescriptor.cleared) := by
  unfold Distinct
  rw [List.map_map]
  exact distinct

theorem Distinct.configure (address lower upper : BitVec 64) :
    Distinct (configure cache address lower upper) ∧ ∀ x ∈ configure cache address lower upper,
        x.accessCount = 0 ∧ x.notCachedCount = lower ∨ x ∈ cache := by
  unfold CachingState.configure
  cases found : search cache address with
  | none =>
    have missing := search_eq_none found
    constructor
    · unfold Distinct
      rw [map_append, nodup_append]
      refine ⟨distinct, by simp, ?_⟩
      intro a member b new
      obtain ⟨d, inside, rfl⟩ := List.mem_map.mp member
      rw [map_singleton, mem_singleton] at new
      rw [new]
      exact missing d inside
    · intro x member
      obtain old | new := mem_append.mp member
      · exact inr old
      · rw [mem_singleton.mp new]
        exact inl ⟨rfl, rfl⟩
  | some pair =>
    obtain ⟨here, -⟩ := search_eq_some found
    refine ⟨distinct.set here rfl, ?_⟩
    intro x member
    obtain rfl | old := distinct.mem_set here member
    · exact inl ⟨rfl, rfl⟩
    · exact inr old.1

end

end Queues

namespace CachedAccessDescriptor

def advanced (d : CachedAccessDescriptor) : CachedAccessDescriptor :=
  if d.counted.accessCount ≤ d.counted.notCachedCount then d.counted else d.counted.restarted

variable {d : CachedAccessDescriptor}

theorem restarted_fields (d : CachedAccessDescriptor) :
    d.restarted.address = d.address ∧ d.restarted.notCachedCount = d.notCachedCount ∧
      d.restarted.cachedCount = d.cachedCount ∧ d.restarted.previousValue = d.previousValue := by
  unfold restarted
  split_ifs <;> exact ⟨rfl, rfl, rfl, rfl⟩

theorem advanced_fields (d : CachedAccessDescriptor) :
    d.advanced.address = d.address ∧ d.advanced.notCachedCount = d.notCachedCount ∧
      d.advanced.cachedCount = d.cachedCount ∧ d.advanced.previousValue = d.previousValue := by
  unfold advanced
  split_ifs
  · exact ⟨rfl, rfl, rfl, rfl⟩
  · exact d.counted.restarted_fields

theorem restarted_isCached (past : ¬ d.counted.accessCount ≤ d.counted.notCachedCount) :
    d.counted.restarted.IsCached ↔ d.NextCached := by
  have less : d.notCachedCount < d.accessCount + 1 := BitVec.not_le.mp past
  unfold restarted IsCached NextCached
  split_ifs with last
  · simp only [counted] at last ⊢
    constructor
    · exact fun _ => ⟨less, inr (by bv_omega)⟩
    · exact fun _ => inr (by bv_omega)
  · simp only [counted] at last ⊢
    constructor
    · exact fun cached => ⟨less, cached.imp_right (by bv_omega)⟩
    · rintro ⟨-, none | some⟩
      · exact inl none
      · by_cases none : d.cachedCount = 0
        · exact inl none
        · exact inr (by bv_omega)

theorem restarted_withValue (d : CachedAccessDescriptor) (value : BitVec 64) :
    (d.withValue value).restarted = d.restarted.withValue value := by
  unfold restarted withValue
  split_ifs <;> rfl

theorem not_nextCached_of_le (uncached : d.counted.accessCount ≤ d.counted.notCachedCount) :
    ¬ d.NextCached :=
  fun next => BitVec.not_le.mpr next.1 uncached

theorem read_spec (d : CachedAccessDescriptor) (previous : Option (BitVec 64)) :
    (d.read previous).1 = (if d.NextCached then some (previous.getD d.previousValue) else none) ∧
      (d.read previous).2 = d.advanced.withValue (previous.getD d.previousValue) := by
  unfold read advanced
  by_cases uncached : d.counted.accessCount ≤ d.counted.notCachedCount
  · have uncachedWith : (d.counted.withValue (previous.getD d.previousValue)).accessCount ≤
        (d.counted.withValue (previous.getD d.previousValue)).notCachedCount := uncached
    rw [if_pos uncachedWith, if_pos uncached, if_neg (not_nextCached_of_le uncached)]
    exact ⟨rfl, rfl⟩
  · have pastWith : ¬ (d.counted.withValue (previous.getD d.previousValue)).accessCount ≤
        (d.counted.withValue (previous.getD d.previousValue)).notCachedCount := uncached
    have cached : (d.counted.restarted.withValue (previous.getD d.previousValue)).IsCached ↔
        d.NextCached := restarted_isCached uncached
    rw [if_neg pastWith, if_neg uncached, restarted_withValue]
    by_cases next : d.NextCached
    · rw [if_pos next, if_pos (cached.mpr next)]
      exact ⟨rfl, rfl⟩
    · rw [if_neg next, if_neg (mt cached.mp next)]
      exact ⟨rfl, rfl⟩

theorem write_spec (d : CachedAccessDescriptor) (val : BitVec 64) :
    ((d.write val).1 = true ↔ d.NextCached ∧ d.previousValue = val) ∧
      (d.write val).2 = d.advanced.withValue
        (if d.notCachedCount < d.accessCount + 1 then val else d.previousValue) := by
  unfold write advanced
  by_cases uncached : d.counted.accessCount ≤ d.counted.notCachedCount
  · have notPast : ¬ d.notCachedCount < d.accessCount + 1 := BitVec.not_lt.mpr uncached
    rw [if_pos uncached, if_pos uncached, if_neg notPast]
    exact ⟨iff_of_false (by simp) fun both => not_nextCached_of_le uncached both.1, rfl⟩
  · have past : d.notCachedCount < d.accessCount + 1 := BitVec.not_le.mp uncached
    have value : d.counted.restarted.previousValue = d.previousValue :=
      d.counted.restarted_fields.2.2.2
    have cached : d.counted.restarted.IsCached ∧ d.counted.restarted.previousValue = val ↔
        d.NextCached ∧ d.previousValue = val := by
      rw [restarted_isCached uncached, value]
    rw [if_neg uncached, if_neg uncached, if_pos past]
    by_cases both : d.counted.restarted.IsCached ∧ d.counted.restarted.previousValue = val
    · rw [if_pos both]
      refine ⟨iff_of_true rfl (cached.mp both), ?_⟩
      rw [← both.2]
      rfl
    · rw [if_neg both]
      exact ⟨iff_of_false (by simp) (mt cached.mpr both), rfl⟩

theorem advanced_nextCached (uncached : d.notCachedCount ≠ 0) (next : d.advanced.NextCached) :
    ¬ d.NextCached ∧ d.advanced.AtFirstCached ∨ d.NextCached ∧ ¬ d.advanced.AtFirstCached ∧
        d.advanced.accessCount.toNat = d.accessCount.toNat + 1 := by
  unfold NextCached AtFirstCached at *
  unfold advanced restarted counted at *
  split_ifs at * with first last
  · left
    constructor <;> bv_omega
  · bv_omega
  · right
    refine ⟨⟨by bv_omega, ?_⟩, by bv_omega, by bv_omega⟩
    exact next.2.imp_right (by bv_omega)

theorem NextCached.le (next : d.NextCached) : d.notCachedCount.toNat ≤ d.accessCount.toNat := by
  have less := next.1
  bv_omega

theorem NextCached.room (next : d.NextCached) : d.cachedCount = 0 ∨
    d.accessCount.toNat - d.notCachedCount.toNat + 1 ≤ d.cachedCount.toNat := by
  obtain ⟨less, none | le⟩ := next
  · exact inl none
  · exact inr (by bv_omega)

end CachedAccessDescriptor

section Accesses

variable {W : Nat} {s : CachingState} {addr : BitVec W}

theorem tryCachedAccessRead_spec (s : CachingState) (shift : Fin 4) (addr : BitVec W) :
    ∃ cache last flush, (s.tryCachedAccessRead shift addr).2 =
        { s with readCache := cache, lastCrd := last, flushCacheDescriptors := flush } ∧
      ((∀ d ∈ s.readCache, d.address ≠ wide addr) ∧ (s.tryCachedAccessRead shift addr).1 = none ∧
          (cache = s.readCache ∨ cache = s.readCache.map CachedAccessDescriptor.cleared) ∨
        ∃ i d, s.readCache[i]? = some d ∧ d.address = wide addr ∧
          cache = s.readCache.set i (d.advanced.withValue (s.held d)) ∧
          (s.tryCachedAccessRead shift addr).1 =
            if d.NextCached then some ((s.held d).setWidth (dataBits shift)) else none) := by
  unfold tryCachedAccessRead
  by_cases empty : s.readCache = []
  · rw [if_pos empty]
    refine ⟨_, _, _, rfl, inl ⟨?_, rfl, inl rfl⟩⟩
    rw [empty]
    exact fun d member => absurd member not_mem_nil
  · rw [if_neg empty]
    cases found : findDescriptor s.readCache s.lastCrd (wide addr) with
    | none =>
      have missing := findDescriptor_eq_none found
      dsimp only
      split_ifs with flush
      · exact ⟨_, _, _, rfl, inl ⟨missing, rfl, inr rfl⟩⟩
      · exact ⟨_, _, _, rfl, inl ⟨missing, rfl, inl rfl⟩⟩
    | some pair =>
      obtain ⟨i, d⟩ := pair
      obtain ⟨here, same⟩ := findDescriptor_eq_some found
      have held : (if wide addr = s.previousIoAccessReadAddress then
          some s.previousIoAccessReadValue else none).getD d.previousValue = s.held d := by
        rw [held, same]
        split_ifs <;> rfl
      obtain ⟨value, after⟩ := d.read_spec (if wide addr = s.previousIoAccessReadAddress then
          some s.previousIoAccessReadValue else none)
      rw [held] at value after
      refine ⟨_, _, _, rfl, inr ⟨i, d, here, same, ?_, ?_⟩⟩
      · rw [after]
      · dsimp only
        rw [value]
        split_ifs <;> rfl

theorem tryCachedAccessWrite_spec (s : CachingState) (addr val : BitVec W) :
    ∃ cache last flush, (s.tryCachedAccessWrite addr val).2 =
        { s with writeCache := cache, lastCwd := last, flushCacheDescriptors := flush } ∧
      ((∀ d ∈ s.writeCache, d.address ≠ wide addr) ∧ (s.tryCachedAccessWrite addr val).1 = false ∧
          (cache = s.writeCache ∨ cache = s.writeCache.map CachedAccessDescriptor.cleared) ∨
        ∃ i d, s.writeCache[i]? = some d ∧ d.address = wide addr ∧
          cache = s.writeCache.set i (d.advanced.withValue
            (if d.notCachedCount < d.accessCount + 1 then wide val else d.previousValue)) ∧
          ((s.tryCachedAccessWrite addr val).1 = true ↔
            d.NextCached ∧ d.previousValue = wide val)) := by
  unfold tryCachedAccessWrite
  by_cases empty : s.writeCache = []
  · rw [if_pos empty]
    refine ⟨_, _, _, rfl, inl ⟨?_, rfl, inl rfl⟩⟩
    rw [empty]
    exact fun d member => absurd member not_mem_nil
  · rw [if_neg empty]
    cases found : findDescriptor s.writeCache s.lastCwd (wide addr) with
    | none =>
      have missing := findDescriptor_eq_none found
      split_ifs with flush
      · exact ⟨_, _, _, rfl, inl ⟨missing, rfl, inr rfl⟩⟩
      · exact ⟨_, _, _, rfl, inl ⟨missing, rfl, inl rfl⟩⟩
    | some pair =>
      obtain ⟨i, d⟩ := pair
      obtain ⟨here, same⟩ := findDescriptor_eq_some found
      obtain ⟨suppressed, after⟩ := d.write_spec (wide val)
      refine ⟨_, _, _, rfl, inr ⟨i, d, here, same, ?_, suppressed⟩⟩
      rw [after]

end Accesses

end Tlib.Softmmu.IoCaching
