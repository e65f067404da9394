import Tlib.Softmmu.IoCaching

/-!
Contract: runs of cached I/O accesses.

Owns: what the descriptors of the two caches know of the device after any faithful run. Does not
own: which accesses a device lets be cached.
-/

namespace Tlib.Softmmu.IoCaching

open CachingState BitVec List Or

section Logs

variable {isWrite : Bool} {address : BitVec 64} {e : IoEvent} {log : List IoEvent}

theorem lastAtDevice_cons_other (other : e.At isWrite address = false) :
    lastAtDevice isWrite address (e :: log) = lastAtDevice isWrite address log := by
  rw [lastAtDevice, List.find?_cons_of_neg (by simp [other])]
  rfl

theorem lastAtDevice_cons_cached (cached : e.cached = true) :
    lastAtDevice isWrite address (e :: log) = lastAtDevice isWrite address log := by
  rw [lastAtDevice, List.find?_cons_of_neg (by simp [cached])]
  rfl

theorem lastAtDevice_cons_device (here : e.At isWrite address = true)
    (device : e.cached = false) : lastAtDevice isWrite address (e :: log) = some e.value := by
  rw [lastAtDevice, List.find?_cons_of_pos (by simp [here, device])]
  rfl

theorem lastAccess_cons_other (other : e.At isWrite address = false) :
    lastAccess isWrite address (e :: log) = lastAccess isWrite address log := by
  rw [lastAccess, List.find?_cons_of_neg (by simp [other])]
  rfl

theorem lastAccess_cons_here (here : e.At isWrite address = true) :
    lastAccess isWrite address (e :: log) = some e.value := by
  rw [lastAccess, List.find?_cons_of_pos here]
  rfl

theorem served_cons_other (other : e.At isWrite address = false) :
    served isWrite address (e :: log) = served isWrite address log := by
  rw [served, filter_cons_of_neg (by simp [other])]
  rfl

theorem served_cons_cached (here : e.At isWrite address = true) (cached : e.cached = true) :
    served isWrite address (e :: log) = served isWrite address log + 1 := by
  rw [served, filter_cons_of_pos here, takeWhile_cons_of_pos cached, length_cons]
  rfl

theorem served_cons_device (here : e.At isWrite address = true) (device : e.cached = false) :
    served isWrite address (e :: log) = 0 := by
  rw [served, filter_cons_of_pos here, takeWhile_cons_of_neg (by simp [device])]
  rfl

end Logs

section Kept

variable {log : List IoEvent} {e : IoEvent} {d : CachedAccessDescriptor} {isWrite : Bool}

structure CountKept (isWrite : Bool) (log : List IoEvent) (d : CachedAccessDescriptor) : Prop where
  uncached : d.notCachedCount ≠ 0
  covers : d.NextCached →
    served isWrite d.address log ≤ d.accessCount.toNat - d.notCachedCount.toNat

/-- The value is in the pair of the previous read, and then in the descriptor. -/
structure ReadKept (previousAddress previousValue : BitVec 64) (log : List IoEvent)
    (d : CachedAccessDescriptor) : Prop extends CountKept false log d where
  first : d.NextCached → d.AtFirstCached → previousAddress = d.address →
    lastAtDevice false d.address log = some previousValue
  later : d.NextCached → ¬ d.AtFirstCached →
    lastAtDevice false d.address log = some d.previousValue ∧
      (previousAddress = d.address → previousValue = d.previousValue)

/-- At the first write that can be left out nothing is known, later the value is recorded. -/
structure WriteKept (log : List IoEvent) (d : CachedAccessDescriptor) : Prop
    extends CountKept true log d where
  later : d.NextCached → ¬ d.AtFirstCached → lastAtDevice true d.address log = some d.previousValue

structure Kept (s : CachingState) (log : List IoEvent) : Prop where
  readDistinct : Distinct s.readCache
  writeDistinct : Distinct s.writeCache
  reads : ∀ d ∈ s.readCache,
    ReadKept s.previousIoAccessReadAddress s.previousIoAccessReadValue log d
  writes : ∀ d ∈ s.writeCache, WriteKept log d
  repeats : ∀ address, lastAccess true address log = lastAtDevice true address log

theorem not_nextCached_of_cleared (cleared : d.accessCount = 0) (uncached : d.notCachedCount ≠ 0) :
    ¬ d.NextCached := by
  rintro ⟨less, -⟩
  bv_omega

theorem ReadKept.of_not_next {a v : BitVec 64} (uncached : d.notCachedCount ≠ 0)
    (notNext : ¬ d.NextCached) : ReadKept a v log d where
  uncached := uncached
  covers := fun next => absurd next notNext
  first := fun next => absurd next notNext
  later := fun next => absurd next notNext

theorem WriteKept.of_not_next (uncached : d.notCachedCount ≠ 0) (notNext : ¬ d.NextCached) :
    WriteKept log d where
  uncached := uncached
  covers := fun next => absurd next notNext
  later := fun next => absurd next notNext

theorem CountKept.other (kept : CountKept isWrite log d) (other : e.At isWrite d.address = false) :
    CountKept isWrite (e :: log) d where
  uncached := kept.uncached
  covers := by
    rw [served_cons_other other]
    exact kept.covers

theorem WriteKept.other (kept : WriteKept log d) (other : e.At true d.address = false) :
    WriteKept (e :: log) d where
  toCountKept := kept.toCountKept.other other
  later := by
    rw [lastAtDevice_cons_other other]
    exact kept.later

theorem ReadKept.other {a v a' v' : BitVec 64} (kept : ReadKept a v log d)
    (other : e.At false d.address = false) (pair : a' = a ∧ v' = v ∨ a' ≠ d.address) :
    ReadKept a' v' (e :: log) d where
  toCountKept := kept.toCountKept.other other
  first := by
    rw [lastAtDevice_cons_other other]
    obtain ⟨rfl, rfl⟩ | elsewhere := pair
    · exact kept.first
    · exact fun _ _ same => absurd same elsewhere
  later := by
    rw [lastAtDevice_cons_other other]
    obtain ⟨rfl, rfl⟩ | elsewhere := pair
    · exact kept.later
    · exact fun next later => ⟨(kept.later next later).1, fun same => absurd same elsewhere⟩

theorem ReadKept.value {a v : BitVec 64} (kept : ReadKept a v log d) (next : d.NextCached)
    (adjacent : d.AtFirstCached → a = d.address) :
    lastAtDevice false d.address log = some (if d.address = a then v else d.previousValue) := by
  by_cases first : d.AtFirstCached
  · rw [if_pos (adjacent first).symm]
    exact kept.first next first (adjacent first)
  · obtain ⟨value, same⟩ := kept.later next first
    rw [value]
    split_ifs with equal
    · rw [same equal.symm]
    · rfl

theorem WriteKept.value {val : BitVec 64} (kept : WriteKept log d) (next : d.NextCached)
    (repeats : ∀ address, lastAccess true address log = lastAtDevice true address log)
    (same : d.previousValue = val)
    (repeated : d.AtFirstCached → lastAccess true d.address log = some val) :
    lastAtDevice true d.address log = some val := by
  by_cases first : d.AtFirstCached
  · rw [← repeats, repeated first]
  · rw [kept.later next first, same]

theorem CountKept.room (kept : CountKept isWrite log d) (next : d.NextCached) :
    d.cachedCount = 0 ∨ served isWrite d.address log + 1 ≤ d.cachedCount.toNat :=
  next.room.imp_right fun room => Nat.le_trans (Nat.add_le_add_right (kept.covers next) 1) room

theorem CountKept.advanced (kept : CountKept isWrite log d) (value : BitVec 64)
    (here : e.At isWrite d.address = true) (cached : e.cached = true → d.NextCached) :
    CountKept isWrite (e :: log) (d.advanced.withValue value) := by
  obtain ⟨address, notCached, -, -⟩ := d.advanced_fields
  refine ⟨by rw [CachedAccessDescriptor.withValue, notCached]; exact kept.uncached, ?_⟩
  intro next
  change served isWrite d.advanced.address (e :: log) ≤
    d.advanced.accessCount.toNat - d.advanced.notCachedCount.toNat
  rw [address, notCached]
  by_cases device : e.cached = true
  · obtain ⟨notNext, -⟩ | ⟨before, -, count⟩ :=
      CachedAccessDescriptor.advanced_nextCached kept.uncached next
    · exact absurd (cached device) notNext
    · have covers := kept.covers before
      have le := before.le
      rw [served_cons_cached here device, count]
      omega
  · rw [served_cons_device here (eq_false_of_ne_true device)]
    exact Nat.zero_le _

theorem ReadKept.cached {a v : BitVec 64} (kept : ReadKept a v log d) (next : d.NextCached)
    (adjacent : d.AtFirstCached → a = d.address) (here : e.At false d.address = true)
    (cached : e.cached = true) :
    ReadKept a v (e :: log)
      (d.advanced.withValue (if d.address = a then v else d.previousValue)) := by
  obtain ⟨address, notCached, -, -⟩ := d.advanced_fields
  have sameAddress : (d.advanced.withValue (if d.address = a then v else d.previousValue)).address =
      d.address := address
  refine ⟨kept.toCountKept.advanced _ here fun _ => next, ?_, ?_⟩
  · intro nextAfter firstAfter
    obtain ⟨notNext, -⟩ | ⟨-, notFirst, -⟩ :=
      CachedAccessDescriptor.advanced_nextCached kept.uncached nextAfter
    · exact absurd next notNext
    · exact absurd firstAfter notFirst
  · intro _ _
    rw [sameAddress, lastAtDevice_cons_cached cached, kept.value next adjacent]
    refine ⟨rfl, fun same => ?_⟩
    exact (if_pos same.symm).symm

theorem ReadKept.device {a v : BitVec 64} (kept : ReadKept a v log d) (notNext : ¬ d.NextCached)
    (here : e.At false d.address = true) (device : e.cached = false) (value : BitVec 64) :
    ReadKept d.address e.value (e :: log) (d.advanced.withValue value) := by
  have sameAddress : (d.advanced.withValue value).address = d.address := d.advanced_fields.1
  refine ⟨kept.toCountKept.advanced _ here fun cached => absurd cached (by simp [device]), ?_, ?_⟩
  · intro _ _ _
    rw [sameAddress, lastAtDevice_cons_device here device]
  · intro nextAfter later
    obtain ⟨-, first⟩ | ⟨next, -⟩ :=
      CachedAccessDescriptor.advanced_nextCached kept.uncached nextAfter
    · exact absurd first later
    · exact absurd next notNext

theorem WriteKept.advanced {recorded : BitVec 64} (kept : WriteKept log d)
    (here : e.At true d.address = true) (cached : e.cached = true → d.NextCached)
    (known : e.cached = true → lastAtDevice true d.address log = some e.value)
    (fits : d.NextCached → recorded = e.value) :
    WriteKept (e :: log) (d.advanced.withValue
      (if d.notCachedCount < d.accessCount + 1 then recorded else d.previousValue)) := by
  refine ⟨kept.toCountKept.advanced _ here cached, ?_⟩
  intro nextAfter later
  obtain ⟨-, first⟩ | ⟨next, -⟩ :=
    CachedAccessDescriptor.advanced_nextCached kept.uncached nextAfter
  · exact absurd first later
  · change lastAtDevice true d.advanced.address (e :: log) =
      some (if d.notCachedCount < d.accessCount + 1 then recorded else d.previousValue)
    rw [d.advanced_fields.1, if_pos next.1, fits next]
    by_cases device : e.cached = true
    · rw [lastAtDevice_cons_cached device, known device]
    · rw [lastAtDevice_cons_device here (eq_false_of_ne_true device)]

end Kept

section Steps

variable {W : Nat} {s s' : CachingState} {log : List IoEvent} {e : IoEvent} {shift : Fin 4}
  {addr : BitVec W}

theorem at_iff {isWrite : Bool} {address : BitVec 64} :
    e.At isWrite address = true ↔ e.isWrite = isWrite ∧ e.address = address :=
  decide_eq_true_iff

theorem at_eq_false {isWrite : Bool} {address : BitVec 64}
    (other : e.isWrite ≠ isWrite ∨ e.address ≠ address) : e.At isWrite address = false := by
  rw [Bool.eq_false_iff, ne_eq, at_iff]
  rintro ⟨direction, same⟩
  obtain different | different := other
  · exact different direction
  · exact different same

theorem Kept.read (kept : Kept s log) (read : e.isWrite = false)
    (same : s'.writeCache = s.writeCache) (distinct : Distinct s'.readCache)
    (reads : ∀ d ∈ s'.readCache,
      ReadKept s'.previousIoAccessReadAddress s'.previousIoAccessReadValue (e :: log) d) :
    Kept s' (e :: log) where
  readDistinct := distinct
  writeDistinct := same ▸ kept.writeDistinct
  reads := reads
  writes := by
    rw [same]
    exact fun d member => (kept.writes d member).other (at_eq_false (inl (by simp [read])))
  repeats := by
    intro address
    have other : e.At true address = false := at_eq_false (inl (by simp [read]))
    rw [lastAccess_cons_other other, lastAtDevice_cons_other other]
    exact kept.repeats address

theorem Kept.write (kept : Kept s log) (write : e.isWrite = true)
    (same : s'.readCache = s.readCache)
    (pair : s'.previousIoAccessReadAddress = s.previousIoAccessReadAddress ∧
      s'.previousIoAccessReadValue = s.previousIoAccessReadValue)
    (known : e.cached = true → lastAtDevice true e.address log = some e.value)
    (distinct : Distinct s'.writeCache) (writes : ∀ d ∈ s'.writeCache, WriteKept (e :: log) d) :
    Kept s' (e :: log) where
  readDistinct := same ▸ kept.readDistinct
  writeDistinct := distinct
  reads := by
    rw [same]
    exact fun d member =>
      (kept.reads d member).other (at_eq_false (inl (by simp [write]))) (inl pair)
  writes := writes
  repeats := by
    intro address
    by_cases here : e.address = address
    · subst here
      have atHere : e.At true e.address = true := at_iff.mpr ⟨write, rfl⟩
      rw [lastAccess_cons_here atHere]
      by_cases device : e.cached = true
      · rw [lastAtDevice_cons_cached device, known device]
      · rw [lastAtDevice_cons_device atHere (eq_false_of_ne_true device)]
    · have other : e.At true address = false := at_eq_false (inr here)
      rw [lastAccess_cons_other other, lastAtDevice_cons_other other]
      exact kept.repeats address

theorem setWidth_of_fits {value : BitVec 64} {bits : Nat} (fits : value.toNat < 2 ^ bits) :
    (value.setWidth bits).setWidth 64 = value := by
  apply eq_of_toNat_eq
  rw [toNat_setWidth, toNat_setWidth, Nat.mod_eq_of_lt fits,
    Nat.mod_eq_of_lt value.isLt]

theorem transparent_of_device {call : IoCall W} (events : (step s call).2 = [e])
    (device : e.cached = false) : Transparent s log call := by
  intro other member cached
  rw [events, mem_singleton] at member
  rw [member, device] at cached
  exact absurd cached Bool.false_ne_true

theorem step_load (s : CachingState) (shift : Fin 4) (addr : BitVec W)
    (answer : BitVec (dataBits shift)) :
    step s (.load shift addr answer) = match s.tryCachedAccessRead shift addr with
      | (some res, s) => (s, [⟨false, wide addr, res.setWidth 64, true⟩])
      | (none, s) => ({ s with
          previousIoAccessReadAddress := wide addr
          previousIoAccessReadValue := answer.setWidth 64 },
          [⟨false, wide addr, answer.setWidth 64, false⟩]) := by
  unfold step innerLd
  dsimp only
  cases s.tryCachedAccessRead shift addr with
  | mk res s' => cases res <;> rfl

theorem Kept.readMissing (kept : Kept s log) {cache : List CachedAccessDescriptor}
    (read : e.isWrite = false) (missing : ∀ d ∈ s.readCache, d.address ≠ e.address)
    (old : cache = s.readCache ∨ cache = s.readCache.map CachedAccessDescriptor.cleared)
    (last : Option Nat) (flush : Bool) (value : BitVec 64) :
    Kept { s with
      readCache := cache
      lastCrd := last
      previousIoAccessReadAddress := e.address
      previousIoAccessReadValue := value
      flushCacheDescriptors := flush } (e :: log) := by
  obtain rfl | rfl := old
  · refine kept.read read rfl kept.readDistinct ?_
    intro d member
    have other := missing d member
    exact (kept.reads d member).other (at_eq_false (inr other.symm)) (inr other.symm)
  · refine kept.read read rfl kept.readDistinct.cleared ?_
    intro d member
    obtain ⟨old, inside, rfl⟩ := mem_map.mp member
    have uncached := (kept.reads old inside).uncached
    exact ReadKept.of_not_next uncached (not_nextCached_of_cleared rfl uncached)

theorem load_kept (kept : Kept s log) {answer : BitVec (dataBits shift)}
    (faithful : Faithful s log (.load shift addr answer)) :
    Transparent s log (.load shift addr answer) ∧ Kept (step s (.load shift addr answer)).1
        ((step s (.load shift addr answer)).2 ++ log) := by
  obtain ⟨cache, last, flush, after, asked⟩ := tryCachedAccessRead_spec s shift addr
  have shape := step_load s shift addr answer
  generalize s.tryCachedAccessRead shift addr = result at after asked shape
  obtain ⟨res, s'⟩ := result
  subst after
  obtain ⟨missing, rfl, old⟩ | ⟨i, d, here, same, rfl, rfl⟩ := asked
  · refine ⟨transparent_of_device (congrArg Prod.snd shape) rfl, ?_⟩
    rw [shape]
    exact kept.readMissing (e := ⟨false, wide addr, answer.setWidth 64, false⟩) rfl missing old
      last flush _
  · have inside := mem_of_getElem? here
    have readKept := kept.reads d inside
    have distinct := kept.readDistinct.set here
      (v := d.advanced.withValue (s.held d)) d.advanced_fields.1
    by_cases next : d.NextCached
    · obtain ⟨adjacent, fits⟩ := faithful d inside same next
      rw [if_pos next] at shape
      dsimp only at shape
      rw [setWidth_of_fits fits] at shape
      rw [← same] at adjacent
      unfold Transparent
      rw [shape]
      constructor
      · intro e member _
        rw [mem_singleton.mp member]
        refine ⟨?_, d, inside, same, ?_⟩
        · dsimp only
          rw [← same]
          exact readKept.value next adjacent
        · dsimp only
          rw [← same]
          exact readKept.room next
      · refine kept.read rfl rfl distinct ?_
        intro x member
        obtain rfl | ⟨old, other⟩ := kept.readDistinct.mem_set here member
        · exact readKept.cached next adjacent (at_iff.mpr ⟨rfl, same.symm⟩) rfl
        · rw [same] at other
          exact (kept.reads x old).other (at_eq_false (inr other.symm)) (inl ⟨rfl, rfl⟩)
    · rw [if_neg next] at shape
      refine ⟨transparent_of_device (congrArg Prod.snd shape) rfl, ?_⟩
      rw [shape]
      refine kept.read rfl rfl distinct ?_
      intro x member
      obtain rfl | ⟨old, other⟩ := kept.readDistinct.mem_set here member
      · have device := readKept.device next (e := ⟨false, wide addr, answer.setWidth 64, false⟩)
          (at_iff.mpr ⟨rfl, same.symm⟩) rfl (s.held d)
        rw [same] at device
        exact device
      · rw [same] at other
        exact (kept.reads x old).other (at_eq_false (inr other.symm)) (inr other.symm)

theorem wide_of_fits {bits : Nat} {val : BitVec bits} (fits : val.toNat < 2 ^ W) :
    wide (val.setWidth W) = val.setWidth 64 := by
  apply eq_of_toNat_eq
  rw [toNat_setWidth, toNat_setWidth, toNat_setWidth, Nat.mod_eq_of_lt fits]

theorem step_store (s : CachingState) (shift : Fin 4) (addr : BitVec W)
    (val : BitVec (dataBits shift)) :
    step s (.store shift addr val) = match s.tryCachedAccessWrite addr (val.setWidth W) with
      | (suppressed, s) => (s, [⟨true, wide addr, val.setWidth 64, suppressed⟩]) := rfl

theorem Kept.writeMissing (kept : Kept s log) {cache : List CachedAccessDescriptor}
    (write : e.isWrite = true) (device : e.cached = false)
    (missing : ∀ d ∈ s.writeCache, d.address ≠ e.address)
    (old : cache = s.writeCache ∨ cache = s.writeCache.map CachedAccessDescriptor.cleared)
    (last : Option Nat) (flush : Bool) :
    Kept { s with writeCache := cache, lastCwd := last, flushCacheDescriptors := flush }
      (e :: log) := by
  have known (cached : e.cached = true) : lastAtDevice true e.address log = some e.value :=
    absurd (device.symm.trans cached) Bool.false_ne_true
  obtain rfl | rfl := old
  · refine kept.write write rfl ⟨rfl, rfl⟩ known kept.writeDistinct ?_
    intro d member
    exact (kept.writes d member).other (at_eq_false (inr (missing d member).symm))
  · refine kept.write write rfl ⟨rfl, rfl⟩ known kept.writeDistinct.cleared ?_
    intro d member
    obtain ⟨old, inside, rfl⟩ := mem_map.mp member
    have uncached := (kept.writes old inside).uncached
    exact WriteKept.of_not_next uncached (not_nextCached_of_cleared rfl uncached)

theorem store_kept (kept : Kept s log) {val : BitVec (dataBits shift)}
    (faithful : Faithful s log (.store shift addr val)) :
    Transparent s log (.store shift addr val) ∧
      Kept (step s (.store shift addr val)).1 ((step s (.store shift addr val)).2 ++ log) := by
  obtain ⟨cache, last, flush, after, asked⟩ := tryCachedAccessWrite_spec s addr (val.setWidth W)
  have shape := step_store s shift addr val
  generalize s.tryCachedAccessWrite addr (val.setWidth W) = result at after asked shape
  obtain ⟨suppressed, s'⟩ := result
  subst after
  obtain ⟨missing, rfl, old⟩ | ⟨i, d, here, same, rfl, asked⟩ := asked
  · refine ⟨transparent_of_device (congrArg Prod.snd shape) rfl, ?_⟩
    rw [shape]
    exact kept.writeMissing (e := ⟨true, wide addr, val.setWidth 64, false⟩) rfl rfl missing old
      last flush
  · have inside := mem_of_getElem? here
    have writeKept := kept.writes d inside
    have distinct := kept.writeDistinct.set here (v := d.advanced.withValue
      (if d.notCachedCount < d.accessCount + 1 then wide (val.setWidth W) else d.previousValue))
      d.advanced_fields.1
    have fits (next : d.NextCached) : wide (val.setWidth W) = val.setWidth 64 :=
      wide_of_fits (faithful d inside same next).1
    have known (cached : suppressed = true) :
        lastAtDevice true (wide addr) log = some (val.setWidth 64) := by
      obtain ⟨next, equal⟩ := asked.mp cached
      rw [fits next] at equal
      rw [← same]
      refine writeKept.value next kept.repeats equal fun first => ?_
      rw [same]
      exact (faithful d inside same next).2 first equal
    unfold Transparent
    rw [shape]
    constructor
    · intro e member cached
      rw [mem_singleton.mp member] at cached ⊢
      refine ⟨known cached, d, inside, same, ?_⟩
      rw [← same]
      exact writeKept.room (asked.mp cached).1
    · refine kept.write rfl rfl ⟨rfl, rfl⟩ known distinct ?_
      intro x member
      obtain rfl | ⟨old, other⟩ := kept.writeDistinct.mem_set here member
      · refine writeKept.advanced (at_iff.mpr ⟨rfl, same.symm⟩) (fun cached => (asked.mp cached).1)
          ?_ fits
        rw [same]
        exact known
      · rw [same] at other
        exact (kept.writes x old).other (at_eq_false (inr other.symm))

theorem ReadKept.slow {a v : BitVec 64} {d : CachedAccessDescriptor} (kept : ReadKept a v log d)
    (here : e.At false d.address = true) (device : e.cached = false)
    (again : d.NextCached → lastAtDevice false d.address log = some e.value) :
    ReadKept a v (e :: log) d where
  uncached := kept.uncached
  covers := by
    rw [served_cons_device here device]
    exact fun _ => Nat.zero_le _
  first := by
    rw [lastAtDevice_cons_device here device]
    exact fun next first same => (again next).symm.trans (kept.first next first same)
  later := by
    rw [lastAtDevice_cons_device here device]
    intro next later
    obtain ⟨value, same⟩ := kept.later next later
    exact ⟨(again next).symm.trans value, same⟩

theorem slowLoad_kept (kept : Kept s log) {answer : BitVec (dataBits shift)}
    (faithful : Faithful s log (.slowLoad shift addr answer)) :
    Kept s (⟨false, wide addr, answer.setWidth 64, false⟩ :: log) := by
  refine kept.read rfl rfl kept.readDistinct ?_
  intro d member
  by_cases same : d.address = wide addr
  · refine (kept.reads d member).slow (at_iff.mpr ⟨rfl, same.symm⟩) rfl fun next => ?_
    rw [same]
    exact faithful d member same next
  · exact (kept.reads d member).other (at_eq_false (inr (Ne.symm same))) (inl ⟨rfl, rfl⟩)

theorem slowStore_kept (kept : Kept s log) {val : BitVec (dataBits shift)}
    (faithful : Faithful s log (.slowStore shift addr val)) :
    Kept s (⟨true, wide addr, val.setWidth 64, false⟩ :: log) := by
  refine kept.write rfl rfl ⟨rfl, rfl⟩ (fun cached => absurd cached (by simp))
    kept.writeDistinct ?_
  intro d member
  have writeKept := kept.writes d member
  by_cases same : d.address = wide addr
  · have here : (IoEvent.mk true (wide addr) (val.setWidth 64) false).At true d.address = true :=
      at_iff.mpr ⟨rfl, same.symm⟩
    refine ⟨⟨writeKept.uncached, ?_⟩, ?_⟩
    · rw [served_cons_device here rfl]
      exact fun _ => Nat.zero_le _
    · intro next later
      rw [lastAtDevice_cons_device here rfl, (faithful d member same next).resolve_left later]
  · exact writeKept.other (at_eq_false (inr (Ne.symm same)))

theorem configureReadCaching_kept (kept : Kept s log) (address upper : BitVec 64)
    {lower : BitVec 64} (positive : lower ≠ 0) :
    Kept { s with readCache := configure s.readCache address lower upper } log := by
  obtain ⟨distinct, members⟩ := kept.readDistinct.configure address lower upper
  refine { kept with readDistinct := distinct, reads := ?_ }
  intro d member
  obtain ⟨cleared, count⟩ | old := members d member
  · rw [← count] at positive
    exact ReadKept.of_not_next positive (not_nextCached_of_cleared cleared positive)
  · exact kept.reads d old

theorem configureWriteCaching_kept (kept : Kept s log) (address upper : BitVec 64)
    {lower : BitVec 64} (positive : lower ≠ 0) :
    Kept { s with writeCache := configure s.writeCache address lower upper } log := by
  obtain ⟨distinct, members⟩ := kept.writeDistinct.configure address lower upper
  refine { kept with writeDistinct := distinct, writes := ?_ }
  intro d member
  obtain ⟨cleared, count⟩ | old := members d member
  · rw [← count] at positive
    exact WriteKept.of_not_next positive (not_nextCached_of_cleared cleared positive)
  · exact kept.writes d old

theorem step_kept (kept : Kept s log) {call : IoCall W} (faithful : Faithful s log call) :
    Transparent s log call ∧ Kept (step s call).1 ((step s call).2 ++ log) := by
  cases call with
  | load shift addr answer => exact load_kept kept faithful
  | store shift addr val => exact store_kept kept faithful
  | slowLoad shift addr answer =>
    exact ⟨transparent_of_device rfl rfl, slowLoad_kept kept faithful⟩
  | slowStore shift addr val =>
    exact ⟨transparent_of_device rfl rfl, slowStore_kept kept faithful⟩
  | configureReadCaching address lower upper =>
    exact ⟨fun e member => absurd member not_mem_nil,
      configureReadCaching_kept kept address upper faithful⟩
  | configureWriteCaching address lower upper =>
    exact ⟨fun e member => absurd member not_mem_nil,
      configureWriteCaching_kept kept address upper faithful⟩

theorem initial_kept : Kept initialState [] where
  readDistinct := nodup_nil
  writeDistinct := nodup_nil
  reads := fun _ member => absurd member not_mem_nil
  writes := fun _ member => absurd member not_mem_nil
  repeats := fun _ => rfl

theorem kept_of_reached (reached : Reached (W := W) Faithful s log) : Kept s log := by
  induction reached with
  | start => exact initial_kept
  | step call _ faithful ih => exact (step_kept ih faithful).2

/-- In a run whose calls are all faithful, the cache is transparent. -/
theorem ioCaching_transparent (reached : Reached (W := W) Faithful s log) (call : IoCall W)
    (faithful : Faithful s log call) : Transparent s log call :=
  (step_kept (kept_of_reached reached) faithful).1

end Steps

/-- A register that is polled, with every second read from the cache. -/
theorem ioCaching_transparent_polled : ∃ s log, Reached (W := 32) Faithful s log ∧
    served false 0x100 log = 0 ∧ Transparent s log (.load 2 0x100#32 7) :=
  have fresh : Reached (W := 32) Faithful initialState [] := .start
  have configured := Reached.step (.configureReadCaching 0x100 1 1) fresh (by decide)
  have run := Reached.step (.load 2 0x100#32 5) configured (by decide)
  ⟨_, _, run, rfl, ioCaching_transparent run _ (by decide)⟩

/-- The second of two registers takes away the value of the first; and a write that the device
did not see is taken for a repetition, since the last one was not recorded. -/
theorem ioCaching_not_transparent : (∃ s log, Reached (W := 32) (fun _ _ _ => True) s log ∧
      (step s (.load 2 0x100#32 6)).2 = [⟨false, 0x100, 0, true⟩] ∧
      lastAtDevice false 0x100 log = some 5 ∧ ¬ Transparent s log (.load 2 0x100#32 6)) ∧
    (∃ s log, Reached (W := 32) (fun _ _ _ => True) s log ∧
      (step s (.store 2 0x100#32 0)).2 = [⟨true, 0x100, 0, true⟩] ∧
      lastAtDevice true 0x100 log = some 5 ∧ ¬ Transparent s log (.store 2 0x100#32 0)) := by
  constructor
  · refine ⟨_, _, .step (.load 2 0x200#32 7) (.step (.load 2 0x100#32 5)
      (.step (.configureReadCaching 0x200 1 1) (.step (.configureReadCaching 0x100 1 1) .start
        trivial) trivial) trivial) trivial, by decide, by decide, ?_⟩
    intro transparent
    have same := (transparent ⟨false, 0x100, 0, true⟩ (by decide) rfl).1
    exact absurd same (by decide)
  · refine ⟨_, _, .step (.store 2 0x100#32 5) (.step (.configureWriteCaching 0x100 1 1) .start
      trivial) trivial, by decide, by decide, ?_⟩
    intro transparent
    have same := (transparent ⟨true, 0x100, 0, true⟩ (by decide) rfl).1
    exact absurd same (by decide)

end Tlib.Softmmu.IoCaching
