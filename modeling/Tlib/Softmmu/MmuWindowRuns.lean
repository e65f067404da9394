import Tlib.Softmmu.MmuWindows

/-!
Contract: runs of calls that change the windows of the external MMU.

Owns: the exported calls, the set of windows that they stand for, and the order that a lookup finds
after any run.
-/

namespace Tlib.Softmmu

open Tlib.TranslationCache Function
open Tlib.Library.SortedArray

/-! ### The calls -/

/-- Change of the first window with an id; `none` when there is no such window. -/
def updateById (id : Nat) (change : ExtMmuRange → ExtMmuRange) :
    List ExtMmuRange → Option (List ExtMmuRange)
  | [] => none
  | window :: rest =>
    if window.id = id then some (change window :: rest)
    else (updateById id change rest).map (window :: ·)

/-- A window as `tlib_acquire_mmu_window` leaves it. -/
def acquiredWindow (id type : Nat) : ExtMmuRange where
  id := id
  rangeStart := 0
  rangeEnd := 0
  addend := 0
  type := type % 2 ^ 8
  priv := 0
  rangeEndInclusive := false

def tlibAcquireMmuWindow (mmu : ExternalMmu) (type : Nat) : Option ExternalMmu :=
  if mmu.position = .none then none
  else some { mmu with
    windows := mmu.windows ++ [acquiredWindow mmu.nextId type]
    nextId := mmu.nextId + 1
    unsorted := true }

def ExtMmuRange.withStart (T : Target) (addrStart : Nat) (window : ExtMmuRange) : ExtMmuRange :=
  { window with rangeStart := T.toUlong addrStart }

def tlibSetMmuWindowStart (T : Target) (mmu : ExternalMmu) (id addrStart : Nat) :
    Option ExternalMmu :=
  if mmu.position = .none ∨ T.pageOffset addrStart ≠ 0 then none
  else (updateById id (·.withStart T addrStart) mmu.windows).map fun windows =>
    { mmu with windows := windows, unsorted := true }

def ExtMmuRange.withEnd (T : Target) (addrEnd : Nat) (inclusive : Bool) (window : ExtMmuRange) :
    ExtMmuRange :=
  if addrEnd ≠ 2 ^ T.longBits - 1 ∧ inclusive = true then
    { window with rangeEnd := T.toUlong ((addrEnd + 1) % 2 ^ 64), rangeEndInclusive := false }
  else { window with rangeEnd := T.toUlong addrEnd, rangeEndInclusive := inclusive }

def tlibSetMmuWindowEnd (T : Target) (mmu : ExternalMmu) (id addrEnd : Nat) (inclusive : Bool) :
    Option ExternalMmu :=
  if mmu.position = .none ∨
      T.pageOffset (if inclusive then (addrEnd + 1) % 2 ^ 64 else addrEnd) ≠ 0 then none
  else (updateById id (·.withEnd T addrEnd inclusive) mmu.windows).map fun windows =>
    { mmu with windows := windows }

def ExtMmuRange.withAddend (T : Target) (addend : Nat) (window : ExtMmuRange) : ExtMmuRange :=
  { window with addend := T.toUlong addend }

def tlibSetMmuWindowAddend (T : Target) (mmu : ExternalMmu) (id addend : Nat) :
    Option ExternalMmu :=
  if mmu.position = .none then none
  else (updateById id (·.withAddend T addend) mmu.windows).map fun windows =>
    { mmu with windows := windows }

def ExtMmuRange.withPrivileges (privileges : Nat) (window : ExtMmuRange) : ExtMmuRange :=
  { window with priv := privileges % 2 ^ 8 }

def tlibSetWindowPrivileges (mmu : ExternalMmu) (id privileges : Nat) : Option ExternalMmu :=
  if mmu.position = .none then none
  else (updateById id (·.withPrivileges privileges) mmu.windows).map fun windows =>
    { mmu with windows := windows }

def tlibResetMmuWindow (mmu : ExternalMmu) (id : Nat) : Option ExternalMmu :=
  if mmu.windows.any (·.id = id) then
    some { mmu with windows := mmu.windows.eraseP (·.id = id) }
  else none

/-- The loop that looks for `first_to_remove` below an index. -/
def firstToRemove (windows : List ExtMmuRange) (address : Nat) : Nat → Nat
  | 0 => 0
  | index + 1 =>
    if windows[index]?.any (·.endsBehind address) then firstToRemove windows address index
    else index + 1

def removeCovering (windows : List ExtMmuRange) (address : Nat) : List ExtMmuRange :=
  let lastToRemove := findLastMmuWindowPossiblyCovering windows address
  if lastToRemove < 0 then windows
  else if windows[lastToRemove.toNat]?.any (·.endsBehind address) then
    let first := firstToRemove windows address lastToRemove.toNat
    windows.take first ++ windows.drop (lastToRemove.toNat + 1)
  else windows

def tlibResetMmuWindowsCoveringAddress (mmu : ExternalMmu) (address : Nat) : ExternalMmu :=
  { mmu with windows := removeCovering mmu.windows address }

def tlibResetAllMmuWindows (mmu : ExternalMmu) : ExternalMmu := { mmu with windows := [] }

inductive MmuCall where
  | acquire (type : Nat)
  | setStart (id addrStart : Nat)
  | setEnd (id addrEnd : Nat) (inclusive : Bool)
  | setAddend (id addend : Nat)
  | setPrivileges (id privileges : Nat)
  | reset (id : Nat)
  | resetCovering (address : Nat)
  | resetAll
  | lookup

def applyCall (Q : Qsort) (T : Target) (mmu : ExternalMmu) : MmuCall → Option ExternalMmu
  | .acquire type => tlibAcquireMmuWindow mmu type
  | .setStart id addrStart => tlibSetMmuWindowStart T mmu id addrStart
  | .setEnd id addrEnd inclusive => tlibSetMmuWindowEnd T mmu id addrEnd inclusive
  | .setAddend id addend => tlibSetMmuWindowAddend T mmu id addend
  | .setPrivileges id privileges => tlibSetWindowPrivileges mmu id privileges
  | .reset id => tlibResetMmuWindow mmu id
  | .resetCovering address => some (tlibResetMmuWindowsCoveringAddress mmu address)
  | .resetAll => some (tlibResetAllMmuWindows mmu)
  | .lookup => some (ensureMmuWindowsSorted Q mmu)

/-! ### The set of windows -/

/-- What the calls mean: windows by id, without any order. -/
structure WindowSet where
  window : Nat → Option ExtMmuRange
  nextId : Nat

namespace WindowSet

def change (set : WindowSet) (id : Nat) (f : ExtMmuRange → ExtMmuRange) : WindowSet :=
  { set with window := update set.window id ((set.window id).map f) }

@[simp] theorem change_self (set : WindowSet) (id : Nat) (f : ExtMmuRange → ExtMmuRange) :
    (set.change id f).window id = (set.window id).map f :=
  update_self _ _ _

theorem change_of_ne (set : WindowSet) (f : ExtMmuRange → ExtMmuRange) {id key : Nat}
    (different : key ≠ id) : (set.change id f).window key = set.window key :=
  update_of_ne different _ _

def apply (T : Target) (set : WindowSet) : MmuCall → WindowSet
  | .acquire type =>
    { window := update set.window set.nextId (some (acquiredWindow set.nextId type))
      nextId := set.nextId + 1 }
  | .setStart id addrStart => set.change id (·.withStart T addrStart)
  | .setEnd id addrEnd inclusive => set.change id (·.withEnd T addrEnd inclusive)
  | .setAddend id addend => set.change id (·.withAddend T addend)
  | .setPrivileges id privileges => set.change id (·.withPrivileges privileges)
  | .reset id => { set with window := update set.window id none }
  | .resetCovering address =>
    { set with window := fun id => (set.window id).filter fun window => !window.covers address }
  | .resetAll => { set with window := fun _ => none }
  | .lookup => set

def Mem (set : WindowSet) (window : ExtMmuRange) : Prop := set.window window.id = some window

end WindowSet

structure Holds (T : Target) (mmu : ExternalMmu) (set : WindowSet) : Prop where
  ids : (mmu.windows.map (·.id)).Nodup
  mem : ∀ window, window ∈ mmu.windows ↔ set.Mem window
  keyed : ∀ id window, set.window id = some window → window.id = id
  nextId : mmu.nextId = set.nextId
  fresh : ∀ window ∈ mmu.windows, window.id < mmu.nextId
  ended : ∀ window ∈ mmu.windows,
    window.rangeEndInclusive = true ↔ window.rangeEnd = 2 ^ T.longBits - 1

def InOrder (mmu : ExternalMmu) : Prop := mmu.unsorted = false → mmu.windows.Pairwise windowLe

section Change

variable {T : Target} {mmu : ExternalMmu} {set : WindowSet} {id : Nat}
  {f : ExtMmuRange → ExtMmuRange} {windows : List ExtMmuRange}

theorem updateById_split {l : List ExtMmuRange} (updated : updateById id f l = some windows) :
    ∃ front window back, l = front ++ window :: back ∧ window.id = id ∧
      windows = front ++ f window :: back := by
  induction l generalizing windows with
  | nil => exact absurd updated (by simp [updateById])
  | cons head rest ih =>
    unfold updateById at updated
    by_cases found : head.id = id
    · rw [if_pos found] at updated
      exact ⟨[], head, rest, rfl, found, (Option.some.inj updated).symm⟩
    · rw [if_neg found, Option.map_eq_some_iff] at updated
      obtain ⟨changed, inRest, isChanged⟩ := updated
      obtain ⟨front, window, back, split, isId, result⟩ := ih inRest
      refine ⟨head :: front, window, back, by rw [split]; rfl, isId, ?_⟩
      rw [← isChanged, result]
      rfl

theorem Holds.change (holds : Holds T mmu set)
    (updated : updateById id f mmu.windows = some windows)
    (keepsId : ∀ window, (f window).id = window.id)
    (keepsEnd : ∀ window, (window.rangeEndInclusive = true ↔ window.rangeEnd = 2 ^ T.longBits - 1) →
      ((f window).rangeEndInclusive = true ↔ (f window).rangeEnd = 2 ^ T.longBits - 1))
    (unsorted : Bool) :
    Holds T { mmu with windows := windows, unsorted := unsorted } (set.change id f) := by
  obtain ⟨front, window, back, split, isId, result⟩ := updateById_split updated
  have ids := holds.ids
  have inArray : window ∈ mmu.windows := by
    rw [split]
    simp
  have entry : set.window id = some window := by
    rw [← isId]
    exact (holds.mem window).mp inArray
  have others : ∀ v, v ∈ front ∨ v ∈ back → v ∈ mmu.windows ∧ v.id ≠ id := by
    intro v member
    constructor
    · rw [split]
      rcases member with inFront | inBack
      · exact List.mem_append_left _ inFront
      · exact List.mem_append_right _ (List.mem_cons_of_mem _ inBack)
    · rw [split, List.map_append, List.map_cons, List.nodup_append, List.nodup_cons] at ids
      rw [← isId]
      rcases member with inFront | inBack
      · exact ids.2.2 v.id (List.mem_map_of_mem inFront) window.id List.mem_cons_self
      · exact fun equal => ids.2.1.1 (equal ▸ List.mem_map_of_mem inBack)
  have changedMem : ∀ v, v ∈ windows ↔ v = f window ∨ (v ∈ front ∨ v ∈ back) := by
    intro v
    rw [result, List.mem_append, List.mem_cons]
    exact or_left_comm
  constructor
  · rw [result]
    rw [split] at ids
    simpa [keepsId] using ids
  · intro v
    rw [changedMem, WindowSet.Mem]
    by_cases isHere : v.id = id
    · rw [isHere, WindowSet.change_self, entry]
      constructor
      · rintro (same | other)
        · rw [same]
          rfl
        · exact absurd isHere (others v other).2
      · exact fun same => Or.inl (Option.some.inj same).symm
    · rw [set.change_of_ne f isHere]
      constructor
      · rintro (same | other)
        · rw [same, keepsId] at isHere
          exact absurd isId isHere
        · exact (holds.mem v).mp (others v other).1
      · intro inSet
        have before := (holds.mem v).mpr inSet
        rw [split, List.mem_append, List.mem_cons] at before
        rcases before with inFront | same | inBack
        · exact Or.inr (Or.inl inFront)
        · rw [same] at isHere
          exact absurd isId isHere
        · exact Or.inr (Or.inr inBack)
  · intro key v inSet
    by_cases isHere : key = id
    · rw [isHere, WindowSet.change_self, entry] at inSet
      rw [← Option.some.inj inSet, keepsId, isId, isHere]
    · rw [set.change_of_ne f isHere] at inSet
      exact holds.keyed key v inSet
  · exact holds.nextId
  · intro v member
    rcases (changedMem v).mp member with same | other
    · rw [same, keepsId]
      exact holds.fresh window inArray
    · exact holds.fresh v (others v other).1
  · intro v member
    rcases (changedMem v).mp member with same | other
    · rw [same]
      exact keepsEnd window (holds.ended window inArray)
    · exact holds.ended v (others v other).1

theorem InOrder.change (inOrder : InOrder mmu)
    (updated : updateById id f mmu.windows = some windows)
    (keepsStart : ∀ window, (f window).rangeStart = window.rangeStart)
    (keepsEnd : ∀ window, (f window).rangeEnd = window.rangeEnd) :
    InOrder { mmu with windows := windows } := by
  intro clear
  obtain ⟨front, window, back, split, -, result⟩ := updateById_split updated
  have before := inOrder clear
  have same : ∀ v w, windowLe v (f w) ↔ windowLe v w := by
    intro v w
    rw [windowLe_iff, windowLe_iff, keepsStart, keepsEnd]
  have same' : ∀ v w, windowLe (f v) w ↔ windowLe v w := by
    intro v w
    rw [windowLe_iff, windowLe_iff, keepsStart, keepsEnd]
  rw [split] at before
  rw [result]
  rw [List.pairwise_append, List.pairwise_cons] at before ⊢
  refine ⟨before.1, ⟨fun v member => (same' window v).mpr (before.2.1.1 v member),
    before.2.1.2⟩, fun v inFront w member => ?_⟩
  rcases List.mem_cons.mp member with equal | inBack
  · rw [equal]
    exact (same v window).mpr (before.2.2 v inFront window List.mem_cons_self)
  · exact before.2.2 v inFront w (List.mem_cons_of_mem _ inBack)

end Change

section Removal

variable {T : Target} {mmu : ExternalMmu} {set : WindowSet}

theorem Holds.endsAgree (holds : Holds T mmu set) : EndsAgree mmu.windows := by
  intro v inArray w inArray' equal
  have left := holds.ended v inArray
  have right := holds.ended w inArray'
  rw [equal, ← right] at left
  exact Bool.eq_iff_iff.mpr left

theorem Holds.filter (holds : Holds T mmu set) (keeps : ExtMmuRange → Bool) :
    Holds T { mmu with windows := mmu.windows.filter keeps }
      { set with window := fun id => (set.window id).filter keeps } where
  ids := holds.ids.sublist (List.filter_sublist.map _)
  mem window := by
    change window ∈ mmu.windows.filter keeps ↔ (set.window window.id).filter keeps = some window
    rw [List.mem_filter, holds.mem, WindowSet.Mem, Option.filter_eq_some_iff]
  keyed id window inSet := by
    rw [Option.filter_eq_some_iff] at inSet
    exact holds.keyed id window inSet.1
  nextId := holds.nextId
  fresh window member := holds.fresh window (List.mem_of_mem_filter member)
  ended window member := holds.ended window (List.mem_of_mem_filter member)

theorem InOrder.sublist (inOrder : InOrder mmu) {windows : List ExtMmuRange}
    (sublist : windows.Sublist mmu.windows) : InOrder { mmu with windows := windows } :=
  fun clear => (inOrder clear).sublist sublist

theorem take_firstToRemove (windows : List ExtMmuRange) (address index : Nat)
    (inside : index ≤ windows.length) :
    windows.take (firstToRemove windows address index) =
      (windows.take index).rdropWhile (fun window => window.endsBehind address) := by
  induction index with
  | zero => rfl
  | succ index ih =>
    have below : index < windows.length := inside
    rw [List.take_succ_eq_append_getElem below, firstToRemove,
      List.getElem?_eq_getElem below, Option.any_some]
    rw [List.rdropWhile_concat]
    cases behind : windows[index].endsBehind address with
    | true => exact ih (Nat.le_of_lt below)
    | false => exact List.take_succ_eq_append_getElem below

theorem removeCovering_eq_filter {windows : List ExtMmuRange} (sorted : windows.Pairwise windowLe)
    (inOrder : EndsInOrder windows) (agree : EndsAgree windows) (address : Nat) :
    removeCovering windows address = windows.filter fun window => !window.covers address := by
  obtain ⟨low, high, split, found, lowStarts, highStarts, behind⟩ :=
    exists_cut sorted inOrder agree address
  have filtered : windows.filter (fun window => !window.covers address) =
      low.rdropWhile (fun window => window.endsBehind address) ++ high := by
    rw [split, List.filter_append, rdropWhile_eq_filter behind]
    congr 1
    · apply List.filter_congr
      intro w member
      simp [ExtMmuRange.covers, lowStarts w member]
    · rw [List.filter_eq_self]
      intro w member
      simp [ExtMmuRange.covers, Nat.not_le.mpr (highStarts w member)]
  rw [filtered, removeCovering, found]
  rcases List.eq_nil_or_concat low with isEmpty | ⟨front, last, isConcat⟩
  · simp [isEmpty, split]
  · have length : low.length = front.length + 1 := by rw [isConcat, List.length_concat]
    have lastHere : windows[front.length]? = some last := by
      rw [split, isConcat]
      simp
    have inside : front.length ≤ windows.length := by
      rw [split, List.length_append, length]
      omega
    have rest : windows.drop (front.length + 1) = high := by
      rw [split, List.drop_left' length]
    have kept : windows.take front.length = front := by
      rw [split, isConcat, List.concat_eq_append, List.append_assoc, List.take_left' rfl]
    rw [length, show ((front.length + 1 : Nat) : Int) - 1 = front.length by omega,
      if_neg (by omega), Int.toNat_natCast, lastHere, Option.any_some, isConcat,
      List.concat_eq_append, List.rdropWhile_concat]
    cases covers : last.endsBehind address with
    | true =>
      have joined := take_firstToRemove windows address _ inside
      rw [kept] at joined
      exact congrArg₂ (· ++ ·) joined rest
    | false =>
      rw [if_neg (by decide), if_neg (by decide), split, isConcat, List.concat_eq_append]

end Removal

/-! ### One call -/

/-- A new end keeps the order, and windows are removed by address from one in order. -/
def SafeCall (T : Target) (mmu : ExternalMmu) : MmuCall → Prop
  | .setEnd id addrEnd inclusive => mmu.unsorted = true ∨
      ∀ windows, updateById id (·.withEnd T addrEnd inclusive) mmu.windows = some windows →
        windows.Pairwise windowLe
  | .resetCovering _ => mmu.windows.Pairwise windowLe ∧ EndsInOrder mmu.windows
  | _ => True

section Calls

variable {Q : Qsort} {T : Target} {mmu mmu' : ExternalMmu} {set : WindowSet}

theorem toUlong_aligned_ne_last {value : Nat} (aligned : T.pageOffset value = 0) :
    T.toUlong value ≠ 2 ^ T.longBits - 1 := by
  have bits := T.pageBits_ge
  have fits := T.pageBits_le
  have evenPage : 2 ∣ T.pageSize := Dvd.intro_left (2 ^ (T.pageBits - 1)) (by
    rw [← Nat.pow_succ, Nat.succ_eq_add_one, Nat.sub_add_cancel (by omega)]
    rfl)
  have evenRange : 2 ∣ 2 ^ T.longBits := Dvd.intro_left (2 ^ (T.longBits - 1)) (by
    rw [← Nat.pow_succ, Nat.succ_eq_add_one, Nat.sub_add_cancel (by omega)])
  have evenValue : 2 ∣ value := evenPage.trans (Nat.dvd_of_mod_eq_zero aligned)
  have evenResult : 2 ∣ T.toUlong value := (Nat.dvd_mod_iff evenRange).mpr evenValue
  have positive : 0 < 2 ^ T.longBits := Nat.two_pow_pos _
  omega

theorem withEnd_ended {addrEnd : Nat} {inclusive : Bool}
    (aligned : T.pageOffset (if inclusive then (addrEnd + 1) % 2 ^ 64 else addrEnd) = 0)
    (window : ExtMmuRange) :
    (window.withEnd T addrEnd inclusive).rangeEndInclusive = true ↔
      (window.withEnd T addrEnd inclusive).rangeEnd = 2 ^ T.longBits - 1 := by
  unfold ExtMmuRange.withEnd
  by_cases turned : addrEnd ≠ 2 ^ T.longBits - 1 ∧ inclusive = true
  · rw [if_pos turned]
    rw [turned.2, if_pos rfl] at aligned
    simpa using toUlong_aligned_ne_last aligned
  · rw [if_neg turned]
    cases inclusive with
    | false =>
      simpa using toUlong_aligned_ne_last aligned
    | true =>
      have isLast : addrEnd = 2 ^ T.longBits - 1 := by simpa using turned
      have below : 2 ^ T.longBits - 1 < 2 ^ T.longBits := Nat.sub_lt (Nat.two_pow_pos _) one_pos
      simp [isLast, Target.toUlong]

theorem acquiredWindow_ended (T : Target) (id type : Nat) :
    (acquiredWindow id type).rangeEndInclusive = true ↔
      (acquiredWindow id type).rangeEnd = 2 ^ T.longBits - 1 := by
  have bits := T.pageBits_ge
  have fits := T.pageBits_le
  have large : 2 ^ 1 ≤ 2 ^ T.longBits := Nat.pow_le_pow_right (by decide) (by omega)
  simp only [acquiredWindow, Bool.false_eq_true, false_iff]
  omega

theorem Holds.acquire (holds : Holds T mmu set) {type : Nat}
    (done : tlibAcquireMmuWindow mmu type = some mmu') :
    Holds T mmu' (set.apply T (.acquire type)) := by
  simp only [tlibAcquireMmuWindow, Option.ite_none_left_eq_some, Option.some.injEq] at done
  rw [← done.2]
  have isNew : ∀ window ∈ mmu.windows, window.id ≠ mmu.nextId :=
    fun window member => Nat.ne_of_lt (holds.fresh window member)
  constructor
  · simp only [List.map_append, List.map_cons, List.map_nil]
    rw [List.nodup_append]
    refine ⟨holds.ids, by simp, fun key inIds other isOther equal => ?_⟩
    obtain ⟨window, member, rfl⟩ := List.mem_map.mp inIds
    rw [List.mem_singleton] at isOther
    exact isNew window member (equal.trans isOther)
  · intro window
    change window ∈ mmu.windows ++ _ ↔ update set.window set.nextId _ window.id = _
    rw [List.mem_append, List.mem_singleton, ← holds.nextId]
    by_cases isLast : window.id = mmu.nextId
    · rw [isLast, update_self, Option.some.injEq]
      constructor
      · rintro (old | same)
        · exact absurd isLast (isNew window old)
        · exact same.symm
      · exact fun same => Or.inr same.symm
    · rw [update_of_ne isLast, holds.mem]
      constructor
      · rintro (old | same)
        · exact old
        · rw [same] at isLast
          exact absurd rfl isLast
      · exact Or.inl
  · intro key window inSet
    change update set.window set.nextId _ key = _ at inSet
    by_cases isLast : key = set.nextId
    · rw [isLast, update_self, Option.some.injEq] at inSet
      rw [← inSet, isLast]
      rfl
    · rw [update_of_ne isLast] at inSet
      exact holds.keyed key window inSet
  · exact congrArg (· + 1) holds.nextId
  · intro window member
    rcases List.mem_append.mp member with old | isNew
    · exact Nat.lt_succ_of_lt (holds.fresh window old)
    · rw [List.mem_singleton.mp isNew]
      exact Nat.lt_succ_self _
  · intro window member
    rcases List.mem_append.mp member with old | isNew
    · exact holds.ended window old
    · rw [List.mem_singleton.mp isNew]
      exact acquiredWindow_ended T mmu.nextId type

theorem eraseP_id_eq_filter {windows : List ExtMmuRange} (ids : (windows.map (·.id)).Nodup)
    (id : Nat) :
    windows.eraseP (·.id = id) = windows.filter fun window => window.id ≠ id := by
  induction windows with
  | nil => rfl
  | cons head rest ih =>
    rw [List.map_cons, List.nodup_cons] at ids
    by_cases isHead : head.id = id
    · rw [List.eraseP_cons_of_pos (by simp [isHead]), List.filter_cons_of_neg (by simp [isHead])]
      symm
      rw [List.filter_eq_self]
      intro window member
      have different : window.id ≠ id := by
        intro equal
        apply ids.1
        rw [isHead, ← equal]
        exact List.mem_map_of_mem member
      simp [different]
    · rw [List.eraseP_cons_of_neg (by simp [isHead]), List.filter_cons_of_pos (by simp [isHead]),
        ih ids.2]

theorem Holds.reset (holds : Holds T mmu set) (id : Nat) :
    Holds T { mmu with windows := mmu.windows.eraseP (·.id = id) }
      (set.apply T (.reset id)) := by
  have removed := holds.filter fun window => window.id ≠ id
  have sameSet : (fun key => (set.window key).filter fun window => window.id ≠ id) =
      update set.window id none := by
    funext key
    cases entry : set.window key with
    | none =>
      by_cases isId : key = id
      · rw [isId, update_self, Option.filter_none]
      · rw [update_of_ne isId, entry, Option.filter_none]
    | some window =>
      have keyed := holds.keyed key window entry
      by_cases isId : key = id
      · rw [isId, update_self]
        simp [keyed, isId]
      · rw [update_of_ne isId, entry]
        simp [keyed, isId]
  rw [sameSet] at removed
  rw [eraseP_id_eq_filter holds.ids]
  exact removed

theorem Holds.ensureSorted (holds : Holds T mmu set) (Q : Qsort) :
    Holds T (ensureMmuWindowsSorted Q mmu) set := by
  unfold ensureMmuWindowsSorted
  split_ifs
  · have perm := Q.perm mmu.windows
    refine ⟨?_, fun window => ?_, holds.keyed, holds.nextId, fun window member => ?_,
      fun window member => ?_⟩
    · exact (perm.map _).nodup_iff.mpr holds.ids
    · exact perm.mem_iff.trans (holds.mem window)
    · exact holds.fresh window (perm.mem_iff.mp member)
    · exact holds.ended window (perm.mem_iff.mp member)
  · exact holds

theorem InOrder.ensureSorted (inOrder : InOrder mmu) (Q : Qsort) :
    (ensureMmuWindowsSorted Q mmu).windows.Pairwise windowLe := by
  unfold ensureMmuWindowsSorted
  cases flag : mmu.unsorted with
  | true => exact Q.sorted mmu.windows
  | false => exact inOrder flag

theorem Holds.apply (holds : Holds T mmu set) (inOrder : InOrder mmu) {call : MmuCall}
    (safe : SafeCall T mmu call) (done : applyCall Q T mmu call = some mmu') :
    Holds T mmu' (set.apply T call) ∧ InOrder mmu' := by
  cases call with
  | acquire type =>
    refine ⟨holds.acquire done, ?_⟩
    simp only [applyCall, tlibAcquireMmuWindow, Option.ite_none_left_eq_some,
      Option.some.injEq] at done
    rw [← done.2]
    exact fun clear => Bool.noConfusion clear
  | setStart id addrStart =>
    simp only [applyCall, tlibSetMmuWindowStart, Option.ite_none_left_eq_some,
      Option.map_eq_some_iff] at done
    obtain ⟨-, windows, updated, rfl⟩ := done
    exact ⟨holds.change updated (fun _ => rfl) (fun _ ended => ended) true,
      fun clear => Bool.noConfusion clear⟩
  | setEnd id addrEnd inclusive =>
    simp only [applyCall, tlibSetMmuWindowEnd, Option.ite_none_left_eq_some, not_or,
      not_not, Option.map_eq_some_iff] at done
    obtain ⟨⟨-, aligned⟩, windows, updated, rfl⟩ := done
    refine ⟨holds.change updated ?_ (fun window _ => withEnd_ended aligned window) mmu.unsorted,
      fun clear => ?_⟩
    · intro window
      unfold ExtMmuRange.withEnd
      split_ifs <;> rfl
    · rcases safe with flagged | kept
      · rw [show mmu.unsorted = false from clear] at flagged
        exact absurd flagged (by decide)
      · exact kept windows updated
  | setAddend id addend =>
    simp only [applyCall, tlibSetMmuWindowAddend, Option.ite_none_left_eq_some,
      Option.map_eq_some_iff] at done
    obtain ⟨-, windows, updated, rfl⟩ := done
    exact ⟨holds.change updated (fun _ => rfl) (fun _ ended => ended) mmu.unsorted,
      inOrder.change updated (fun _ => rfl) (fun _ => rfl)⟩
  | setPrivileges id privileges =>
    simp only [applyCall, tlibSetWindowPrivileges, Option.ite_none_left_eq_some,
      Option.map_eq_some_iff] at done
    obtain ⟨-, windows, updated, rfl⟩ := done
    exact ⟨holds.change updated (fun _ => rfl) (fun _ ended => ended) mmu.unsorted,
      inOrder.change updated (fun _ => rfl) (fun _ => rfl)⟩
  | reset id =>
    simp only [applyCall, tlibResetMmuWindow, Option.ite_none_right_eq_some,
      Option.some.injEq] at done
    rw [← done.2]
    exact ⟨holds.reset id, inOrder.sublist List.eraseP_sublist⟩
  | resetCovering address =>
    simp only [applyCall, tlibResetMmuWindowsCoveringAddress, Option.some.injEq] at done
    rw [← done, removeCovering_eq_filter safe.1 safe.2 holds.endsAgree]
    exact ⟨holds.filter fun window => !window.covers address, inOrder.sublist List.filter_sublist⟩
  | resetAll =>
    simp only [applyCall, tlibResetAllMmuWindows, Option.some.injEq] at done
    have cleared := holds.filter fun _ => false
    rw [List.filter_false, show (fun id => (set.window id).filter fun _ => false) =
      fun _ => none from funext fun id => by cases set.window id <;> rfl] at cleared
    rw [← done]
    exact ⟨cleared, fun _ => List.Pairwise.nil⟩
  | lookup =>
    simp only [applyCall, Option.some.injEq] at done
    rw [← done]
    exact ⟨holds.ensureSorted Q, fun _ => inOrder.ensureSorted Q⟩

end Calls

/-! ### Runs -/

/-- The arrays and sets that sequences of allowed calls lead to. -/
inductive Reached (Q : Qsort) (T : Target) (allowed : ExternalMmu → MmuCall → Prop) :
    ExternalMmu → WindowSet → Prop
  | start (position : ExtMmuPosition) : Reached Q T allowed ⟨position, [], 0, false⟩ ⟨fun _ => none, 0⟩
  | step {mmu mmu' : ExternalMmu} {set : WindowSet} {call : MmuCall}
      (before : Reached Q T allowed mmu set) (isAllowed : allowed mmu call)
      (done : applyCall Q T mmu call = some mmu') : Reached Q T allowed mmu' (set.apply T call)

theorem Reached.mono {Q : Qsort} {T : Target} {mmu : ExternalMmu} {set : WindowSet}
    {allowed allowed' : ExternalMmu → MmuCall → Prop}
    (reached : Reached Q T allowed mmu set)
    (weaker : ∀ mmu call, allowed mmu call → allowed' mmu call) : Reached Q T allowed' mmu set := by
  induction reached with
  | start position => exact .start position
  | step _ isAllowed done ih =>
    exact ih.step (weaker _ _ isAllowed) done

namespace WindowSet

def EndsInOrder (set : WindowSet) : Prop :=
  ∀ v w, set.Mem v → set.Mem w → v.rangeStart < w.rangeStart → v.endExclusive ≤ w.endExclusive

def TieFree (set : WindowSet) (access : AccessType) : Prop :=
  ∀ v w, set.Mem v → set.Mem w → v.serves access = true → w.serves access = true →
    v.rangeStart = w.rangeStart → v.rangeEnd = w.rangeEnd → v = w

structure Enumerates (set : WindowSet) (l : List ExtMmuRange) : Prop where
  mem : ∀ window, window ∈ l ↔ set.Mem window
  sorted : l.Pairwise windowLe

structure Selects (set : WindowSet) (address : Nat) (access : AccessType)
    (window : ExtMmuRange) : Prop where
  mem : set.Mem window
  covers : window.covers address = true
  serves : window.serves access = true
  greatest : ∀ v, set.Mem v → v.covers address = true → v.serves access = true → windowLe v window

end WindowSet

section Runs

variable {Q : Qsort} {T : Target} {mmu : ExternalMmu} {set : WindowSet} {address : Nat}
  {access : AccessType}

theorem Reached.holds (reached : Reached Q T (SafeCall T) mmu set) :
    Holds T mmu set ∧ InOrder mmu := by
  induction reached with
  | start position =>
    constructor
    · constructor <;> simp [WindowSet.Mem]
    · exact fun _ => List.Pairwise.nil
  | step before isAllowed done ih =>
    exact ih.1.apply ih.2 isAllowed done

theorem plainScan_selects {l : List ExtMmuRange} (enumerates : set.Enumerates l)
    {window : ExtMmuRange} (found : plainScan l address access = some window) :
    set.Selects address access window := by
  have member := List.mem_reverse.mp (List.mem_of_find?_eq_some found)
  have accepted := List.find?_some found
  rw [Bool.and_eq_true] at accepted
  refine ⟨(enumerates.mem window).mp member, accepted.1, accepted.2, fun v inSet covers serves => ?_⟩
  exact find?_reverse_greatest windowLe_refl enumerates.sorted found v
    ((enumerates.mem v).mpr inSet) (by rw [covers, serves]; rfl)

theorem plainScan_unique (tieFree : set.TieFree access) {l l' : List ExtMmuRange}
    (left : set.Enumerates l) (right : set.Enumerates l') :
    plainScan l address access = plainScan l' address access := by
  cases found : plainScan l address access with
  | none =>
    symm
    rw [plainScan, List.find?_eq_none] at found ⊢
    intro window member
    rw [List.mem_reverse, right.mem, ← left.mem, ← List.mem_reverse] at member
    exact found window member
  | some window =>
    have selects := plainScan_selects left found
    cases found' : plainScan l' address access with
    | none =>
      rw [plainScan, List.find?_eq_none] at found'
      have refused := found' window
        (List.mem_reverse.mpr ((right.mem window).mpr selects.mem))
      rw [selects.covers, selects.serves] at refused
      exact absurd rfl refused
    | some other =>
      have selects' := plainScan_selects right found'
      have above := selects.greatest other selects'.mem selects'.covers selects'.serves
      have below := selects'.greatest window selects.mem selects.covers selects.serves
      rw [windowLe_iff] at above below
      rw [tieFree window other selects.mem selects'.mem selects.serves selects'.serves
        (by omega) (by omega)]

theorem Reached.enumerates (reached : Reached Q T (SafeCall T) mmu set) :
    set.Enumerates (ensureMmuWindowsSorted Q mmu).windows :=
  ⟨(reached.holds.1.ensureSorted Q).mem, reached.holds.2.ensureSorted Q⟩

theorem Reached.selectWindow_eq (reached : Reached Q T (SafeCall T) mmu set)
    (inOrder : set.EndsInOrder) :
    selectWindow (ensureMmuWindowsSorted Q mmu).windows address access =
      plainScan (ensureMmuWindowsSorted Q mmu).windows address access := by
  have holds := reached.holds.1.ensureSorted Q
  apply selectWindow_eq_plainScan reached.enumerates.sorted _ holds.endsAgree
  intro v inArray w inArray' earlier
  exact inOrder v w ((holds.mem v).mp inArray) ((holds.mem w).mp inArray') earlier

/-- In a run of safe calls every lookup sees the windows in order. Where the
windows satisfy the documented assumption, it selects a greatest window that
answers the access, or finds that none does; without ties the answer is that of
the plain scan of any enumeration of the set, however the set was built. -/
theorem lookupWindow_eq_plainScan (reached : Reached Q T (SafeCall T) mmu set) :
    (ensureMmuWindowsSorted Q mmu).windows.Pairwise windowLe ∧
    (set.EndsInOrder → ∀ address access,
      (∀ window, selectWindow (ensureMmuWindowsSorted Q mmu).windows address access =
        some window → set.Selects address access window) ∧
      (selectWindow (ensureMmuWindowsSorted Q mmu).windows address access = none →
        ∀ window, set.Mem window → window.covers address = true → window.serves access = false) ∧
      (set.TieFree access → (∀ l, set.Enumerates l →
          lookupWindow T (ensureMmuWindowsSorted Q mmu).windows address access =
            answerOf T (plainScan l address access) address access) ∧
        ∀ mmu', Reached Q T (SafeCall T) mmu' set →
          lookupWindow T (ensureMmuWindowsSorted Q mmu').windows address access =
            lookupWindow T (ensureMmuWindowsSorted Q mmu).windows address access)) := by
  have enumerates := reached.enumerates
  refine ⟨enumerates.sorted, fun inOrder address access => ⟨?_, ?_, fun tieFree => ⟨?_, ?_⟩⟩⟩
  · intro window selected
    rw [reached.selectWindow_eq inOrder] at selected
    exact plainScan_selects enumerates selected
  · intro nothing window member covers
    rw [reached.selectWindow_eq inOrder, plainScan, List.find?_eq_none] at nothing
    have refused := nothing window (List.mem_reverse.mpr ((enumerates.mem window).mpr member))
    rw [covers, Bool.true_and, Bool.not_eq_true] at refused
    exact refused
  · intro l other
    rw [lookupWindow, reached.selectWindow_eq inOrder, plainScan_unique tieFree enumerates other]
  · intro mmu' reached'
    rw [lookupWindow, lookupWindow, reached.selectWindow_eq inOrder,
      reached'.selectWindow_eq inOrder,
      plainScan_unique tieFree reached'.enumerates enumerates]

end Runs

def runCalls (Q : Qsort) (T : Target) (check : ExternalMmu → MmuCall → Bool) :
    ExternalMmu → WindowSet → List MmuCall → Option (ExternalMmu × WindowSet)
  | mmu, set, [] => some (mmu, set)
  | mmu, set, call :: rest =>
    if check mmu call then
      (applyCall Q T mmu call).bind fun mmu => runCalls Q T check mmu (set.apply T call) rest
    else none

theorem reached_runCalls {Q : Qsort} {T : Target} {allowed : ExternalMmu → MmuCall → Prop}
    {check : ExternalMmu → MmuCall → Bool}
    (passes : ∀ mmu call, check mmu call = true → allowed mmu call)
    {mmu mmu' : ExternalMmu} {set set' : WindowSet} {calls : List MmuCall}
    (reached : Reached Q T allowed mmu set)
    (done : runCalls Q T check mmu set calls = some (mmu', set')) :
    Reached Q T allowed mmu' set' := by
  induction calls generalizing mmu set with
  | nil =>
    cases done
    exact reached
  | cons call rest ih =>
    unfold runCalls at done
    rw [Option.ite_none_right_eq_some, Option.bind_eq_some_iff] at done
    obtain ⟨passed, next, applied, remaining⟩ := done
    exact ih (reached.step (passes mmu call passed) applied) remaining

/-! ### Two windows -/

def windowTarget : Target where
  pageBits := 12
  longBits := 32
  physAddrBits := 32
  pageBits_ge := Target.pages4K_ge
  pageBits_le := Target.pages4K_le

/-- Two readable windows from `0x1000`, up to `0x2000` and up to `0x3000`. -/
def twoWindows : List MmuCall :=
  [.acquire 1, .setStart 0 0x1000, .setEnd 0 0x2000 false, .setPrivileges 0 1,
    .acquire 1, .setStart 1 0x1000, .setEnd 1 0x3000 false, .setPrivileges 1 1]

def endsWhileUnsorted (mmu : ExternalMmu) : MmuCall → Bool
  | .setEnd _ _ _ => mmu.unsorted
  | .resetCovering _ => false
  | _ => true

theorem safeCall_of_endsWhileUnsorted {T : Target} (mmu : ExternalMmu) (call : MmuCall)
    (passes : endsWhileUnsorted mmu call = true) : SafeCall T mmu call := by
  cases call with
  | setEnd id addrEnd inclusive => exact Or.inl passes
  | resetCovering address => exact absurd passes Bool.false_ne_true
  | _ => trivial

def sampleWindow (id rangeEnd : Nat) : ExtMmuRange where
  id := id
  rangeStart := 0x1000
  rangeEnd := rangeEnd
  addend := 0
  type := 1
  priv := 1
  rangeEndInclusive := false

/-- The array after the calls and a lookup. -/
def sortedWindows : ExternalMmu where
  position := .replace
  windows := [sampleWindow 0 0x2000, sampleWindow 1 0x3000]
  nextId := 2
  unsorted := false

theorem sortedWindows_reached :
    ∃ set, Reached insertionQsort windowTarget (SafeCall windowTarget) sortedWindows set := by
  obtain ⟨set, done⟩ : ∃ set,
      runCalls insertionQsort windowTarget endsWhileUnsorted ⟨.replace, [], 0, false⟩
        ⟨fun _ => none, 0⟩ (twoWindows ++ [.lookup]) = some (sortedWindows, set) := ⟨_, rfl⟩
  exact ⟨set, reached_runCalls safeCall_of_endsWhileUnsorted (.start .replace) done⟩

theorem Holds.endsInOrder {T : Target} {mmu : ExternalMmu} {set : WindowSet}
    (holds : Holds T mmu set) (inOrder : EndsInOrder mmu.windows) : set.EndsInOrder :=
  fun v w inSet inSet' => inOrder v ((holds.mem v).mpr inSet) w ((holds.mem w).mpr inSet')

theorem lookupWindow_eq_plainScan_sample : ∃ set : WindowSet,
    sortedWindows.windows.Pairwise windowLe ∧
      set.Selects 0x2800 .dataLoad (sampleWindow 1 0x3000) := by
  obtain ⟨set, reached⟩ := sortedWindows_reached
  obtain ⟨sorted, agrees⟩ := lookupWindow_eq_plainScan reached
  have inOrder : EndsInOrder sortedWindows.windows := by
    unfold EndsInOrder
    decide
  have selected : selectWindow (ensureMmuWindowsSorted insertionQsort sortedWindows).windows
      0x2800 .dataLoad = some (sampleWindow 1 0x3000) := by decide
  exact ⟨set, sorted, (agrees (reached.holds.1.endsInOrder inOrder) 0x2800 .dataLoad).1 _ selected⟩

/-- The windows are looked up, and then the first one is extended to `0x4000`: the
lookup of `0x3500` ends at the second one, which now sorts before the first. -/
theorem lookupWindow_misses_extended : ∃ mmu set window,
    Reached insertionQsort windowTarget (fun _ _ => True) mmu set ∧
      set.EndsInOrder ∧ set.TieFree .dataLoad ∧ set.Mem window ∧
      window.covers 0x3500 = true ∧ window.serves .dataLoad = true ∧
      lookupWindow windowTarget (ensureMmuWindowsSorted insertionQsort mmu).windows 0x3500 .dataLoad =
        .unmapped := by
  obtain ⟨set, safe⟩ := sortedWindows_reached
  have anyCalls : Reached insertionQsort windowTarget (fun _ _ => True) sortedWindows set :=
    safe.mono fun _ _ _ => trivial
  have done : applyCall insertionQsort windowTarget sortedWindows (.setEnd 0 0x4000 false) =
      some { sortedWindows with
        windows := [sampleWindow 0 0x4000, sampleWindow 1 0x3000] } := by decide
  have updated : updateById 0 (·.withEnd windowTarget 0x4000 false) sortedWindows.windows =
      some [sampleWindow 0 0x4000, sampleWindow 1 0x3000] := by decide
  have holds := safe.holds.1.change updated (fun _ => rfl)
    (fun window _ => withEnd_ended (by decide) window) false
  have noTie : ∀ v ∈ [sampleWindow 0 0x4000, sampleWindow 1 0x3000],
      ∀ w ∈ [sampleWindow 0 0x4000, sampleWindow 1 0x3000],
        v.rangeStart = w.rangeStart → v.rangeEnd = w.rangeEnd → v = w := by decide
  refine ⟨_, _, sampleWindow 0 0x4000, anyCalls.step trivial done, holds.endsInOrder ?_, ?_,
    (holds.mem _).mp (by decide), by decide, by decide, by decide⟩
  · unfold EndsInOrder
    decide
  · intro v w inSet inSet' _ _
    exact noTie v ((holds.mem v).mpr inSet) w ((holds.mem w).mpr inSet')

end Tlib.Softmmu
