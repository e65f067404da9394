import Tlib.TranslationCache.RangeInvalidation

/-!
Contract: addresses of dirty code on the way to other cores.

Owns: the list of dirty addresses of the sending core, its array, and the blocks that a receiving
core invalidates.
-/

namespace Tlib.TranslationCache

open List Option

def maxDirtyAddressesListCount : Nat := 100

/-- The list, and what has been done with it. -/
structure DirtyAddresses where
  dirtyAddressesList : Nat → BitVec 64
  currentIndex : Nat
  /-- The addresses of all calls of `tlib_mass_broadcast_dirty`. -/
  sent : List (BitVec 64)
  accessed : List Int

/-- At program start. -/
def noDirtyAddresses : DirtyAddresses := ⟨fun _ => 0, 0, [], []⟩

namespace DirtyAddresses

variable (d : DirtyAddresses)

def pending : List (BitVec 64) := (range d.currentIndex).map d.dirtyAddressesList

def log : List (BitVec 64) := d.sent ++ d.pending

def flushDirtyAddressesList : DirtyAddresses :=
  if d.currentIndex = 0 then d
  else
    { d with
      currentIndex := 0
      sent := d.sent ++ d.pending
      accessed := d.accessed ++ (range d.currentIndex).map Int.ofNat }

/-- `dirty_addresses_list[current_dirty_addresses_list_index - 1]` -/
def previous (front : BitVec 64) : BitVec 64 :=
  if d.currentIndex = 0 then front else d.dirtyAddressesList (d.currentIndex - 1)

/-- The write at the index. -/
def store (address : BitVec 64) : DirtyAddresses :=
  { d with
    dirtyAddressesList := Function.update d.dirtyAddressesList d.currentIndex address
    currentIndex := d.currentIndex + 1
    accessed := d.accessed ++ [(d.currentIndex : Int)] }

def appendDirtyAddress (front address : BitVec 64) : DirtyAddresses :=
  let read := { d with accessed := d.accessed ++ [(d.currentIndex : Int) - 1] }
  if address = d.previous front then read
  else if d.currentIndex = maxDirtyAddressesListCount then
    read.flushDirtyAddressesList.store address
  else read.store address

end DirtyAddresses

inductive DirtyCall where
  /-- The word in front of the array belongs to something else, so that each call can find another
  one there. -/
  | append (front address : BitVec 64)
  | flush

def DirtyCall.run (d : DirtyAddresses) : DirtyCall → DirtyAddresses
  | append front address => d.appendDirtyAddress front address
  | flush => d.flushDirtyAddressesList

def afterCalls (calls : List DirtyCall) : DirtyAddresses :=
  calls.foldl DirtyCall.run noDirtyAddresses

def AccessesInBounds (calls : List DirtyCall) : Prop :=
  ∀ i ∈ (afterCalls calls).accessed, 0 ≤ i ∧ i < maxDirtyAddressesListCount

/-- Every address that is appended keeps a place in the list until it is sent. -/
def LosesNothing (calls : List DirtyCall) : Prop :=
  ∀ before front address after, before ++ .append front address :: after <+: calls →
    (afterCalls before).pending.getLast? = some address ∨
      ∃ later, (afterCalls (before ++ .append front address :: after)).log =
        (afterCalls before).log ++ address :: later

/-- The loop of `invalidate_dirty_addresses_shared` -/
def invalidateDirtyFrom (T : Target) : State → List Address → Option State
  | s, [] => some s
  | s, address :: rest => do
    let start := T.pageBase address
    let stop := start ||| (T.pageSize - 1)
    let s ← tbInvalidatePhysPageRangeInner T s start stop false
    invalidateDirtyFrom T s rest

def receivedAddresses (tbBroadcastDirty : Bool) (addresses : List Address) : List Address :=
  if tbBroadcastDirty then addresses else []

/-- `invalidate_dirty_addresses_shared`, with the list of `tlib_get_dirty_addresses_list`. -/
def invalidateDirtyAddressesShared (T : Target) (s : State) (tbBroadcastDirty : Bool)
    (addresses : List Address) : Option State :=
  if tbBroadcastDirty then invalidateDirtyFrom T s addresses else some s

section Sender

variable {d : DirtyAddresses} {front address : BitVec 64}

namespace DirtyAddresses

theorem pending_zero (empty : d.currentIndex = 0) : d.pending = [] := by
  unfold pending
  rw [empty]
  rfl

theorem pending_store : (d.store address).pending = d.pending ++ [address] := by
  have same : ∀ i ∈ range d.currentIndex,
      Function.update d.dirtyAddressesList d.currentIndex address i = d.dirtyAddressesList i := by
    intro i inside
    rw [mem_range] at inside
    exact Function.update_of_ne (Nat.ne_of_lt inside) _ _
  unfold pending store
  dsimp only
  rw [range_succ, map_append, map_congr_left same, map_singleton,
    Function.update_self]

theorem log_store : (d.store address).log = d.log ++ [address] := by
  unfold log
  rw [pending_store, append_assoc]
  rfl

theorem log_flush : d.flushDirtyAddressesList.log = d.log := by
  unfold log
  unfold flushDirtyAddressesList
  split_ifs with empty
  · rw [pending_zero empty]
  · exact append_nil _

theorem getLast?_pending (nonempty : d.currentIndex ≠ 0) :
    d.pending.getLast? = some (d.previous front) := by
  obtain ⟨n, isSucc⟩ := Nat.exists_eq_succ_of_ne_zero nonempty
  unfold pending previous
  rw [if_neg nonempty, isSucc, range_succ, map_append, map_singleton,
    getLast?_concat, Nat.succ_sub_one]

theorem log_append (differs : address ≠ d.previous front) :
    (d.appendDirtyAddress front address).log = d.log ++ [address] := by
  unfold appendDirtyAddress
  rw [if_neg differs]
  split_ifs with full
  · rw [log_store, log_flush]
    rfl
  · exact log_store

theorem log_append_same (same : address = d.previous front) :
    (d.appendDirtyAddress front address).log = d.log := by
  unfold appendDirtyAddress
  rw [if_pos same]
  rfl

end DirtyAddresses

theorem DirtyCall.run_log (call : DirtyCall) : d.log <+: (call.run d).log := by
  cases call with
  | append front address =>
    show d.log <+: (d.appendDirtyAddress front address).log
    by_cases same : address = d.previous front
    · rw [DirtyAddresses.log_append_same same]
    · rw [DirtyAddresses.log_append same]
      exact prefix_append _ _
  | flush =>
    show d.log <+: d.flushDirtyAddressesList.log
    rw [DirtyAddresses.log_flush]

theorem DirtyAddresses.flush_accessed : d.accessed <+: d.flushDirtyAddressesList.accessed := by
  unfold flushDirtyAddressesList
  split_ifs
  · exact prefix_rfl
  · exact prefix_append _ _

theorem DirtyAddresses.append_accessed :
    d.accessed ++ [(d.currentIndex : Int) - 1] <+: (d.appendDirtyAddress front address).accessed := by
  unfold appendDirtyAddress
  split_ifs
  · exact prefix_rfl
  · have flushed := @flush_accessed
      { d with accessed := d.accessed ++ [(d.currentIndex : Int) - 1] }
    exact flushed.trans (prefix_append _ _)
  · exact prefix_append _ _

theorem DirtyCall.run_accessed (call : DirtyCall) : d.accessed <+: (call.run d).accessed := by
  cases call with
  | append front address =>
    exact (prefix_append _ _).trans DirtyAddresses.append_accessed
  | flush => exact DirtyAddresses.flush_accessed

theorem foldl_run_extends {α : Type*} {part : DirtyAddresses → List α}
    (step : ∀ d call, part d <+: part (DirtyCall.run d call)) (calls : List DirtyCall) :
    part d <+: part (calls.foldl DirtyCall.run d) := by
  induction calls generalizing d with
  | nil => exact prefix_rfl
  | cons call rest ih => exact (step d call).trans ih

theorem flush_of_empty (empty : d.currentIndex = 0) : DirtyCall.flush.run d = d := if_pos empty

theorem accessed_of_append (empty : d.currentIndex = 0) {calls : List DirtyCall}
    (appends : .append front address ∈ calls) : -1 ∈ (calls.foldl DirtyCall.run d).accessed := by
  induction calls with
  | nil => cases appends
  | cons call rest ih =>
    rw [foldl_cons]
    cases call with
    | append front' address' =>
      have first := @DirtyAddresses.append_accessed d front' address'
      rw [empty] at first
      exact (foldl_run_extends (fun _ call => call.run_accessed) rest).subset
        (first.subset (mem_append_right _ (mem_singleton_self _)))
    | flush =>
      rw [flush_of_empty empty]
      refine ih ((mem_cons.mp appends).resolve_left fun same => ?_)
      cases same

theorem afterCalls_of_flushes {calls : List DirtyCall}
    (flushes : ∀ front address, .append front address ∉ calls) :
    afterCalls calls = noDirtyAddresses := by
  induction calls with
  | nil => rfl
  | cons call rest ih =>
    cases call with
    | append front address => exact absurd mem_cons_self (flushes front address)
    | flush =>
      exact ih fun front address member =>
        flushes front address (mem_cons_of_mem _ member)

theorem accessesInBounds_iff (calls : List DirtyCall) :
    AccessesInBounds calls ↔ ∀ front address, .append front address ∉ calls := by
  constructor
  · intro inBounds front address appends
    have negative := inBounds (-1) (accessed_of_append rfl appends)
    omega
  · intro flushes i member
    rw [afterCalls_of_flushes flushes] at member
    cases member

theorem losesNothing_iff (calls : List DirtyCall) :
    LosesNothing calls ↔ ∀ before front address, before ++ [.append front address] <+: calls →
      (afterCalls before).currentIndex = 0 → front ≠ address := by
  constructor
  · intro nothingLost before front address isPrefix empty same
    have isPrevious : address = (afterCalls before).previous front := by
      rw [← same]
      exact (if_pos empty).symm
    rcases nothingLost before front address [] isPrefix with isLast | ⟨later, grown⟩
    · rw [DirtyAddresses.pending_zero empty] at isLast
      cases isLast
    · unfold afterCalls at grown isPrevious
      rw [foldl_append, foldl_cons, foldl_nil] at grown
      have unchanged := DirtyAddresses.log_append_same isPrevious
      rw [show DirtyCall.run _ (.append front address) = DirtyAddresses.appendDirtyAddress _ front
        address from rfl, unchanged] at grown
      have lengths := congrArg length grown
      rw [length_append, length_cons] at lengths
      omega
  · intro apart before front address after isPrefix
    have part : before ++ [.append front address] <+: calls := by
      refine List.IsPrefix.trans ⟨after, ?_⟩ isPrefix
      rw [append_assoc, singleton_append]
    by_cases same : address = (afterCalls before).previous front
    · have nonempty : (afterCalls before).currentIndex ≠ 0 := by
        intro empty
        refine apart before front address part empty ?_
        rw [same]
        exact (if_pos empty).symm
      refine .inl ?_
      rw [@DirtyAddresses.getLast?_pending _ front nonempty, ← same]
    · have appended := DirtyAddresses.log_append same
      obtain ⟨later, isLog⟩ := @foldl_run_extends
        ((afterCalls before).appendDirtyAddress front address) _ DirtyAddresses.log
        (fun d call => call.run_log) after
      refine .inr ⟨later, ?_⟩
      rw [appended, append_assoc, singleton_append] at isLog
      rw [isLog]
      unfold afterCalls
      rw [foldl_append, foldl_cons]
      rfl

end Sender

/-- An invalidation up to the last byte of a page takes the block. -/
def TranslationBlock.TakenOn (T : Target) (tb : TranslationBlock) (page : Nat) : Prop :=
  (tb.pageOf T 0 = some page ∧ T.pageOffset tb.pc ≠ T.pageSize - 1) ∨ tb.pageOf T 1 = some page

section Receiver

variable {T : Target} {s : State} {σ : Shape} {tb : TranslationBlock} {addresses : List Address}

theorem Target.pageSize_ge (T : Target) : 2 ^ 7 ≤ T.pageSize :=
  Nat.pow_le_pow_right (by decide) T.pageBits_ge

theorem Target.pageBase_or_last (T : Target) (address : Address) :
    T.pageBase address ||| (T.pageSize - 1) = T.pageBase address + (T.pageSize - 1) := by
  have isOffset : T.pageOffset (T.pageSize - 1) = T.pageSize - 1 :=
    Nat.mod_eq_of_lt (Nat.sub_lt T.pageSize_pos Nat.zero_lt_one)
  have sum := or_pageOffset T address (T.pageSize - 1)
  rwa [isOffset] at sum

theorem TranslationBlock.Aligned.met_page_iff (aligned : tb.Aligned T) (address : Address) :
    tb.Met T (T.pageBase address) (T.pageBase address + (T.pageSize - 1)) ↔
      tb.TakenOn T (T.pageIndex address) := by
  have large := T.pageSize_ge
  have inPage := T.pageOffset_lt tb.pc
  rw [Met, Fin.exists_fin_two, TakenOn, T.pageIndex_pageBase]
  refine or_congr (and_congr_right fun home => ?_) (and_iff_left_of_imp fun home => ?_)
  · rw [meets_iff, entryStart_zero, entryEnd_zero, aligned.pageAddr0_eq home]
    unfold Address at *
    omega
  · rw [meets_iff, entryStart_one, aligned.pageAddr1_eq home, getD_some]
    unfold Address at *
    omega

theorem invalidateDirtyFrom_eq (rep : Represents T s σ)
    (aligned : ∀ t, σ.Live t → (s.tbs t).Aligned T) (addresses : List Address) :
    ∃ s' σ' l, invalidateDirtyFrom T s addresses = some s' ∧ AfterInvalidations T s σ l s' σ' ∧
      ∀ t, t ∈ l ↔ σ.Live t ∧ ∃ a ∈ addresses, (s.tbs t).TakenOn T (T.pageIndex a) := by
  induction addresses generalizing s σ with
  | nil => exact ⟨s, σ, [], rfl, AfterInvalidations.refl rep, by simp⟩
  | cons address rest ih =>
    have large := T.pageSize_ge
    have onePage : T.pageIndex (T.pageBase address) =
        T.pageIndex (T.pageBase address + (T.pageSize - 1) - 1) := by
      apply T.pageIndex_pred
      · omega
      · rw [Target.pageBase, Nat.mul_mod_left]
        omega
    obtain ⟨s₁, σ₁, l₁, first, effect₁, taken₁⟩ := tbInvalidatePhysPageRangeInner_eq rep onePage false
    have aligned₁ : ∀ t, σ₁.Live t → (s₁.tbs t).Aligned T := by
      intro t live
      rw [effect₁.same.tbs]
      exact aligned t ((effect₁.live t).mp live).1
    obtain ⟨s₂, σ₂, l₂, others, effect₂, taken₂⟩ := ih effect₁.rep aligned₁
    rw [effect₁.same.tbs] at taken₂
    refine ⟨s₂, σ₂, l₁ ++ l₂, ?_, effect₁.trans effect₂, fun t => ?_⟩
    · rw [invalidateDirtyFrom]
      simp only [bind_eq_bind]
      rw [T.pageBase_or_last, first, bind_some, others]
    · rw [mem_append_iff_met effect₁ taken₁ taken₂]
      refine and_congr_right fun live => ?_
      rw [(aligned t live).met_page_iff]
      simp

theorem invalidateDirtyAddressesShared_hashed (reachable : Reachable T s) (tbBroadcastDirty : Bool)
    (addresses : List Address) :
    ∃ s', invalidateDirtyAddressesShared T s tbBroadcastDirty addresses = some s' ∧
      s'.tbs = s.tbs ∧ ∀ t, s'.Hashed T t ↔ s.Hashed T t ∧
        ¬∃ a ∈ receivedAddresses tbBroadcastDirty addresses,
          (s.tbs t).TakenOn T (T.pageIndex a) := by
  cases tbBroadcastDirty with
  | false =>
    refine ⟨s, rfl, rfl, fun t => ?_⟩
    simp [receivedAddresses]
  | true =>
    obtain ⟨σ, rep⟩ := reachable.represents
    obtain ⟨s', σ', l, done, effect, taken⟩ := invalidateDirtyFrom_eq rep
      (fun t live => (reachable.isGenerated ((rep.live_iff t).mpr live)).pagesAligned) addresses
    refine ⟨s', done, effect.same.tbs, fun t => ?_⟩
    rw [effect.hashed_iff rep, taken]
    refine and_congr_right fun hashed => ?_
    obtain ⟨h, inBucket⟩ := (rep.hashed_iff t).mp hashed
    simp [rep.bucketLive h t inBucket, receivedAddresses]

theorem TranslationBlock.Aligned.physPc_of_not_taken (aligned : tb.Aligned T)
    (twoPages : T.pageOffset tb.pc + tb.size ≤ 2 * T.pageSize) {byte address : Address}
    (onPage : T.pageIndex byte = T.pageIndex address) (contains : tb.Contains T byte)
    (left : ¬tb.TakenOn T (T.pageIndex address)) :
    tb.physPc T = T.pageBase address + (T.pageSize - 1) := by
  obtain ⟨i, below, isByte⟩ := contains
  unfold TranslationBlock.byteAt at isByte
  dsimp only at isByte
  split_ifs at isByte with first
  · obtain rfl := some.inj isByte
    rw [Target.pageIndex_add aligned.first first] at onPage
    have atEnd : T.pageOffset tb.pc = T.pageSize - 1 := by
      by_contra inFront
      exact left (.inl ⟨congrArg some onPage, inFront⟩)
    have base : tb.pageAddr0 = T.pageBase address := by
      rw [← aligned.first]
      exact congrArg (· * T.pageSize) onPage
    rw [TranslationBlock.physPc, base, atEnd]
  · rw [map_eq_some_iff] at isByte
    obtain ⟨page, isPage, rfl⟩ := isByte
    have inside : T.pageOffset tb.pc + i - T.pageSize < T.pageSize := by omega
    rw [Target.pageIndex_add (aligned.second page isPage) inside] at onPage
    refine absurd (.inr ?_) left
    rw [TranslationBlock.pageOf, isPage]
    exact congrArg some onPage

end Receiver

/-- The array of the sender is accessed in bounds only while nothing is appended, and an address is
lost exactly if it is appended to an empty list and stands in front of the array. The receiver
leaves no block with a byte of the page of a received address exactly if each such block is taken on
some page; of the blocks that have two pages at most, it leaves those that begin at the last byte of
the page. -/
theorem dirtyBroadcast_exact {T : Target} {s : State} (reachable : Reachable T s)
    (calls : List DirtyCall) (tbBroadcastDirty : Bool) (addresses : List Address) :
    (AccessesInBounds calls ↔ ∀ front address, .append front address ∉ calls) ∧
    (LosesNothing calls ↔ ∀ before front address, before ++ [.append front address] <+: calls →
      (afterCalls before).currentIndex = 0 → front ≠ address) ∧
    ∃ s', invalidateDirtyAddressesShared T s tbBroadcastDirty addresses = some s' ∧
      ((∀ a ∈ receivedAddresses tbBroadcastDirty addresses, ∀ tb, s'.Hashed T tb → ∀ byte,
          T.pageIndex byte = T.pageIndex a → ¬(s'.tbs tb).Contains T byte) ↔
        ∀ a ∈ receivedAddresses tbBroadcastDirty addresses, ∀ tb, s.Hashed T tb → ∀ byte,
          T.pageIndex byte = T.pageIndex a → (s.tbs tb).Contains T byte →
          ∃ b ∈ receivedAddresses tbBroadcastDirty addresses,
            (s.tbs tb).TakenOn T (T.pageIndex b)) ∧
      ∀ a ∈ receivedAddresses tbBroadcastDirty addresses, ∀ tb, s'.Hashed T tb →
        T.pageOffset (s'.tbs tb).pc + (s'.tbs tb).size ≤ 2 * T.pageSize → ∀ byte,
        T.pageIndex byte = T.pageIndex a → (s'.tbs tb).Contains T byte →
        (s'.tbs tb).physPc T = T.pageBase a + (T.pageSize - 1) := by
  refine ⟨accessesInBounds_iff calls, losesNothing_iff calls, ?_⟩
  obtain ⟨s', done, same, hashed⟩ :=
    invalidateDirtyAddressesShared_hashed reachable tbBroadcastDirty addresses
  refine ⟨s', done, ?_, fun a received tb left twoPages byte onPage contains => ?_⟩
  · rw [same]
    constructor
    · intro cleared a received tb before byte onPage contains
      by_contra missed
      exact cleared a received tb ((hashed tb).mpr ⟨before, missed⟩) byte onPage contains
    · intro taken a received tb left byte onPage contains
      obtain ⟨before, missed⟩ := (hashed tb).mp left
      exact missed (taken a received tb before byte onPage contains)
  · obtain ⟨before, missed⟩ := (hashed tb).mp left
    obtain ⟨σ, rep⟩ := reachable.represents
    obtain ⟨h, inBucket⟩ := (rep.hashed_iff tb).mp before
    have live := (rep.live_iff tb).mpr (rep.bucketLive h tb inBucket)
    rw [same] at twoPages contains ⊢
    exact (reachable.isGenerated live).pagesAligned.physPc_of_not_taken twoPages onPage contains
      fun taken => missed ⟨a, received, taken⟩

/-- A block of four bytes at `0x1000`; another core has written to the end of the page. -/
theorem dirtyBroadcast_exact_sample : ∃ s s', Reachable sampleTarget s ∧ s.Hashed sampleTarget 0 ∧
    invalidateDirtyAddressesShared sampleTarget s true [0x1ffc] = some s' ∧
    ¬s'.Hashed sampleTarget 0 := by
  obtain ⟨s, tb, first, inBucket, pc, size, byte, physPc⟩ : ∃ s tb,
      tbFindSlow sampleTarget (emptyCache sampleBuffer) (sampleRequest 0x1000 false) =
          some (s, tb) ∧
        s.hash (.bucket ((s.tbs 0).hashIndex sampleTarget)) = some 0 ∧
        (s.tbs 0).pc = 0x1000 ∧ (s.tbs 0).size = 4 ∧
        (s.tbs 0).byteAt sampleTarget 0 = some 0x1000 ∧ (s.tbs 0).physPc sampleTarget = 0x1000 :=
    ⟨_, _, rfl, by decide, by decide, by decide, by decide, by decide⟩
  have start := emptyCache_reachable sampleTarget (fun _ _ => True) sampleBuffer
  have reachable := start.step trivial (.findSlow _ first)
  obtain ⟨-, -, s', done, -, left⟩ := dirtyBroadcast_exact reachable [] true [0x1ffc]
  refine ⟨s, s', reachable, Library.Linked.Reaches.here inBucket, done, fun hashed => ?_⟩
  obtain ⟨s'', done', same, -⟩ := invalidateDirtyAddressesShared_hashed reachable true [0x1ffc]
  rw [done, some.injEq] at done'
  rw [← done'] at same
  have contains : (s'.tbs 0).Contains sampleTarget 0x1000 := by
    rw [same]
    exact ⟨0, by rw [size]; decide, byte⟩
  have atEnd := left 0x1ffc (mem_singleton_self _) 0 hashed
    (by rw [same, pc, size]; decide) 0x1000 (by decide) contains
  rw [same, physPc] at atEnd
  exact absurd atEnd (by decide)

/-- The first address of a program is read in front of the array and lost if it stands there; and a
block that begins at the last byte of a page is left although this page was written. -/
theorem dirtyBroadcast_loses :
    ¬AccessesInBounds [.append 0 0x1ffc] ∧ ¬LosesNothing [.append 0x1ffc 0x1ffc] ∧
    ∃ s s', Reachable sampleTarget s ∧
      invalidateDirtyAddressesShared sampleTarget s true [0x1ffc] = some s' ∧
      s'.Hashed sampleTarget 0 ∧ (s'.tbs 0).Contains sampleTarget 0x1fff := by
  refine ⟨?_, ?_, ?_⟩
  · intro inBounds
    have negative := inBounds (-1) (by decide)
    omega
  · intro nothingLost
    rcases nothingLost [] 0x1ffc 0x1ffc [] prefix_rfl with isLast | ⟨later, grown⟩
    · revert isLast
      decide
    · have nothing : (afterCalls ([] ++ [.append 0x1ffc 0x1ffc])).log = [] := by decide
      exact append_ne_nil_of_right_ne_nil _ (cons_ne_nil _ _) grown.symm
  · obtain ⟨s, tb, s', first, done, inBucket, size, byte⟩ : ∃ s tb s',
        tbFindSlow sampleTarget (emptyCache sampleBuffer)
            { sampleRequest 0x1fff false with pages := scatteredPages } = some (s, tb) ∧
          invalidateDirtyAddressesShared sampleTarget s true [0x1ffc] = some s' ∧
          s'.hash (.bucket ((s'.tbs 0).hashIndex sampleTarget)) = some 0 ∧
          (s'.tbs 0).size = 4 ∧ (s'.tbs 0).byteAt sampleTarget 0 = some 0x1fff :=
      ⟨_, _, _, rfl, rfl, by decide, by decide, by decide⟩
    have start := emptyCache_reachable sampleTarget (fun _ _ => True) sampleBuffer
    have reachable := start.step trivial (.findSlow _ first)
    refine ⟨s, s', reachable, done, Library.Linked.Reaches.here inBucket, 0, ?_, byte⟩
    rw [size]
    decide

end Tlib.TranslationCache
