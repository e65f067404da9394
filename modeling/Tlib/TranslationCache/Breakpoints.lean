import Tlib.TranslationCache.RangeInvalidation

/-!
Contract: breakpoints and the blocks translated without them.

Owns: the breakpoint list, `breakpoint_invalidate`, and the blocks that a call in a debugging run
leaves.
-/

namespace Tlib.TranslationCache

open List Option

structure CPUBreakpoint where
  pc : Address
  flags : Nat
deriving DecidableEq, Repr

structure DebugState where
  cache : State
  breakpoints : List CPUBreakpoint

def bpGdb : Nat := 0x10

def enoent : Int := 2

/-- The test with which `breakpoint_invalidate` passes a record. -/
def TranslationBlock.skips (T : Target) (tb : TranslationBlock) (pc : Address) : Bool :=
  pc < tb.pc || T.toUlong (tb.pc + tb.size) < pc

/-- `physical_addr`: the address on the first page of the record. -/
def TranslationBlock.breakpointAddr (T : Target) (tb : TranslationBlock) (pc : Address) : Address :=
  T.pageBase tb.pageAddr0 ||| T.pageOffset pc

/-- The loop of `breakpoint_invalidate` over records, dead and alive. -/
def breakpointInvalidateFrom (T : Target) (pc : Address) : State → List TbId → Option State
  | s, [] => some s
  | s, i :: rest =>
    if (s.tbs i).skips T pc then breakpointInvalidateFrom T pc s rest
    else do
      let physicalAddr := (s.tbs i).breakpointAddr T pc
      let s ← tbInvalidatePhysPageRangeInner T s physicalAddr (physicalAddr + 1) false
      breakpointInvalidateFrom T pc s rest

/-- `breakpoint_invalidate`; no iteration changes `nb_tbs`. -/
def breakpointInvalidate (T : Target) (s : State) (pc : Address) : Option State :=
  breakpointInvalidateFrom T pc s (range s.nbTbs)

/-- The list after `cpu_breakpoint_insert`; all GDB breakpoints are kept in front. -/
def withBreakpoint (breakpoints : List CPUBreakpoint) (bp : CPUBreakpoint) : List CPUBreakpoint :=
  if bp.flags &&& bpGdb ≠ 0 then bp :: breakpoints else breakpoints ++ [bp]

def cpuBreakpointInsert (T : Target) (d : DebugState) (pc : Address) (flags : Nat) :
    Option (DebugState × Int) := do
  let cache ← breakpointInvalidate T d.cache pc
  some (⟨cache, withBreakpoint d.breakpoints ⟨pc, flags⟩⟩, 0)

/-- `cpu_breakpoint_remove_by_ref`; a reference is a place on the list. -/
def cpuBreakpointRemoveByRef (T : Target) (d : DebugState) (place : Nat) : Option DebugState := do
  let breakpoint ← d.breakpoints[place]?
  let cache ← breakpointInvalidate T d.cache breakpoint.pc
  some ⟨cache, d.breakpoints.eraseIdx place⟩

def cpuBreakpointRemove (T : Target) (d : DebugState) (pc : Address) (flags : Nat) :
    Option (DebugState × Int) :=
  match d.breakpoints.findIdx? fun bp => bp.pc = pc && bp.flags = flags with
  | some place => (cpuBreakpointRemoveByRef T d place).map fun d => (d, 0)
  | none => some (d, -enoent)

/-- The loop of `cpu_breakpoint_remove_all`, from `place` on. -/
def removeAllFrom (T : Target) (mask : Nat) : Nat → Nat → DebugState → Option DebugState
  | 0, _, d => some d
  | count + 1, place, d => do
    let bp ← d.breakpoints[place]?
    if bp.flags &&& mask ≠ 0 then
      let d ← cpuBreakpointRemoveByRef T d place
      removeAllFrom T mask count place d
    else removeAllFrom T mask count (place + 1) d

def cpuBreakpointRemoveAll (T : Target) (d : DebugState) (mask : Nat) : Option DebugState :=
  removeAllFrom T mask d.breakpoints.length 0 d

def masked (mask : Nat) (breakpoints : List CPUBreakpoint) : List Address :=
  (breakpoints.filter fun bp => bp.flags &&& mask ≠ 0).map CPUBreakpoint.pc

inductive DebugCall where
  | insert (pc : Address) (flags : Nat)
  | remove (pc : Address) (flags : Nat)
  | removeAll (mask : Nat)
deriving DecidableEq, Repr

namespace DebugCall

def run (T : Target) (d : DebugState) : DebugCall → Option (DebugState × Int)
  | insert pc flags => cpuBreakpointInsert T d pc flags
  | remove pc flags => cpuBreakpointRemove T d pc flags
  | removeAll mask => (cpuBreakpointRemoveAll T d mask).map fun d => (d, 0)

def affected (d : DebugState) : DebugCall → List Address
  | insert pc _ => [pc]
  | remove pc flags => if ⟨pc, flags⟩ ∈ d.breakpoints then [pc] else []
  | removeAll mask => masked mask d.breakpoints

end DebugCall

inductive DebugStep (T : Target) (d : DebugState) : DebugState → Prop
  | call (call : DebugCall) {d' : DebugState} {result : Int}
      (done : call.run T d = some (d', result)) : DebugStep T d d'
  | cache {event : Event} {s' : State} (step : Step T d.cache event s') :
      DebugStep T d ⟨s', d.breakpoints⟩

def DebugReachable (T : Target) (d : DebugState) : Prop :=
  ∃ start : DebugState, Initial start.cache ∧ Relation.ReflTransGen (DebugStep T) start d

def TranslationBlock.Covers (T : Target) (tb : TranslationBlock) (pc : Address) : Prop :=
  ∃ k, k < tb.size ∧ pc = T.toUlong (tb.pc + k)

/-- The part of the block on a physical page goes over an offset, its end included. -/
def TranslationBlock.GoesOver (T : Target) (tb : TranslationBlock) (page offset : Nat) : Prop :=
  (tb.pageOf T 0 = some page ∧ T.pageOffset tb.pc ≤ offset ∧
      offset ≤ T.pageOffset tb.pc + tb.size) ∨
    (tb.pageOf T 1 = some page ∧ offset ≤ T.pageOffset (T.toUlong (tb.pc + tb.size)))

/-- Some record near the address is of a block that goes over its offset. -/
def State.Scanned (T : Target) (s : State) (pc : Address) (tb : TbId) : Prop :=
  ∃ i < s.nbTbs, (s.tbs i).pc ≤ pc ∧ pc ≤ T.toUlong ((s.tbs i).pc + (s.tbs i).size) ∧
    (s.tbs tb).GoesOver T (T.pageIndex (s.tbs i).pageAddr0) (T.pageOffset pc)

section Scan

variable {T : Target} {s : State} {σ : Shape} {tb : TranslationBlock}

theorem TranslationBlock.Aligned.met_iff (aligned : tb.Aligned T) (a : Address) :
    tb.Met T a (a + 1) ↔ tb.GoesOver T (T.pageIndex a) (T.pageOffset a) := by
  have split := T.pageBase_add_pageOffset a
  rw [Met, Fin.exists_fin_two, GoesOver]
  refine or_congr (and_congr_right fun home => ?_) (and_congr_right fun home => ?_)
  · rw [meets_iff, entryStart_zero, entryEnd_zero, aligned.pageAddr0_eq home]
    unfold Address at *
    omega
  · rw [meets_iff, entryStart_one, entryEnd_one, aligned.pageAddr1_eq home, getD_some]
    unfold Address at *
    omega

theorem TranslationBlock.skips_eq_false (pc : Address) :
    tb.skips T pc = false ↔ tb.pc ≤ pc ∧ pc ≤ T.toUlong (tb.pc + tb.size) := by
  simp [skips]

theorem TranslationBlock.breakpointAddr_eq (pc : Address) :
    tb.breakpointAddr T pc = T.pageBase tb.pageAddr0 + T.pageOffset pc :=
  or_pageOffset T tb.pageAddr0 pc

theorem TranslationBlock.Aligned.met_breakpointAddr_iff (aligned : tb.Aligned T)
    (record : TranslationBlock) (pc : Address) :
    tb.Met T (record.breakpointAddr T pc) (record.breakpointAddr T pc + 1) ↔
      tb.GoesOver T (T.pageIndex record.pageAddr0) (T.pageOffset pc) := by
  have base := T.pageBase_pageBase record.pageAddr0
  have inPage := T.pageOffset_lt pc
  rw [aligned.met_iff, breakpointAddr_eq, Target.pageIndex_add base inPage,
    Target.pageOffset_add base inPage, T.pageIndex_pageBase]

def AlignedBlocks (T : Target) (s : State) (σ : Shape) : Prop := ∀ t, σ.Live t → (s.tbs t).Aligned T

theorem AfterInvalidations.aligned {s' : State} {σ' : Shape} {l : List TbId}
    (effect : AfterInvalidations T s σ l s' σ') (aligned : AlignedBlocks T s σ) :
    AlignedBlocks T s' σ' := by
  intro t live
  rw [effect.same.tbs]
  exact aligned t ((effect.live t).mp live).1

theorem breakpointInvalidateFrom_eq (rep : Represents T s σ) (aligned : AlignedBlocks T s σ)
    (pc : Address) (records : List TbId) :
    ∃ s' σ' l, breakpointInvalidateFrom T pc s records = some s' ∧
      AfterInvalidations T s σ l s' σ' ∧
      ∀ t, t ∈ l ↔ σ.Live t ∧ ∃ i ∈ records, (s.tbs i).skips T pc = false ∧
        (s.tbs t).GoesOver T (T.pageIndex (s.tbs i).pageAddr0) (T.pageOffset pc) := by
  induction records generalizing s σ with
  | nil => exact ⟨s, σ, [], rfl, AfterInvalidations.refl rep, by simp⟩
  | cons i rest ih =>
    cases skipped : (s.tbs i).skips T pc with
    | true =>
      obtain ⟨s', σ', l, done, effect, taken⟩ := ih rep aligned
      refine ⟨s', σ', l, ?_, effect, fun t => ?_⟩
      · rw [breakpointInvalidateFrom, if_pos skipped, done]
      · rw [taken]
        simp [skipped]
    | false =>
      have onePage : T.pageIndex ((s.tbs i).breakpointAddr T pc) =
          T.pageIndex ((s.tbs i).breakpointAddr T pc + 1 - 1) := rfl
      obtain ⟨s₁, σ₁, l₁, first, effect₁, taken₁⟩ :=
        tbInvalidatePhysPageRangeInner_eq rep onePage false
      obtain ⟨s₂, σ₂, l₂, others, effect₂, taken₂⟩ := ih effect₁.rep (effect₁.aligned aligned)
      rw [effect₁.same.tbs] at taken₂
      refine ⟨s₂, σ₂, l₁ ++ l₂, ?_, effect₁.trans effect₂, fun t => ?_⟩
      · rw [breakpointInvalidateFrom, skipped, if_neg Bool.false_ne_true]
        simp only [bind_eq_bind]
        rw [first, bind_some, others]
      · rw [mem_append_iff_met effect₁ taken₁ taken₂]
        refine and_congr_right fun live => ?_
        rw [(aligned t live).met_breakpointAddr_iff]
        simp [skipped]

def AfterBreakpoints (T : Target) (s : State) (σ : Shape) (addresses : List Address)
    (s' : State) (σ' : Shape) : Prop :=
  ∃ l, AfterInvalidations T s σ l s' σ' ∧ ∀ t, t ∈ l ↔ σ.Live t ∧ ∃ a ∈ addresses, s.Scanned T a t

namespace AfterBreakpoints

variable {s₁ s₂ : State} {σ₁ σ₂ : Shape} {addresses first second : List Address}

theorem nil (rep : Represents T s σ) : AfterBreakpoints T s σ [] s σ :=
  ⟨[], AfterInvalidations.refl rep, by simp⟩

theorem trans (before : AfterBreakpoints T s σ first s₁ σ₁)
    (after : AfterBreakpoints T s₁ σ₁ second s₂ σ₂) :
    AfterBreakpoints T s σ (first ++ second) s₂ σ₂ := by
  obtain ⟨l₁, effect₁, taken₁⟩ := before
  obtain ⟨l₂, effect₂, taken₂⟩ := after
  have sameScan : ∀ a t, s₁.Scanned T a t ↔ s.Scanned T a t := by
    intro a t
    rw [State.Scanned, State.Scanned, effect₁.same.nbTbs, effect₁.same.tbs]
  simp only [sameScan] at taken₂
  refine ⟨l₁ ++ l₂, effect₁.trans effect₂, fun t => ?_⟩
  rw [mem_append_iff_met effect₁ taken₁ taken₂]
  simp [or_and_right, exists_or]

section

variable (after : AfterBreakpoints T s σ addresses s₁ σ₁)

include after

theorem rep : Represents T s₁ σ₁ := by
  obtain ⟨l, effect, -⟩ := after
  exact effect.rep

theorem aligned
    (before : AlignedBlocks T s σ) : AlignedBlocks T s₁ σ₁ := by
  obtain ⟨l, effect, -⟩ := after
  exact effect.aligned before

theorem tbs : s₁.tbs = s.tbs := by
  obtain ⟨l, effect, -⟩ := after
  exact effect.same.tbs

theorem live {t : TbId} (now : σ₁.Live t) : σ.Live t := by
  obtain ⟨l, effect, -⟩ := after
  exact ((effect.live t).mp now).1

theorem hashed_iff (before : Represents T s σ)
    (t : TbId) : s₁.Hashed T t ↔ s.Hashed T t ∧ ¬∃ a ∈ addresses, s.Scanned T a t := by
  obtain ⟨l, effect, taken⟩ := after
  rw [effect.hashed_iff before, taken]
  refine and_congr_right fun hashed => ?_
  obtain ⟨h, inBucket⟩ := (before.hashed_iff t).mp hashed
  simp [before.bucketLive h t inBucket]

end

end AfterBreakpoints

theorem breakpointInvalidate_after (rep : Represents T s σ) (aligned : AlignedBlocks T s σ)
    (pc : Address) :
    ∃ s' σ', breakpointInvalidate T s pc = some s' ∧ AfterBreakpoints T s σ [pc] s' σ' := by
  obtain ⟨s', σ', l, done, effect, taken⟩ :=
    breakpointInvalidateFrom_eq rep aligned pc (range s.nbTbs)
  refine ⟨s', σ', done, l, effect, fun t => ?_⟩
  rw [taken]
  simp [TranslationBlock.skips_eq_false, and_assoc, State.Scanned]

end Scan

section Calls

variable {T : Target} {d : DebugState} {σ : Shape}

theorem cpuBreakpointRemoveByRef_after (rep : Represents T d.cache σ)
    (aligned : AlignedBlocks T d.cache σ) {place : Nat} {bp : CPUBreakpoint}
    (atPlace : d.breakpoints[place]? = some bp) :
    ∃ cache σ', cpuBreakpointRemoveByRef T d place = some ⟨cache, d.breakpoints.eraseIdx place⟩ ∧
      AfterBreakpoints T d.cache σ [bp.pc] cache σ' := by
  obtain ⟨cache, σ', done, after⟩ := breakpointInvalidate_after rep aligned bp.pc
  refine ⟨cache, σ', ?_, after⟩
  simp [cpuBreakpointRemoveByRef, atPlace, done]

theorem drop_eraseIdx {α : Type*} (l : List α) {place : Nat} (below : place < l.length) :
    (l.eraseIdx place).drop place = l.drop (place + 1) := by
  rw [eraseIdx_eq_take_drop_succ]
  exact drop_left' (length_take_of_le below.le)

theorem masked_cons (mask : Nat) (bp : CPUBreakpoint) (rest : List CPUBreakpoint) :
    masked mask (bp :: rest) =
      if bp.flags &&& mask = 0 then masked mask rest else bp.pc :: masked mask rest := by
  by_cases spared : bp.flags &&& mask = 0 <;> simp [masked, spared]

theorem removeAllFrom_after (mask : Nat) {count place : Nat} (rep : Represents T d.cache σ)
    (aligned : AlignedBlocks T d.cache σ) (rest : place + count = d.breakpoints.length) :
    ∃ d' σ', removeAllFrom T mask count place d = some d' ∧
      AfterBreakpoints T d.cache σ (masked mask (d.breakpoints.drop place)) d'.cache σ' := by
  induction count generalizing place d σ with
  | zero =>
    have nothing : d.breakpoints.drop place = [] := drop_eq_nil_of_le (by omega)
    rw [nothing]
    exact ⟨d, σ, rfl, AfterBreakpoints.nil rep⟩
  | succ count ih =>
    have below : place < d.breakpoints.length := by omega
    have atPlace : d.breakpoints[place]? = some d.breakpoints[place] :=
      List.getElem?_eq_getElem below
    rw [removeAllFrom, atPlace, drop_eq_getElem_cons below]
    simp only [bind_eq_bind, bind_some]
    by_cases spared : d.breakpoints[place].flags &&& mask = 0
    · have following : place + 1 + count = d.breakpoints.length := by omega
      obtain ⟨d', σ', done, after⟩ := ih rep aligned following
      rw [if_neg (not_not.mpr spared), masked_cons, if_pos spared]
      exact ⟨d', σ', done, after⟩
    · obtain ⟨cache, σ₁, removed, first⟩ := cpuBreakpointRemoveByRef_after rep aligned atPlace
      have shorter := length_eraseIdx_of_lt below
      let d₁ : DebugState := ⟨cache, d.breakpoints.eraseIdx place⟩
      have rep₁ : Represents T d₁.cache σ₁ := first.rep
      have rest₁ : place + count = d₁.breakpoints.length := by
        rw [show d₁.breakpoints.length = d.breakpoints.length - 1 from shorter]
        omega
      obtain ⟨d', σ', done, after⟩ := ih rep₁ (first.aligned aligned) rest₁
      rw [if_pos spared, removed, bind_some, masked_cons, if_neg spared,
        ← drop_eraseIdx _ below]
      exact ⟨d', σ', done, first.trans after⟩

theorem DebugCall.run_after (call : DebugCall) (rep : Represents T d.cache σ)
    (aligned : AlignedBlocks T d.cache σ) :
    ∃ d' result σ', call.run T d = some (d', result) ∧
      AfterBreakpoints T d.cache σ (call.affected d) d'.cache σ' := by
  cases call with
  | insert pc flags =>
    obtain ⟨cache, σ', done, after⟩ := breakpointInvalidate_after rep aligned pc
    refine ⟨⟨cache, withBreakpoint d.breakpoints ⟨pc, flags⟩⟩, 0, σ', ?_, after⟩
    simp [run, cpuBreakpointInsert, done]
  | remove pc flags =>
    rw [run, cpuBreakpointRemove, affected]
    cases found : d.breakpoints.findIdx? fun bp => bp.pc = pc && bp.flags = flags with
    | none =>
      rw [findIdx?_eq_none_iff] at found
      have absent : ⟨pc, flags⟩ ∉ d.breakpoints := fun member => by
        simpa using found _ member
      rw [if_neg absent]
      exact ⟨d, -enoent, σ, rfl, AfterBreakpoints.nil rep⟩
    | some place =>
      obtain ⟨below, matching, -⟩ := findIdx?_eq_some_iff_getElem.mp found
      have isBp : d.breakpoints[place] = ⟨pc, flags⟩ := by
        simp only [Bool.and_eq_true, decide_eq_true_eq] at matching
        exact congrArg₂ CPUBreakpoint.mk matching.1 matching.2
      have atPlace : d.breakpoints[place]? = some ⟨pc, flags⟩ := by
        rw [List.getElem?_eq_getElem below, isBp]
      obtain ⟨cache, σ', removed, after⟩ := cpuBreakpointRemoveByRef_after rep aligned atPlace
      rw [if_pos (mem_of_getElem? atPlace)]
      exact ⟨⟨cache, d.breakpoints.eraseIdx place⟩, 0, σ',
        by simp [removed], after⟩
  | removeAll mask =>
    obtain ⟨d', σ', done, after⟩ := removeAllFrom_after mask rep aligned (Nat.zero_add _)
    refine ⟨d', 0, σ', ?_, after⟩
    rw [run, cpuBreakpointRemoveAll, done]
    rfl

theorem DebugReachable.invariant (reachable : DebugReachable T d) :
    ∃ σ, Represents T d.cache σ ∧ ∀ t, σ.Live t → IsGenerated T (d.cache.tbs t) := by
  obtain ⟨start, initial, run⟩ := reachable
  induction run with
  | refl =>
    exact ⟨_, represents_empty T start.cache initial.noBlocks initial.noBuckets initial.noPages,
      fun t live => (Shape.empty_not_live t live).elim⟩
  | tail _ step ih =>
    obtain ⟨σ, rep, records⟩ := ih
    cases step with
    | call call done =>
      obtain ⟨d', result, σ', done', after⟩ :=
        call.run_after rep fun t live => (records t live).pagesAligned
      rw [done] at done'
      cases done'
      refine ⟨σ', after.rep, fun t live => ?_⟩
      rw [after.tbs]
      exact records t (after.live live)
    | cache step => exact step.isGenerated rep records

theorem State.scanned_of_first {s : State} {tb : TbId} {pc : Address} (allocated : tb < s.nbTbs)
    (low : (s.tbs tb).pc ≤ pc) (high : pc ≤ (s.tbs tb).pc + (s.tbs tb).size)
    (fits : (s.tbs tb).pc + (s.tbs tb).size < 2 ^ T.longBits)
    (first : T.pageOffset (s.tbs tb).pc + (pc - (s.tbs tb).pc) < T.pageSize) :
    s.Scanned T pc tb := by
  have offset : T.pageOffset pc = T.pageOffset (s.tbs tb).pc + (pc - (s.tbs tb).pc) := by
    have split : pc = (s.tbs tb).pc + (pc - (s.tbs tb).pc) := (Nat.add_sub_of_le low).symm
    unfold Target.pageOffset at first ⊢
    rw [split, ← Nat.mod_add_mod, Nat.add_sub_cancel_left]
    exact Nat.mod_eq_of_lt first
  have isEnd : T.toUlong ((s.tbs tb).pc + (s.tbs tb).size) = (s.tbs tb).pc + (s.tbs tb).size :=
    Nat.mod_eq_of_lt fits
  refine ⟨tb, allocated, low, by rwa [isEnd], Or.inl ⟨rfl, ?_, ?_⟩⟩
  · rw [offset]
    exact Nat.le_add_right _ _
  · rw [offset]
    exact Nat.add_le_add_left (Nat.sub_le_iff_le_add'.mpr high) _

/-- In every run, a call leaves no block in the hash table that contains an address it affects
exactly when each such block was scanned for some affected address. -/
theorem DebugCall.run_removes_iff (reachable : DebugReachable T d) (call : DebugCall) :
    ∃ d' result, call.run T d = some (d', result) ∧
      ((∀ pc ∈ call.affected d, ∀ tb, d'.cache.Hashed T tb → ¬ (d'.cache.tbs tb).Covers T pc) ↔
        ∀ pc ∈ call.affected d, ∀ tb, d.cache.Hashed T tb → (d.cache.tbs tb).Covers T pc →
          ∃ pc' ∈ call.affected d, d.cache.Scanned T pc' tb) ∧
      ∀ pc ∈ call.affected d, ∀ tb, d.cache.Hashed T tb → (d.cache.tbs tb).pc ≤ pc →
        pc ≤ (d.cache.tbs tb).pc + (d.cache.tbs tb).size →
        (d.cache.tbs tb).pc + (d.cache.tbs tb).size < 2 ^ T.longBits →
        T.pageOffset (d.cache.tbs tb).pc + (pc - (d.cache.tbs tb).pc) < T.pageSize →
        ¬ d'.cache.Hashed T tb := by
  obtain ⟨σ, rep, records⟩ := reachable.invariant
  obtain ⟨d', result, σ', done, after⟩ :=
    call.run_after rep fun t live => (records t live).pagesAligned
  refine ⟨d', result, done, ?_, fun pc isAffected tb hashed low high fits first left => ?_⟩
  · rw [after.tbs]
    constructor
    · intro gone pc isAffected tb hashed covers
      by_contra missed
      exact gone pc isAffected tb ((after.hashed_iff rep tb).mpr ⟨hashed, missed⟩) covers
    · intro scanned pc isAffected tb left covers
      obtain ⟨hashed, missed⟩ := (after.hashed_iff rep tb).mp left
      exact missed (scanned pc isAffected tb hashed covers)
  · obtain ⟨h, inBucket⟩ := (rep.hashed_iff tb).mp hashed
    have allocated := rep.lt_of_live (rep.bucketLive h tb inBucket)
    obtain ⟨-, missed⟩ := (after.hashed_iff rep tb).mp left
    exact missed ⟨pc, isAffected, State.scanned_of_first allocated low high fits first⟩

end Calls

/-- A breakpoint in the middle of a block removes it from the hash table. -/
theorem DebugCall.run_removes_sample : ∃ d d' result, DebugReachable sampleTarget d ∧
    d.cache.Hashed sampleTarget 0 ∧
      (DebugCall.insert 0x1002 bpGdb).run sampleTarget d = some (d', result) ∧
      ¬ d'.cache.Hashed sampleTarget 0 := by
  obtain ⟨s, tb, first, inBucket, pc, size⟩ : ∃ s tb,
      tbFindSlow sampleTarget (emptyCache sampleBuffer) (sampleRequest 0x1000 false) =
          some (s, tb) ∧
        s.hash (.bucket ((s.tbs 0).hashIndex sampleTarget)) = some 0 ∧
        (s.tbs 0).pc = 0x1000 ∧ (s.tbs 0).size = 4 :=
    ⟨_, _, rfl, by decide, by decide, by decide⟩
  have reachable : DebugReachable sampleTarget ⟨s, []⟩ :=
    ⟨⟨emptyCache sampleBuffer, []⟩, emptyCache_initial sampleBuffer,
      .single (.cache (.findSlow _ first))⟩
  have hashed : s.Hashed sampleTarget 0 := Library.Linked.Reaches.here inBucket
  obtain ⟨d', result, done, -, removed⟩ :=
    DebugCall.run_removes_iff reachable (.insert 0x1002 bpGdb)
  refine ⟨_, d', result, reachable, hashed, done, ?_⟩
  apply removed 0x1002 (mem_singleton_self _) 0 hashed <;>
    simp only [pc, size] <;> decide

/-- A block of four bytes at `0x1ffe` goes on in physical page 8. A breakpoint at
`0x2000` looks for it at the beginning of its first page. -/
theorem DebugCall.insert_misses_block :
    ¬ ∀ (T : Target) (d : DebugState), DebugReachable T d → ∀ call : DebugCall,
      ∃ d' result, call.run T d = some (d', result) ∧
        ∀ pc ∈ call.affected d, ∀ tb, d'.cache.Hashed T tb → ¬ (d'.cache.tbs tb).Covers T pc := by
  intro always
  obtain ⟨s, tb, d', first, done, inBucket, pc, size⟩ : ∃ s tb d',
      tbFindSlow sampleTarget (emptyCache sampleBuffer)
          { sampleRequest 0x1ffe false with pages := scatteredPages } = some (s, tb) ∧
        (DebugCall.insert 0x2000 bpGdb).run sampleTarget ⟨s, []⟩ = some (d', 0) ∧
        d'.cache.hash (.bucket ((d'.cache.tbs 0).hashIndex sampleTarget)) = some 0 ∧
        (d'.cache.tbs 0).pc = 0x1ffe ∧ (d'.cache.tbs 0).size = 4 :=
    ⟨_, _, _, rfl, rfl, by decide, by decide, by decide⟩
  have reachable : DebugReachable sampleTarget ⟨s, []⟩ :=
    ⟨⟨emptyCache sampleBuffer, []⟩, emptyCache_initial sampleBuffer,
      .single (.cache (.findSlow _ first))⟩
  obtain ⟨d'', result, done', gone⟩ := always sampleTarget ⟨s, []⟩ reachable (.insert 0x2000 bpGdb)
  rw [done] at done'
  cases done'
  refine gone 0x2000 (mem_singleton_self _) 0 (Library.Linked.Reaches.here inBucket)
    ⟨2, ?_, ?_⟩
  · rw [size]
    decide
  · rw [pc]
    decide

end Tlib.TranslationCache
