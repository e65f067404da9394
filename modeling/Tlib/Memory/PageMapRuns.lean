import Tlib.Memory.PageMapCalls

/-!
Contract: the page map after any sequence of calls.

Owns: what the last calls that cover a page ask for, the condition of each call, and what a query of
a range answers.
-/

namespace Tlib.Memory

variable {G : Geometry}

inductive Call where
  | mapRange (start length : Nat)
  | unmapRange (start finish : Nat)
  | registerAccessFlags (start length isExecutableIoMem : Nat)
  | enableExternalPermissionHandler (start length externalPermissions : Nat)
  deriving DecidableEq, Repr

def Call.run (m : PhysMap G) : Call → Option (PhysMap G)
  | .mapRange start length => tlibMapRange m start length
  | .unmapRange start finish => tlibUnmapRange m start finish
  | .registerAccessFlags start length isExecutableIoMem =>
    tlibRegisterAccessFlagsForRange m start length isExecutableIoMem
  | .enableExternalPermissionHandler start length externalPermissions =>
    tlibEnableExternalPermissionHandlerForRange m start length externalPermissions

def Call.first : Call → Nat
  | .mapRange start _ | .unmapRange start _ | .registerAccessFlags start _ _
  | .enableExternalPermissionHandler start _ _ => start

/-- The first address after the range; `tlib_unmap_range` is given its last address. -/
def Call.limit : Call → Nat
  | .mapRange start length | .registerAccessFlags start length _
  | .enableExternalPermissionHandler start length _ => start + length
  | .unmapRange _ finish => finish + 1

def Call.Covers (G : Geometry) (c : Call) (page : Nat) : Prop := OnPage G c.first c.limit page

/-- Ranges that are mapped consist of pages. -/
def Call.Aligned (G : Geometry) : Call → Prop
  | .mapRange start length => G.pageSize ∣ start ∧ G.pageSize ∣ length
  | _ => True

def Call.mapped : Call → Option Bool
  | .mapRange _ _ => some true
  | .unmapRange _ _ => some false
  | _ => none

def Call.executable : Call → Option Bool
  | .registerAccessFlags _ _ isExecutableIoMem => some (isExecutableIoMem ≠ 0)
  | _ => none

def Call.external : Call → Option Bool
  | .enableExternalPermissionHandler _ _ externalPermissions => some (externalPermissions ≠ 0)
  | _ => none

instance (c : Call) (page : Nat) : Decidable (c.Covers G page) :=
  inferInstanceAs (Decidable (OnPage _ _ _ _))

def lastGiven (G : Geometry) (value : Call → Option Bool) (page : Nat) (calls : List Call) : Bool :=
  calls.foldl (fun last c => if c.Covers G page then (value c).getD last else last) false

def isMapped (m : PhysMap G) (page : Nat) : Prop := physOffsetOf m page ≠ ioMemUnassigned

instance (m : PhysMap G) (page : Nat) : Decidable (isMapped m page) :=
  inferInstanceAs (Decidable (¬_ = _))

def executableFlag (m : PhysMap G) (page : Nat) : Bool := (descOf m page).flags.executableIoMem

def externalFlag (m : PhysMap G) (page : Nat) : Bool := (descOf m page).flags.externalPermissions

structure PageFollows (G : Geometry) (calls : List Call) (m : PhysMap G) (page : Nat) : Prop where
  mapped : lastGiven G Call.mapped page calls = decide (isMapped m page)
  ram : isMapped m page → physOffsetOf m page = page * G.pageSize
  io : ¬isMapped m page → ∀ addr, addr / G.pageSize = page → ioAddress m addr = addr
  executable : lastGiven G Call.executable page calls = executableFlag m page
  external : lastGiven G Call.external page calls = externalFlag m page

/-- The call keeps to the address space, reaches its pages, and loses no flags. -/
def Call.Exact (m : PhysMap G) : Call → Prop
  | .mapRange start length =>
    0 < length ∧ start + length ≤ G.spaceSize ∧
      ∀ page, OnPage G start (start + length) page → ¬isMapped m page →
        executableFlag m page = false ∧ externalFlag m page = false
  | .unmapRange start finish =>
    finish < G.spaceSize ∧ (SkipsLast G start (finish + 1) → ¬isMapped m (finish / G.pageSize))
  | .registerAccessFlags start length isExecutableIoMem =>
    start + length ≤ G.spaceSize ∧ (SkipsLast G start (start + length) →
        executableFlag m ((start + length - 1) / G.pageSize) = decide (isExecutableIoMem ≠ 0)) ∧
      ∀ page, Visited G start (start + length) page → externalFlag m page = false
  | .enableExternalPermissionHandler start length externalPermissions =>
    start + length ≤ G.spaceSize ∧ (SkipsLast G start (start + length) →
        externalFlag m ((start + length - 1) / G.pageSize) = decide (externalPermissions ≠ 0))

/-- The question reaches every page of its range, as far as the answer depends on it. -/
def QueryExact (m : PhysMap G) (start finish : Nat) : Prop :=
  SkipsLast G start finish → isMapped m ((finish - 1) / G.pageSize) →
    ∃ page, Visited G start finish page ∧ isMapped m page

/-- A sequence of calls each of which meets its condition. -/
inductive Reaches (G : Geometry) : List Call → PhysMap G → Prop where
  | initial : Reaches G [] (Library.RadixTree.Tree.empty G.shape)
  | call {calls : List Call} {m m' : PhysMap G} {c : Call} :
      Reaches G calls m → c.Aligned G → c.Exact m → c.run m = some m' →
      Reaches G (calls ++ [c]) m'

/-- A descriptor says what the last calls ask for. -/
structure DescFollows (G : Geometry) (calls : List Call) (page : Nat) (pd : PhysPageDesc) :
    Prop where
  mapped : lastGiven G Call.mapped page calls = decide (pd.physOffset ≠ ioMemUnassigned)
  ram : pd.physOffset ≠ ioMemUnassigned → pd.physOffset = page * G.pageSize
  io : pd.physOffset = ioMemUnassigned → pd.regionOffset = page * G.pageSize
  executable : lastGiven G Call.executable page calls = pd.flags.executableIoMem
  external : lastGiven G Call.external page calls = pd.flags.externalPermissions

variable {m m' : PhysMap G} {calls : List Call} {c : Call} {page : Nat} {pd : PhysPageDesc}

theorem isMapped_iff : isMapped m page ↔ (descOf m page).physOffset ≠ ioMemUnassigned := by
  unfold isMapped
  rw [physOffsetOf_eq]

theorem DescFollows.pageFollows (less : page < G.pages)
    (follows : DescFollows G calls page (descOf m page)) : PageFollows G calls m page where
  mapped := by
    have same : decide (isMapped m page) =
        decide ((descOf m page).physOffset ≠ ioMemUnassigned) := decide_eq_decide.mpr isMapped_iff
    rw [same]
    exact follows.mapped
  ram := by
    intro mapped
    rw [physOffsetOf_eq]
    exact follows.ram (isMapped_iff.mp mapped)
  io := by
    intro unmapped addr place
    have inside : addr < G.spaceSize := by
      rw [← G.pages_mul]
      exact (Nat.div_lt_iff_lt_mul G.pageSize_pos).mp (place ▸ less)
    have region : (descOf m page).regionOffset = page * G.pageSize := by
      refine follows.io ?_
      rw [isMapped_iff, ne_eq, Decidable.not_not] at unmapped
      exact unmapped
    rw [ioAddress_eq m inside, place, region, ← place, Nat.mul_comm]
    exact Nat.mod_add_div _ _
  executable := follows.executable
  external := follows.external

theorem lastGiven_append (value : Call → Option Bool) (calls : List Call) (c : Call) :
    lastGiven G value page (calls ++ [c]) =
      if c.Covers G page then (value c).getD (lastGiven G value page calls)
      else lastGiven G value page calls := by
  unfold lastGiven
  rw [List.foldl_append, List.foldl_cons, List.foldl_nil]

theorem lastGiven_given {value : Call → Option Bool} {b : Bool} (covers : c.Covers G page)
    (gives : value c = some b) : lastGiven G value page (calls ++ [c]) = b := by
  rw [lastGiven_append, if_pos covers, gives]
  rfl

theorem lastGiven_other {value : Call → Option Bool} {b : Bool}
    (last : lastGiven G value page calls = b) (silent : value c = none) :
    lastGiven G value page (calls ++ [c]) = b := by
  rw [lastGiven_append, silent, last]
  exact ite_self _

theorem lastGiven_outside {value : Call → Option Bool} {b : Bool}
    (last : lastGiven G value page calls = b) (apart : ¬c.Covers G page) :
    lastGiven G value page (calls ++ [c]) = b := by
  rw [lastGiven_append, if_neg apart, last]

theorem DescFollows.outside (follows : DescFollows G calls page pd) (apart : ¬c.Covers G page) :
    DescFollows G (calls ++ [c]) page pd where
  mapped := lastGiven_outside follows.mapped apart
  ram := follows.ram
  io := follows.io
  executable := lastGiven_outside follows.executable apart
  external := lastGiven_outside follows.external apart

def StepFollows (m : PhysMap G) (c : Call) : Prop :=
  ∃ m', c.run m = some m' ∧ ∀ (calls : List Call), ∀ page < G.pages,
    DescFollows G calls page (descOf m page) → DescFollows G (calls ++ [c]) page (descOf m' page)

theorem mapRange_follows {start length : Nat} (aligned : (Call.mapRange start length).Aligned G)
    (exact_ : (Call.mapRange start length).Exact m) :
    StepFollows m (.mapRange start length) := by
  obtain ⟨some_, within, keeps⟩ := exact_
  obtain ⟨m', done, spec⟩ := tlibMapRange_spec m aligned.1 aligned.2 some_ within
  refine ⟨m', done, fun calls page less follows => ?_⟩
  obtain ⟨registered, kept⟩ := spec page less
  by_cases on : OnPage G start (start + length) page
  · have here := registered on
    have backed : (descOf m' page).physOffset ≠ ioMemUnassigned := by
      rw [here.physOffset]
      exact page_ne_unassigned G page
    -- the flags of an unmapped page are lost, but none is set
    have flags : (descOf m' page).flags.executableIoMem = (descOf m page).flags.executableIoMem ∧
        (descOf m' page).flags.externalPermissions = (descOf m page).flags.externalPermissions := by
      rw [here.flags]
      by_cases mapped : (descOf m page).physOffset ≠ ioMemUnassigned
      · rw [if_pos mapped]
        exact ⟨rfl, rfl⟩
      · obtain ⟨executable, external⟩ := keeps page on (mt isMapped_iff.mp mapped)
        rw [if_neg mapped]
        exact ⟨executable.symm, external.symm⟩
    refine ⟨?_, fun _ => here.physOffset, fun unassigned => absurd unassigned backed, ?_, ?_⟩
    · rw [decide_eq_true backed]
      exact lastGiven_given on rfl
    · rw [flags.1]
      exact lastGiven_other follows.executable rfl
    · rw [flags.2]
      exact lastGiven_other follows.external rfl
  · rw [kept on]
    exact follows.outside on

theorem unmapRange_follows {start finish : Nat}
    (exact_ : (Call.unmapRange start finish).Exact m) :
    StepFollows m (.unmapRange start finish) := by
  obtain ⟨within, reaches⟩ := exact_
  obtain ⟨m', done, spec⟩ := @tlibUnmapRange_spec _ m start _ within
  refine ⟨m', done, fun calls page less follows => ?_⟩
  have here := spec page less
  have visited := visited_iff G start (finish + 1) page
  by_cases on : OnPage G start (finish + 1) page
  · -- a page that the loop leaves out is not mapped
    have unassigned : (descOf m' page).physOffset = ioMemUnassigned ∧
        (descOf m' page).regionOffset = page * G.pageSize ∧
        (descOf m' page).flags = (descOf m page).flags := by
      by_cases mapped : (descOf m page).physOffset ≠ ioMemUnassigned
      · have reached : Visited G start (finish + 1) page := by
          refine visited.mpr ⟨on, fun missed => ?_⟩
          refine reaches missed.1 ?_
          have place : page = finish / G.pageSize := missed.2
          rw [← place]
          exact isMapped_iff.mpr mapped
        rw [here, if_pos ⟨reached, mapped⟩]
        exact ⟨rfl, follows.ram mapped, rfl⟩
      · rw [here, if_neg fun both => mapped both.2]
        exact ⟨not_not.mp mapped, follows.io (not_not.mp mapped), rfl⟩
    obtain ⟨offset, region, flags⟩ := unassigned
    refine ⟨?_, fun backed => absurd offset backed, fun _ => region, ?_, ?_⟩
    · rw [decide_eq_false (not_not.mpr offset)]
      exact lastGiven_given on rfl
    · rw [flags]
      exact lastGiven_other follows.executable rfl
    · rw [flags]
      exact lastGiven_other follows.external rfl
  · rw [here, if_neg fun both => on (visited.mp both.1).1]
    exact follows.outside on

theorem registerAccessFlags_follows {start length isExecutableIoMem : Nat}
    (exact_ : (Call.registerAccessFlags start length isExecutableIoMem).Exact m) :
    StepFollows m (.registerAccessFlags start length isExecutableIoMem) := by
  obtain ⟨within, reaches, keeps⟩ := exact_
  obtain ⟨m', done, spec⟩ := tlibRegisterAccessFlagsForRange_spec m isExecutableIoMem within
  refine ⟨m', done, fun calls page less follows => ?_⟩
  have here := spec page less
  have visited := visited_iff G start (start + length) page
  by_cases on : OnPage G start (start + length) page
  · have flags : (descOf m' page).flags.executableIoMem = decide (isExecutableIoMem ≠ 0) ∧
        (descOf m' page).flags.externalPermissions = (descOf m page).flags.externalPermissions ∧
        (descOf m' page).physOffset = (descOf m page).physOffset ∧
        (descOf m' page).regionOffset = (descOf m page).regionOffset := by
      by_cases reached : Visited G start (start + length) page
      · rw [here, if_pos reached]
        exact ⟨rfl, (keeps page reached).symm, rfl, rfl⟩
      · have missed := skipped_of_not_visited on reached
        rw [here, if_neg reached]
        refine ⟨?_, rfl, rfl, rfl⟩
        rw [missed.2]
        exact reaches missed.1
    obtain ⟨executable, external, offset, region⟩ := flags
    refine ⟨?_, ?_, ?_, ?_, ?_⟩
    · rw [offset]
      exact lastGiven_other follows.mapped rfl
    · rw [offset]
      exact follows.ram
    · rw [offset, region]
      exact follows.io
    · exact lastGiven_given on (congrArg some executable.symm)
    · rw [external]
      exact lastGiven_other follows.external rfl
  · rw [here, if_neg fun reached => on (visited.mp reached).1]
    exact follows.outside on

theorem enableExternalPermissionHandler_follows {start length externalPermissions : Nat}
    (exact_ : (Call.enableExternalPermissionHandler start length externalPermissions).Exact m) :
    StepFollows m (.enableExternalPermissionHandler start length externalPermissions) := by
  obtain ⟨within, reaches⟩ := exact_
  obtain ⟨m', done, spec⟩ :=
    tlibEnableExternalPermissionHandlerForRange_spec m externalPermissions within
  refine ⟨m', done, fun calls page less follows => ?_⟩
  have here := spec page less
  have visited := visited_iff G start (start + length) page
  by_cases on : OnPage G start (start + length) page
  · have flags : (descOf m' page).flags.externalPermissions = decide (externalPermissions ≠ 0) ∧
        (descOf m' page).flags.executableIoMem = (descOf m page).flags.executableIoMem ∧
        (descOf m' page).physOffset = (descOf m page).physOffset ∧
        (descOf m' page).regionOffset = (descOf m page).regionOffset := by
      by_cases reached : Visited G start (start + length) page
      · rw [here, if_pos reached]
        exact ⟨rfl, rfl, rfl, rfl⟩
      · have missed := skipped_of_not_visited on reached
        rw [here, if_neg reached]
        refine ⟨?_, rfl, rfl, rfl⟩
        rw [missed.2]
        exact reaches missed.1
    obtain ⟨external, executable, offset, region⟩ := flags
    refine ⟨?_, ?_, ?_, ?_, ?_⟩
    · rw [offset]
      exact lastGiven_other follows.mapped rfl
    · rw [offset]
      exact follows.ram
    · rw [offset, region]
      exact follows.io
    · rw [executable]
      exact lastGiven_other follows.executable rfl
    · exact lastGiven_given on (congrArg some external.symm)
  · rw [here, if_neg fun reached => on (visited.mp reached).1]
    exact follows.outside on

theorem Call.exact_follows (aligned : c.Aligned G) (exact_ : c.Exact m) : StepFollows m c := by
  cases c with
  | mapRange start length => exact mapRange_follows aligned exact_
  | unmapRange start finish => exact unmapRange_follows exact_
  | registerAccessFlags start length isExecutableIoMem =>
    exact registerAccessFlags_follows exact_
  | enableExternalPermissionHandler start length externalPermissions =>
    exact enableExternalPermissionHandler_follows exact_

theorem Reaches.descFollows (reaches : Reaches G calls m) :
    ∀ page < G.pages, DescFollows G calls page (descOf m page) := by
  induction reaches with
  | initial =>
    intro page less
    exact ⟨rfl, fun mapped => absurd rfl mapped, fun _ => freshDesc_regionOffset less, rfl, rfl⟩
  | call _ aligned exact_ done ih =>
    intro page less
    obtain ⟨m', again, follows⟩ := Call.exact_follows aligned exact_
    rw [done] at again
    obtain rfl := Option.some.inj again
    exact follows _ page less (ih page less)

theorem queryExact_iff {start finish : Nat} (within : finish ≤ G.spaceSize) :
    ∃ answer, tlibIsRangeMapped m start finish = some answer ∧
      ((answer = true ↔ ∃ page, OnPage G start finish page ∧ isMapped m page) ↔
        QueryExact m start finish) := by
  obtain ⟨answer, done, spec⟩ := @tlibIsRangeMapped_spec _ m start _ within
  refine ⟨answer, done, ?_⟩
  rw [spec]
  have on (page : Nat) (visited : Visited G start finish page) : OnPage G start finish page :=
    ((visited_iff G start finish page).mp visited).1
  constructor
  · intro same skips mapped
    refine same.mpr ⟨(finish - 1) / G.pageSize, ?_, mapped⟩
    exact ⟨finish - 1, by have := skips.1; omega, by have := skips.1; omega, rfl⟩
  · intro exact_
    constructor
    · intro found
      obtain ⟨page, visited, mapped⟩ := found
      exact ⟨page, on page visited, mapped⟩
    · intro found
      obtain ⟨page, inRange, mapped⟩ := found
      by_cases missed : SkipsLast G start finish ∧ page = (finish - 1) / G.pageSize
      · exact exact_ missed.1 (missed.2 ▸ mapped)
      · exact ⟨page, (visited_iff G start finish page).mpr ⟨inRange, missed⟩, mapped⟩

/-- In a run of calls each of which meets its condition every page is what the last calls that
cover it ask for, the next such call is completed, and the question whether a range is mapped
is answered as asked under exactly its condition. -/
theorem pageMap_of_run (reaches : Reaches G calls m) :
    (∀ page < G.pages, PageFollows G calls m page) ∧
      (∀ c : Call, c.Aligned G → c.Exact m → (c.run m).isSome = true) ∧
      ∀ start finish, finish ≤ G.spaceSize →
        ∃ answer, tlibIsRangeMapped m start finish = some answer ∧
          ((answer = true ↔ ∃ page, OnPage G start finish page ∧ isMapped m page) ↔
            QueryExact m start finish) := by
  refine ⟨fun page less => (reaches.descFollows page less).pageFollows less,
    fun c aligned exact_ => ?_, fun start finish within => queryExact_iff within⟩
  obtain ⟨m', done, _⟩ := Call.exact_follows aligned exact_
  rw [done]
  rfl

theorem riscv64_addrBits : 64 = 32 ∨ 64 = 64 := .inr rfl

/-- A 64-bit RISC-V hart. -/
def riscv64Geometry : Geometry where
  pageBits := 12
  physBits := 56
  addrBits := 64
  pageBits_ge := by decide
  pageBits_le := by decide
  physBits_ge := by decide
  physBits_lt := by decide
  addrBits_eq := riscv64_addrBits

/-- Nothing is mapped. -/
def noPages : PhysMap riscv64Geometry := Library.RadixTree.Tree.empty riscv64Geometry.shape

def runCalls (m : PhysMap G) : List Call → Option (PhysMap G)
  | [] => some m
  | c :: calls => (c.run m).bind fun m => runCalls m calls

/-- Three pages are mapped, the second of them gets a permission handler, and the third is taken
away again. -/
def mappedPages : List Call :=
  [.mapRange 0x1000 0x3000, .enableExternalPermissionHandler 0x2000 0x1000 1,
    .unmapRange 0x3000 0x3fff]

theorem pageMap_of_run_mapped : ∃ m : PhysMap riscv64Geometry,
    runCalls noPages mappedPages = some m ∧ isMapped m 1 ∧ isMapped m 2 ∧
      externalFlag m 1 = false ∧ externalFlag m 2 = true ∧ ¬isMapped m 3 := by
  have aligned : (Call.mapRange 0x1000 0x3000).Aligned riscv64Geometry :=
    ⟨⟨1, by decide⟩, ⟨3, by decide⟩⟩
  have exact_ : (Call.mapRange 0x1000 0x3000).Exact noPages :=
    ⟨by decide, by decide, fun _ _ _ => ⟨rfl, rfl⟩⟩
  -- no range starts within a page, so no loop skips its last page
  have starts (start limit : Nat) (whole : start % 2 ^ 12 = 0) :
      ¬SkipsLast riscv64Geometry start limit := fun skips =>
    absurd (whole ▸ skips.2 : _ < 0) (Nat.not_lt_zero _)
  obtain ⟨m₁, first, -⟩ := Call.exact_follows aligned exact_
  have handles : (Call.enableExternalPermissionHandler 0x2000 0x1000 1).Exact m₁ :=
    ⟨by decide, fun skips => absurd skips (starts _ _ rfl)⟩
  have any : (Call.enableExternalPermissionHandler 0x2000 0x1000 1).Aligned riscv64Geometry :=
    trivial
  obtain ⟨m₂, second, -⟩ := Call.exact_follows any handles
  have unmaps : (Call.unmapRange 0x3000 0x3fff).Exact m₂ :=
    ⟨by decide, fun skips => absurd skips (starts _ _ rfl)⟩
  have any' : (Call.unmapRange 0x3000 0x3fff).Aligned riscv64Geometry := trivial
  obtain ⟨m₃, third, -⟩ := Call.exact_follows any' unmaps
  obtain ⟨pages, -⟩ := pageMap_of_run
    (((Reaches.initial.call aligned exact_ first).call any handles second).call any' unmaps third)
  have runs : runCalls noPages mappedPages = some m₃ := by
    unfold mappedPages
    rw [runCalls, first, Option.bind_some, runCalls, second, Option.bind_some, runCalls, third]
    rfl
  have one := pages 1 (by decide)
  have two := pages 2 (by decide)
  have three := pages 3 (by decide)
  exact ⟨m₃, runs, of_decide_eq_true (one.mapped.symm.trans (by decide)),
    of_decide_eq_true (two.mapped.symm.trans (by decide)), one.external.symm.trans (by decide),
    two.external.symm.trans (by decide),
    of_decide_eq_false (three.mapped.symm.trans (by decide))⟩

/-- Access flags that are registered after permissions clear them. -/
theorem permissions_cleared :
    ¬∀ (calls : List Call) (m : PhysMap riscv64Geometry), runCalls noPages calls = some m →
      (∀ c ∈ calls, c.Aligned riscv64Geometry ∧ c.limit ≤ riscv64Geometry.spaceSize) →
      ∀ page < riscv64Geometry.pages, PageFollows riscv64Geometry calls m page := by
  intro follows
  obtain ⟨m, first, _⟩ := @tlibEnableExternalPermissionHandlerForRange_spec _ noPages
    0 0x1000 1 (by decide)
  obtain ⟨m', second, spec⟩ := @tlibRegisterAccessFlagsForRange_spec _ m 0 0x1000 1
    (by decide)
  have done : runCalls noPages [.enableExternalPermissionHandler 0 0x1000 1,
      .registerAccessFlags 0 0x1000 1] = some m' := by
    refine (congrArg (Option.bind · fun m => runCalls m [.registerAccessFlags 0 0x1000 1])
      first).trans ?_
    exact (congrArg (Option.bind · some) second).trans rfl
  have wellFormed : ∀ c ∈ [Call.enableExternalPermissionHandler 0 0x1000 1,
      .registerAccessFlags 0 0x1000 1],
      c.Aligned riscv64Geometry ∧ c.limit ≤ riscv64Geometry.spaceSize := by
    intro c member
    simp only [List.mem_cons, List.not_mem_nil, or_false] at member
    rcases member with rfl | rfl
    · exact ⟨trivial, by decide⟩
    · exact ⟨trivial, by decide⟩
  have page := (follows _ m' done wellFormed 0 (by decide)).external
  have cleared : externalFlag m' 0 = false := by
    unfold externalFlag
    rw [spec 0 (by decide), if_pos (by decide)]
    rfl
  rw [cleared] at page
  exact absurd page (by decide)

end Tlib.Memory
