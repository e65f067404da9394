import Mathlib.Data.List.Chain
import Mathlib.Logic.Function.Basic
import Tlib.Riscv.ClicInterrupts

/-!
Contract: preemption among the interrupts of CLIC mode.

Owns: the runs of a hart with an interrupt controller, the nesting of handlers, and that each has a
higher level than the one below it.
-/

namespace Tlib.Riscv.Clic

open Tlib.Library.BitFields Option
open Tlib.Riscv.Trap

variable {xlen : Nat}

/-- The levels of nested handlers increase, up to the current one. -/
structure Nested (levels : List Nat) (current : Nat) : Prop where
  increasing : levels.IsChain (· > ·)
  innermost : ∀ level ∈ levels.head?, level ≤ current

def continueAt (level : Nat) : List Nat → List Nat
  | [] => []
  | _ :: outer => level :: outer

section

variable {levels : List Nat} {level current current' : Nat}

theorem Nested.preempt (nested : Nested levels current)
    (above : ∀ inner ∈ levels.head?, inner < level) : Nested (level :: levels) level where
  increasing := List.isChain_cons.mpr ⟨above, nested.increasing⟩
  innermost := by
    intro head isHead
    rw [List.head?_cons, mem_some_iff] at isHead
    exact Nat.le_of_eq isHead.symm

theorem Nested.leave (nested : Nested levels current)
    (below : ∀ outer ∈ levels.tail.head?, outer ≤ current') : Nested levels.tail current' where
  increasing := nested.increasing.tail
  innermost := below

theorem Nested.continueAt (nested : Nested levels current)
    (above : ∀ outer ∈ levels.tail.head?, outer < level) :
    Nested (continueAt level levels) level := by
  cases levels with
  | nil => exact ⟨.nil, fun _ isHead => nomatch isHead⟩
  | cons inner outer =>
    have left : Nested outer level := nested.leave fun l isHead => Nat.le_of_lt (above l isHead)
    exact left.preempt above

end

/-- A hart, with the levels of the handlers that have not returned, innermost first. -/
structure Nesting (xlen : Nat) where
  hart : InterruptState xlen
  handlers : TrapMode → List Nat

inductive Event (xlen : Nat) where
  | setClicInterruptState (call : Call)
  | processInterrupt (debugMode otherRequest : Bool) (calls : Callbacks)
  | nxti (m : TrapMode) (clearEdge : List Call)
  | xret (m : TrapMode)
  | guest (hart : InterruptState xlen)

namespace Nesting

variable (H : Hart xlen) (c : Nesting xlen)

def InClicMode : Prop := c.hart.trap.cpuInClicMode = true

instance : Decidable c.InClicMode := inferInstanceAs (Decidable (_ = _))

def offeredMode : TrapMode := clicMode c.hart.trap.clicInterrupt

def offeredLevel : Nat := c.hart.trap.clicInterrupt.level.toNat

def step : Event xlen → Option (Nesting xlen)
  | .setClicInterruptState call =>
    some { c with hart := tlibSetClicInterruptState c.hart call }
  | .processInterrupt debugMode otherRequest calls =>
    (processInterrupt H calls c.hart debugMode otherRequest).map fun hart =>
      { hart := hart
        handlers :=
          if Accepts H c.hart debugMode otherRequest then
            Function.update c.handlers c.offeredMode
              (c.offeredLevel :: c.handlers c.offeredMode)
          else c.handlers }
  | .nxti m clearEdge =>
    some
      { hart := nxtiReadHandler H c.hart m clearEdge
        handlers :=
          if nxtiPending c.hart m then
            Function.update c.handlers m (continueAt c.offeredLevel (c.handlers m))
          else c.handlers }
  | .xret m =>
    (xret H m c.hart.trap).map fun t =>
      { hart := { c.hart with trap := t }
        handlers := Function.update c.handlers m (c.handlers m).tail }
  | .guest hart => some { c with hart := hart }

/-- The states that steps in CLIC mode lead to, from one without handlers. -/
inductive Reached (allowed : Nesting xlen → Event xlen → Prop) : Nesting xlen → Prop where
  | start {c : Nesting xlen} (idle : ∀ m, c.handlers m = []) : Reached allowed c
  | step {c c' : Nesting xlen} {event : Event xlen} (before : Reached allowed c)
      (clic : c.InClicMode) (isAllowed : allowed c event) (done : c.step H event = some c') :
      Reached allowed c'

/-- The accepted interrupt stays, and no level sinks below that of its innermost handler. -/
def KeepsLevels : Event xlen → Prop
  | .setClicInterruptState _ => True
  | .processInterrupt debugMode otherRequest calls =>
    Accepts H c.hart debugMode otherRequest →
      Undisturbed calls c.hart.trap.clicInterrupt ∧ c.hart.clicInterruptPending.toNat < 2 ^ 12 ∧
        (c.hart.trap.priv ≠ c.offeredMode.priv →
          ∀ inner ∈ (c.handlers c.offeredMode).head?, inner < c.offeredLevel)
  | .nxti m _ =>
    nxtiPending c.hart m = true → c.offeredLevel < 2 ^ 8 ∧
      ∀ outer ∈ (c.handlers m).tail.head?, outer ≤ previousLevel c.hart m
  | .xret m => ∀ outer ∈ (c.handlers m).tail.head?, outer ≤ previousLevel c.hart m
  | .guest hart => ∀ m, ∀ inner ∈ (c.handlers m).head?, inner ≤ currentLevel hart m

end Nesting

variable {H : Hart xlen} {calls : Callbacks} {u u' : InterruptState xlen} {c c' : Nesting xlen}
  {s t : State xlen} {event : Event xlen} {m : TrapMode}

theorem doNmi_mintstatus (H : Hart xlen) (done : Trap.doNmi H s = some t) :
    t.mintstatus = s.mintstatus := by
  unfold Trap.doNmi at done
  split at done
  · cases done
    rfl
  · rw [map_eq_some_iff] at done
    obtain ⟨entered, mode, rfl⟩ := done
    rw [riscvSetMode_frame mode]
    rw [writeMcause_frame]
    rfl

theorem processInterrupt_refused {debugMode otherRequest : Bool}
    (refused : ¬Accepts H u debugMode otherRequest)
    (done : processInterrupt H calls u debugMode otherRequest = some u') :
    u'.trap.mintstatus = u.trap.mintstatus := by
  unfold processInterrupt at done
  split at done
  · cases done
    rfl
  next running =>
    split at done
    next request =>
      dsimp only at done
      split at done
      next nmi =>
        unfold doInterrupt at done
        rw [decide_eq_true nmi, Bool.true_or, if_pos rfl, map_eq_some_iff] at done
        obtain ⟨t, entered, rfl⟩ := done
        unfold Trap.doInterrupt at entered
        rw [if_pos nmi] at entered
        exact doNmi_mintstatus H entered
      next noNmi =>
        split at done
        next interruptno =>
          exact absurd ⟨by simpa using running, request, not_not.mp noNmi, interruptno⟩ refused
        next =>
          cases done
          rfl
    next =>
      cases done
      rfl

theorem eq_other_of_ne {other : TrapMode} (ne : other ≠ m) : other = m.other := by
  cases m <;> cases other <;> first | rfl | exact absurd rfl ne

namespace Nesting

def LevelsNested (c : Nesting xlen) : Prop := ∀ m, Nested (c.handlers m) (currentLevel c.hart m)

theorem LevelsNested.update (nested : c.LevelsNested) (m : TrapMode) {hart : InterruptState xlen}
    {levels : List Nat} (own : Nested levels (currentLevel hart m))
    (other : currentLevel hart m.other = currentLevel c.hart m.other) :
    LevelsNested { hart := hart, handlers := Function.update c.handlers m levels } := by
  intro m'
  dsimp only
  by_cases same : m' = m
  · subst same
    rw [Function.update_self]
    exact own
  · obtain rfl := eq_other_of_ne same
    rw [Function.update_of_ne same, other]
    exact nested m.other

theorem LevelsNested.of_mintstatus (nested : c.LevelsNested) {hart : InterruptState xlen}
    (same : hart.trap.mintstatus = c.hart.trap.mintstatus) :
    LevelsNested { c with hart := hart } := by
  intro m
  unfold currentLevel
  rw [same]
  exact nested m

theorem LevelsNested.above (nested : c.LevelsNested) (preempts : Preempts c.hart m)
    (lower : c.hart.trap.priv ≠ m.priv → ∀ inner ∈ (c.handlers m).head?, inner < c.offeredLevel) :
    ∀ inner ∈ (c.handlers m).head?, inner < c.offeredLevel := by
  intro inner isHead
  by_cases same : c.hart.trap.priv = m.priv
  · exact Nat.lt_of_le_of_lt ((nested m).innermost inner isHead) (preempts.aboveLevel same)
  · exact lower same inner isHead

theorem step_accepts {debugMode otherRequest : Bool} (clic : c.InClicMode)
    (accepts : Accepts H c.hart debugMode otherRequest)
    (keeps : c.KeepsLevels H (.processInterrupt debugMode otherRequest calls)) :
    ∃ u', processInterrupt H calls c.hart debugMode otherRequest = some u' ∧
      Recorded H c.offeredMode c.hart u' ∧
      currentLevel u' c.offeredMode.other = currentLevel c.hart c.offeredMode.other := by
  obtain ⟨undisturbed, small, _⟩ := keeps accepts
  exact processInterrupt_spec clic accepts undisturbed small rfl

theorem step_levelsNested (nested : c.LevelsNested) (clic : c.InClicMode)
    (keeps : c.KeepsLevels H event) (done : c.step H event = some c') : c'.LevelsNested := by
  cases event with
  | setClicInterruptState call =>
    cases done
    exact nested
  | processInterrupt debugMode otherRequest calls =>
    unfold step at done
    rw [map_eq_some_iff] at done
    obtain ⟨u, processed, rfl⟩ := done
    by_cases accepts : Accepts H c.hart debugMode otherRequest
    · rw [if_pos accepts]
      obtain ⟨u', taken, recorded, other⟩ := step_accepts clic accepts keeps
      obtain rfl : u' = u := some.inj (taken.symm.trans processed)
      have preempts := (interruptno_spec clic accepts.interruptno).2
      have above := nested.above preempts (keeps accepts).2.2
      refine nested.update c.offeredMode ?_ other
      rw [show currentLevel u' c.offeredMode = c.offeredLevel from recorded.level]
      exact (nested c.offeredMode).preempt above
    · rw [if_neg accepts]
      exact nested.of_mintstatus (processInterrupt_refused accepts processed)
  | nxti m clearEdge =>
    cases done
    by_cases pending : nxtiPending c.hart m = true
    · rw [if_pos pending]
      obtain ⟨small, above⟩ := keeps pending
      obtain ⟨level, other⟩ := nxtiReadHandler_levels H clearEdge pending
      have raised : currentLevel (nxtiReadHandler H c.hart m clearEdge) m = c.offeredLevel :=
        level.trans (Nat.mod_eq_of_lt small)
      refine nested.update m ?_ other
      rw [raised]
      refine (nested m).continueAt fun outer isHead => ?_
      refine Nat.lt_of_le_of_lt (above outer isHead) ?_
      unfold nxtiPending at pending
      simp only [Bool.and_eq_true, decide_eq_true_eq] at pending
      exact pending.1.1.2
    · rw [if_neg pending]
      unfold nxtiReadHandler
      rw [if_neg pending]
      exact nested
  | xret m =>
    unfold step at done
    rw [map_eq_some_iff] at done
    obtain ⟨t, returned, rfl⟩ := done
    obtain ⟨level, other⟩ := xret_levels H clic returned
    refine nested.update m ?_ (congrArg BitVec.toNat other)
    refine (nested m).leave fun outer isHead => ?_
    unfold currentLevel
    rw [level]
    exact keeps outer isHead
  | guest hart =>
    cases done
    exact fun m => ⟨(nested m).increasing, keeps m⟩

theorem Reached.next {allowed : Nesting xlen → Event xlen → Prop} (before : Reached H allowed c)
    (event : Event xlen) (clic : c.InClicMode) (isAllowed : allowed c event)
    (done : (c.step H event).isSome = true) : Reached H allowed ((c.step H event).get done) :=
  before.step clic isAllowed (some_get done).symm

theorem Reached.levelsNested (reached : Reached H (KeepsLevels H) c) : c.LevelsNested := by
  induction reached with
  | start idle =>
    intro m
    rw [idle m]
    exact ⟨.nil, fun _ isHead => nomatch isHead⟩
  | step _ clic isAllowed done ih =>
    exact step_levelsNested ih clic isAllowed done

/-- In CLIC mode an interrupt is only accepted if it preempts what runs. -/
theorem preemption_by_level (H : Hart xlen) (c : Nesting xlen) (clic : c.InClicMode) :
    (∀ debugMode otherRequest, Accepts H c.hart debugMode otherRequest →
      Preempts c.hart c.offeredMode) ∧
    (Reached H (KeepsLevels H) c → (∀ m, (c.handlers m).Pairwise (· > ·)) ∧
        ∀ debugMode otherRequest calls, Accepts H c.hart debugMode otherRequest →
          c.KeepsLevels H (.processInterrupt debugMode otherRequest calls) →
            ∃ u', processInterrupt H calls c.hart debugMode otherRequest = some u' ∧
              Recorded H c.offeredMode c.hart u') := by
  refine ⟨fun debugMode otherRequest accepts => (interruptno_spec clic accepts.interruptno).2,
    fun reached => ⟨fun m => ?_, fun debugMode otherRequest calls accepts keeps => ?_⟩⟩
  · exact List.isChain_iff_pairwise.mp (reached.levelsNested m).increasing
  · obtain ⟨u', taken, recorded, _⟩ := step_accepts clic accepts keeps
    exact ⟨u', taken, recorded⟩

def sampleNesting : Nesting 64 where
  hart :=
    { InterruptState.samplePending 0 with
      trap := { sampleState excpNone 0 0 with
        priv := prvM
        mstatus := 0x8
        mtvec := 0x80001003 } }
  handlers := fun _ => []

def sampleOffer (intno level : BitVec 32) : Event 64 :=
  .setClicInterruptState { intno := intno, vectored := 0, level := level, mode := 3 }

def sampleAccept (acknowledge : List Call) : Event 64 :=
  .processInterrupt false false
    { interruptBegin := [], acknowledge := acknowledge, clearEdge := [] }

/-- `csrsi mstatus, 8` -/
def sampleEnable (c : Nesting 64) : Event 64 :=
  .guest { c.hart with trap := writeMstatus clicHart c.hart.trap (c.hart.trap.mstatus ||| 8) }

theorem Reached.enabled {allowed : Nesting 64 → Event 64 → Prop} {c : Nesting 64}
    (before : Reached clicHart allowed c) (clic : c.InClicMode)
    (isAllowed : allowed c (sampleEnable c)) :
    Reached clicHart allowed ((c.step clicHart (sampleEnable c)).get rfl) :=
  before.next (sampleEnable c) clic isAllowed rfl

/-- An interrupt of level 7 preempts the handler of one of level 5. -/
theorem preemption_by_level_sample :
    ∃ c : Nesting 64, c.handlers .machine = [7, 5] ∧ (c.handlers .machine).Pairwise (· > ·) := by
  have start : Reached clicHart (KeepsLevels clicHart) sampleNesting := .start fun _ => rfl
  have offered := start.next (sampleOffer 7 5) (by decide) trivial rfl
  have entered := offered.next (sampleAccept []) (by decide)
    (fun _ => ⟨⟨by decide, by decide, by decide⟩, by decide, fun lower => absurd rfl lower⟩) rfl
  have enabled := entered.enabled (by decide) (fun m => by cases m <;> decide +kernel)
  have offered := enabled.next (sampleOffer 9 7) (by decide) trivial rfl
  have entered := offered.next (sampleAccept []) (by decide)
    (fun _ => ⟨⟨by decide, by decide, by decide⟩, by decide, fun lower => absurd rfl lower⟩) rfl
  refine ⟨_, ?_, ((preemption_by_level clicHart _ (by decide)).2 entered).1 .machine⟩
  decide +kernel

/-- The only instruction besides returns is `csrsi mstatus, 8`. -/
def OnlyEnables (c : Nesting 64) (event : Event 64) : Prop :=
  ∀ hart, event = .guest hart → event = sampleEnable c

/-- If the interrupt of level 5 is withdrawn when it is acknowledged, its handler runs at
level 0, and one of level 3 preempts it. -/
theorem acknowledge_loses_level : ¬∀ c : Nesting 64, Reached clicHart OnlyEnables c → c.InClicMode →
      (∀ m, (c.handlers m).Pairwise (· > ·)) ∧
        ∀ debugMode otherRequest calls u', Accepts clicHart c.hart debugMode otherRequest →
          processInterrupt clicHart calls c.hart debugMode otherRequest = some u' →
            Recorded clicHart c.offeredMode c.hart u' := by
  intro always
  have start : Reached clicHart OnlyEnables sampleNesting := .start fun _ => rfl
  have offered := start.next (sampleOffer 7 5) (by decide) (fun _ => nofun) rfl
  have entered := offered.next
    (sampleAccept [{ intno := excpNone, vectored := 0, level := 0, mode := 3 }]) (by decide)
    (fun _ => nofun) rfl
  have enabled := entered.enabled (by decide) (fun _ _ => rfl)
  have offered := enabled.next (sampleOffer 9 3) (by decide) (fun _ => nofun) rfl
  have entered := offered.next (sampleAccept []) (by decide) (fun _ => nofun) rfl
  have increasing := (always _ entered (by decide)).1 .machine
  revert increasing
  decide +kernel

end Nesting

end Tlib.Riscv.Clic
