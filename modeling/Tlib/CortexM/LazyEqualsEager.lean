import Tlib.CortexM.ExceptionRoundTrip

/-!
Contract: lazy and eager stacking of the floating-point context.

Owns: the comparison of one entry with `FPCCR.LSPEN` set and clear, up to the return from any two
handlers that compute the same.
-/

namespace Tlib.CortexM

open Tlib.Library.WordStack

variable {cpu : Cpu} {F : Features} {E : Environment} {acknowledged : Word}

/-- The same state with `FPCCR.LSPEN` set, or clear. -/
def Cpu.stacking (cpu : Cpu) (lspen : Bool) : Cpu := { cpu with lspen := lspen }

structure SameReturn (cpu lazyEnd eagerEnd lazyLast eagerLast : Cpu) : Prop where
  pointers : ∀ process, lazyLast.pointer ⟨cpu.secure, process⟩ =
    eagerLast.pointer ⟨cpu.secure, process⟩
  fpscr : lazyLast.fpscr = eagerLast.fpscr
  s : ∀ i : Fin 32, i.val < 16 ∨ (cpu.secure && cpu.ts) = true ∨ lazyEnd.s i = eagerEnd.s i →
    lazyLast.s i = eagerLast.s i

structure StackedAlike (F : Features) (E : Environment) (cpu : Cpu) (acknowledged : Word) :
    Prop where
  during : ∀ p, ((cpu.stacking true).takeIrq F E acknowledged).cpu.pointer p =
    ((cpu.stacking false).takeIrq F E acknowledged).cpu.pointer p
  after : ∀ lazyEnd eagerEnd, Balanced F E (cpu.stacking true) acknowledged lazyEnd →
    Balanced F E (cpu.stacking false) acknowledged eagerEnd →
      ∃ lazyLast eagerLast, lazyEnd.doV7mExceptionExit F E = .done lazyLast ∧
        eagerEnd.doV7mExceptionExit F E = .done eagerLast ∧
          SameReturn cpu lazyEnd eagerEnd lazyLast eagerLast
  memory : ∀ (frames : Word → Prop) lazyNow eagerNow,
    (∀ lspen b, (cpu.stacking lspen).InFrame F (cpu.handlerLr F E acknowledged) b → frames b) →
    Activity F E frames ((cpu.stacking true).takeIrq F E acknowledged).cpu lazyNow →
    lazyNow.Quiet →
    Activity F E frames ((cpu.stacking false).takeIrq F E acknowledged).cpu eagerNow →
      FrameHolds F cpu lazyNow.memory ((cpu.stacking true).fpBase F) ∧
        FrameHolds F cpu eagerNow.memory ((cpu.stacking true).fpBase F)

/-- An entry with `FPCA` set that is granted both ways. -/
structure ComparesStacking (F : Features) (E : Environment) (cpu : Cpu) (acknowledged : Word) :
    Prop where
  extended : cpu.fpca = true
  consistent : cpu.Consistent F
  takes : ∀ lspen, (cpu.stacking lspen).Takes F E acknowledged

theorem Cpu.Consistent.stacking (consistent : cpu.Consistent F) (lspen : Bool) :
    (cpu.stacking lspen).Consistent F :=
  ⟨consistent.selected, consistent.narrow, consistent.even, consistent.single,
    ⟨consistent.fp.owner, consistent.fp.unused⟩⟩

theorem fpWords_stacking (extended : cpu.fpca = true) (lspen : Bool) :
    (cpu.stacking lspen).fpWords F =
      if lspen then cpu.fpReservationWords else cpu.pushedFpWords F := by
  exact if_pos extended

theorem fpWords_same_iff (consistent : cpu.Consistent F) (extended : cpu.fpca = true) :
    (cpu.stacking true).fpWords F = (cpu.stacking false).fpWords F ↔
      (cpu.ts = true → cpu.secure = true) := by
  have v8 := consistent.v8
  rw [fpWords_stacking extended, fpWords_stacking extended]
  unfold Cpu.fpReservationWords Cpu.pushedFpWords
  cases ts : cpu.ts with
  | false => simp
  | true =>
    rw [v8 ts]
    cases cpu.secure <;> simp

theorem during_iff (compares : ComparesStacking F E cpu acknowledged) :
    (∀ p, ((cpu.stacking true).takeIrq F E acknowledged).cpu.pointer p =
        ((cpu.stacking false).takeIrq F E acknowledged).cpu.pointer p) ↔
      (cpu.stacking true).fpWords F = (cpu.stacking false).fpWords F := by
  rw [(compares.takes true).entered, (compares.takes false).entered]
  have base (lspen : Bool) := entered_base F (cpu.stacking lspen)
    (secureTarget F E cpu.secure acknowledged).2 (cpu.handlerLr F E acknowledged)
  constructor
  · intro same
    have moved := same cpu.active
    have lazyBase : Cpu.pointer _ cpu.active = _ := base true
    have eagerBase : Cpu.pointer _ cpu.active = _ := base false
    have bases : (cpu.stacking true).frameBase F (cpu.handlerLr F E acknowledged) =
        (cpu.stacking false).frameBase F (cpu.handlerLr F E acknowledged) :=
      lazyBase.symm.trans (moved.trans eagerBase)
    have core := coreWords_le F cpu (cpu.handlerLr F E acknowledged)
    have lazySize := fpWords_le F (cpu.stacking true)
    have eagerSize := fpWords_le F (cpu.stacking false)
    have offsets : BitVec.ofNat 32 (4 * ((cpu.stacking true).fpWords F +
        cpu.coreWords F (cpu.handlerLr F E acknowledged))) =
          BitVec.ofNat 32 (4 * ((cpu.stacking false).fpWords F +
            cpu.coreWords F (cpu.handlerLr F E acknowledged))) := sub_right_injective bases
    have numbers := congrArg BitVec.toNat offsets
    rw [BitVec.toNat_ofNat, BitVec.toNat_ofNat, Nat.mod_eq_of_lt (by omega),
      Nat.mod_eq_of_lt (by omega)] at numbers
    omega
  · intro same p
    by_cases active : p = cpu.active
    · rw [active]
      have bases : (cpu.stacking true).frameBase F (cpu.handlerLr F E acknowledged) =
          (cpu.stacking false).frameBase F (cpu.handlerLr F E acknowledged) := by
        unfold Cpu.frameBase
        rw [same]
        rfl
      exact (base true).trans (bases.trans (base false).symm)
    · have moves (lspen : Bool) := entered_onlyMoves F (cpu.stacking lspen)
        (secureTarget F E cpu.secure acknowledged).2 (cpu.handlerLr F E acknowledged) p active
      exact (moves true).trans (moves false).symm

theorem SameContext.upper {last : Cpu} (same : SameContext F cpu last)
    (wide : (F.v8 && cpu.secure && cpu.ts) = true) (i : Fin 32) (high : 16 ≤ i.val) :
    last.s i = cpu.s i := by
  have words := same.callee wide
  unfold Cpu.calleeWords at words
  have register := congrFun (List.ofFn_injective words) ⟨i.val - 16, by omega⟩
  have place : Fin.natAdd 16 (⟨i.val - 16, by omega⟩ : Fin 16) = i := by
    apply Fin.ext
    show 16 + (i.val - 16) = i.val
    omega
  rw [place] at register
  exact register

theorem sameReturn_of_room (compares : ComparesStacking F E cpu acknowledged)
    (room : (cpu.stacking true).fpWords F = (cpu.stacking false).fpWords F)
    {lazyEnd eagerEnd : Cpu} (lazyReturn : Balanced F E (cpu.stacking true) acknowledged lazyEnd)
    (eagerReturn : Balanced F E (cpu.stacking false) acknowledged eagerEnd) :
    ∃ lazyLast eagerLast, lazyEnd.doV7mExceptionExit F E = .done lazyLast ∧
      eagerEnd.doV7mExceptionExit F E = .done eagerLast ∧
        SameReturn cpu lazyEnd eagerEnd lazyLast eagerLast := by
  have extended := compares.extended
  have lazyWords : (cpu.stacking true).fpWords F = cpu.fpReservationWords :=
    fpWords_stacking extended true
  have lazyMatched := lazyReturn.matched (compares.takes true)
    (compares.consistent.stacking true) fun _ => lazyWords
  have eagerMatched := eagerReturn.matched (compares.takes false)
    (compares.consistent.stacking false) fun _ => room.symm.trans lazyWords
  obtain ⟨lazyLast, lazyLeft, lazyResumes⟩ := lazyMatched.resumes (E := E)
  obtain ⟨eagerLast, eagerLeft, eagerResumes⟩ := eagerMatched.resumes (E := E)
  refine ⟨lazyLast, eagerLast, lazyLeft, eagerLeft, ?_, ?_, ?_⟩
  · intro process
    have lazyPointer := lazyReturn.restores_pointers (compares.takes true) lazyResumes process
    have eagerPointer := eagerReturn.restores_pointers (compares.takes false) eagerResumes process
    exact lazyPointer.trans eagerPointer.symm
  · exact (lazyResumes.context extended).fpscr.trans (eagerResumes.context extended).fpscr.symm
  · intro i stacked
    by_cases low : i.val < 16
    · exact ((lazyResumes.context extended).s i low).trans
        ((eagerResumes.context extended).s i low).symm
    · have high : 16 ≤ i.val := Nat.le_of_not_lt low
      cases wide : (F.v8 && cpu.secure && cpu.ts) with
      | true =>
        exact ((lazyResumes.context extended).upper wide i high).trans
          ((eagerResumes.context extended).upper wide i high).symm
      | false =>
        have own : lazyEnd.s i = eagerEnd.s i := by
          rcases stacked with few | both | own
          · exact absurd few low
          · rw [Bool.and_eq_true] at both
            rw [both.1, both.2, compares.consistent.v8 both.2] at wide
            cases wide
          · exact own
        have lazySame := lazyResumes.upper wide i high
        have eagerSame := eagerResumes.upper wide i high
        exact lazySame.trans (own.trans eagerSame.symm)

theorem frameHolds_of_room (compares : ComparesStacking F E cpu acknowledged)
    (room : (cpu.stacking true).fpWords F = (cpu.stacking false).fpWords F)
    {frames : Word → Prop} {lazyNow eagerNow : Cpu}
    (inside : ∀ lspen b,
      (cpu.stacking lspen).InFrame F (cpu.handlerLr F E acknowledged) b → frames b)
    (lazyRun : Activity F E frames ((cpu.stacking true).takeIrq F E acknowledged).cpu lazyNow)
    (quiet : lazyNow.Quiet)
    (eagerRun : Activity F E frames ((cpu.stacking false).takeIrq F E acknowledged).cpu
      eagerNow) :
    FrameHolds F cpu lazyNow.memory ((cpu.stacking true).fpBase F) ∧
      FrameHolds F cpu eagerNow.memory ((cpu.stacking true).fpBase F) := by
  have base : (cpu.stacking false).fpBase F = (cpu.stacking true).fpBase F := by
    unfold Cpu.fpBase
    rw [room]
    rfl
  have lazyContext := lazyRun.context (compares.takes true)
    (compares.consistent.stacking true).fp compares.extended (inside true)
  have eagerContext := eagerRun.context (compares.takes false)
    (compares.consistent.stacking false).fp compares.extended (inside false)
  constructor
  · rcases lazyContext with ⟨-, pending⟩ | ⟨-, holds⟩
    · exact absurd quiet pending.not_quiet
    · exact ⟨holds.low, holds.vpr, holds.callee⟩
  · rcases eagerContext with ⟨lazy, -⟩ | ⟨-, holds⟩
    · cases lazy
    · rw [base] at holds
      exact ⟨holds.low, holds.vpr, holds.callee⟩

/-- Lazy stacking is eager stacking exactly if `FPCCR.TS` is clear or the interrupted code is
Secure: the eager push of `s16` to `s31` does not ask for the Security state, unlike the room, the
lazy store and the return. -/
theorem lazyEqualsEager_iff (compares : ComparesStacking F E cpu acknowledged) :
    StackedAlike F E cpu acknowledged ↔ (cpu.ts = true → cpu.secure = true) := by
  have room := fpWords_same_iff compares.consistent compares.extended
  constructor
  · intro alike
    exact room.mp ((during_iff compares).mp alike.during)
  · intro follows
    have same := room.mpr follows
    exact
      { during := (during_iff compares).mpr same
        after := fun _ _ => sameReturn_of_room compares same
        memory := fun _ _ _ inside lazyRun quiet =>
          frameHolds_of_room compares same inside lazyRun quiet }

/-- A core at rest that has used its floating-point unit, with `FPCCR.TS` set. -/
def Cpu.computes (secure : Bool) : Cpu := { Cpu.atRest secure with fpca := true, ts := true }

theorem computes_compares (secure : Bool) :
    ComparesStacking .v8m allNonSecure (Cpu.computes secure) 16#32 := by
  have consistent : (Cpu.computes secure).Consistent .v8m := by
    cases secure
    all_goals
      apply Cpu.Consistent.mk (by decide) (by decide) (by decide)
      · intro single
        cases single
      · constructor
        · intro bank active
          cases active
        · intro bank active
          cases active
  apply ComparesStacking.mk rfl consistent
  intro lspen
  have numbered : (secureTarget .v8m allNonSecure secure 16#32).2 ≠ 0#32 := by
    cases secure <;> decide
  have aligned : WordAligned 0x2000#32 := by decide
  exact ⟨by decide, numbered, aligned, fun _ => .inr rfl, ⟨fun _ _ _ _ _ => rfl, fun _ _ _ => rfl⟩⟩

/-- Secure code with `FPCCR.TS` set. -/
theorem lazyEqualsEager_secure : StackedAlike .v8m allNonSecure (Cpu.computes true) 16#32 ↔
      ((Cpu.computes true).ts = true → (Cpu.computes true).secure = true) :=
  lazyEqualsEager_iff (computes_compares true)

/-- Non-secure code with `FPCCR.TS` set: 34 words are pushed where 18 are reserved. -/
theorem lazy_not_eager : ¬ ∀ (F : Features) (E : Environment) (cpu : Cpu) (acknowledged : Word),
      ComparesStacking F E cpu acknowledged → StackedAlike F E cpu acknowledged := by
  intro always
  have compares := computes_compares false
  have same := (during_iff compares).mp (always _ _ _ _ compares).during
  exact absurd same (by decide)

end Tlib.CortexM
