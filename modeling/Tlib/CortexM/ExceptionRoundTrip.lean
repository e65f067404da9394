import Tlib.CortexM.ExceptionUndo

/-!
Contract: a return undoes its entry, on cores without TrustZone.

Owns: what an entry followed by the matching return restores, and the one condition on the handler
under which that is the whole context.
-/

namespace Tlib.CortexM

open Tlib.Library.WordStack

variable {cpu handled : Cpu} {F : Features} {E : Environment} {acknowledged : Word}

/-- What the interrupted code finds again. -/
structure Restored (cpu last : Cpu) : Prop where
  r : ∀ i : Fin 13, i.val < 4 ∨ i.val = 12 → last.r i = cpu.r i
  lr : last.lr = cpu.lr
  pc : last.pc = cpu.pc
  pointers : ∀ process, last.pointer ⟨cpu.secure, process⟩ = cpu.pointer ⟨cpu.secure, process⟩
  spsel : (last.control false).spsel = (cpu.control false).spsel
  fpca : last.fpca = cpu.fpca
  exception : last.exception = cpu.exception
  condexecBits : last.condexecBits = cpu.condexecBits
  thumb : last.thumb = cpu.thumb
  n : last.n = cpu.n
  z : last.z = cpu.z
  c : last.c = cpu.c
  v : last.v = cpu.v
  q : last.q = cpu.q
  ge : last.ge = cpu.ge
  s : cpu.fpca = true → ∀ i : Fin 32, i.val < 16 → last.s i = cpu.s i
  fpscr : cpu.fpca = true → last.fpscr = cpu.fpscr

theorem SameContext.s {last : Cpu} (same : SameContext F cpu last) (i : Fin 32)
    (low : i.val < 16) : last.s i = cpu.s i := by
  have words := same.low
  exact congrFun (List.ofFn_injective words) ⟨i.val, low⟩

theorem Balanced.restores_pointers (takes : cpu.Takes F E acknowledged)
    (balanced : Balanced F E cpu acknowledged handled) {last : Cpu}
    (resumes : Resumes F cpu (cpu.handlerLr F E acknowledged) handled last) (process : Bool) :
    last.pointer ⟨cpu.secure, process⟩ = cpu.pointer ⟨cpu.secure, process⟩ := by
  by_cases active : (⟨cpu.secure, process⟩ : StackPointer) = cpu.active
  · rw [active, ← resumes.active, pointer_active, resumes.active, pointer_active]
    exact resumes.sp
  · rw [resumes.others _ active, balanced.pointers, takes.entered, Outcome.done_cpu]
    exact entered_onlyMoves F cpu _ _ _ active

theorem fpWords_single (consistent : cpu.Consistent F) (single : F.hasTrustzone = false)
    (extended : cpu.fpca = true) : cpu.fpWords F = cpu.fpReservationWords := by
  unfold Cpu.fpWords Cpu.pushedFpWords Cpu.fpReservationWords
  rw [extended, (consistent.single single).2]
  simp

theorem returned_spsel (consistent : cpu.Consistent F) (single : F.hasTrustzone = false)
    {last : Cpu} (resumes : Resumes F cpu (cpu.handlerLr F E acknowledged) handled last) :
    (last.control false).spsel = (cpu.control false).spsel ↔
      (F.v8 = true ∨ cpu.exception = 0#32 ∨ (cpu.control false).spsel = false) := by
  have target : (secureTarget F E cpu.secure acknowledged).1 = false := by
    unfold secureTarget
    rw [single, if_neg Bool.false_ne_true]
    exact (consistent.single single).1
  have written : (last.control false).spsel = excReturnSpsel (cpu.handlerLr F E acknowledged) := by
    rw [resumes.control]
    unfold Cpu.restoreSpsel
    rw [single, Bool.false_and]
    rfl
  rw [written]
  unfold Cpu.handlerLr
  rw [excReturn_spsel, target]
  unfold Cpu.inHandlerMode
  cases F.v8 <;> cases (cpu.control false).spsel <;> simp

/-- A return undoes its entry, at any depth, exactly if the handler has left the `GE` flags alone,
and on v7-M no Handler mode with `SPSEL` set was interrupted. -/
theorem exitUndoesEntry (single : F.hasTrustzone = false) (consistent : cpu.Consistent F)
    (takes : cpu.Takes F E acknowledged) (balanced : Balanced F E cpu acknowledged handled) :
    ∃ last, handled.doV7mExceptionExit F E = .done last ∧ (Restored cpu last ↔ handled.ge = cpu.ge ∧
          (F.v8 = true ∨ cpu.exception = 0#32 ∨ (cpu.control false).spsel = false)) := by
  have matched := balanced.matched takes consistent (fpWords_single consistent single)
  obtain ⟨last, left, resumes⟩ := matched.resumes (E := E)
  refine ⟨last, left, ?_⟩
  have spsel := returned_spsel consistent single resumes
  constructor
  · intro restored
    exact ⟨resumes.ge.symm.trans restored.ge, spsel.mp restored.spsel⟩
  · rintro ⟨ge, selected⟩
    exact
      { r := resumes.r
        lr := resumes.lr
        pc := resumes.pc
        pointers := balanced.restores_pointers takes resumes
        spsel := spsel.mpr selected
        fpca := resumes.fpca
        exception := resumes.exception
        condexecBits := resumes.condexecBits
        thumb := resumes.thumb
        n := resumes.n
        z := resumes.z
        c := resumes.c
        v := resumes.v
        q := resumes.q
        ge := resumes.ge.trans ge
        s := fun extended => (resumes.context extended).s
        fpscr := fun extended => (resumes.context extended).fpscr }

/-- A core at rest that has used its floating-point unit and set a `GE` flag. -/
def Cpu.computing : Cpu := { Cpu.atRest false with fpca := true, ge := 1#4 }

/-- A handler that only writes the `GE` flags before it returns. -/
def Cpu.writesGe (ge : BitVec 4) : Cpu :=
  { (Cpu.computing.takeIrq .v7m allNonSecure 16#32).cpu with
    pc := Cpu.computing.handlerLr .v7m allNonSecure 16#32
    ge := ge }

theorem computing_takes : Cpu.computing.Takes .v7m allNonSecure 16#32 := by
  apply Cpu.Takes.mk (by decide) (by decide) (by decide) (by decide)
  constructor
  · intro _ eager
    cases eager
  · exact fun _ _ _ => rfl

theorem computing_consistent : Cpu.computing.Consistent .v7m := by
  apply Cpu.Consistent.mk (by decide) (by decide) (by decide) (fun _ => ⟨rfl, rfl⟩)
  constructor
  · intro bank active
    cases active
  · intro bank active
    cases active

theorem writesGe_balanced (ge : BitVec 4) :
    Balanced .v7m allNonSecure Cpu.computing 16#32 (Cpu.writesGe ge) := by
  constructor
  · refine ⟨_, fun _ inside => inside, .code (.start _ _) ⟨?_, Agree.refl _ _⟩⟩
    exact ⟨rfl, rfl, rfl, rfl, rfl, rfl, rfl, fun _ => rfl⟩
  · intro active
    cases active
  · exact ⟨rfl, rfl⟩
  · exact fun _ => rfl
  · intro other
    exact absurd rfl other
  · exact fun _ => rfl

/-- A handler that does not touch `GE`. -/
theorem exitUndoesEntry_computing :
    ∃ last, (Cpu.writesGe 1#4).doV7mExceptionExit .v7m allNonSecure = .done last ∧
      (Restored Cpu.computing last ↔ (Cpu.writesGe 1#4).ge = Cpu.computing.ge ∧
          (Features.v7m.v8 = true ∨ Cpu.computing.exception = 0#32 ∨
            (Cpu.computing.control false).spsel = false)) :=
  exitUndoesEntry rfl computing_consistent computing_takes (writesGe_balanced 1#4)

/-- `GE` is not stacked: a handler that clears it changes it for the interrupted code. -/
theorem exit_keeps_ge :
    ¬ ∀ (F : Features) (E : Environment) (cpu : Cpu) (acknowledged : Word) (handled : Cpu),
      F.hasTrustzone = false → cpu.Consistent F → cpu.Takes F E acknowledged →
      Balanced F E cpu acknowledged handled →
        ∃ last, handled.doV7mExceptionExit F E = .done last ∧ Restored cpu last := by
  intro always
  obtain ⟨last, left, restored⟩ := always _ _ _ _ _ rfl computing_consistent computing_takes
    (writesGe_balanced 0#4)
  have matched := (writesGe_balanced 0#4).matched computing_takes computing_consistent
    (fpWords_single computing_consistent rfl)
  obtain ⟨resumed, same, resumes⟩ := matched.resumes (E := allNonSecure)
  rw [left] at same
  cases same
  have cleared : last.ge = 0#4 := resumes.ge
  rw [restored.ge] at cleared
  cases cleared

end Tlib.CortexM
