import Mathlib.Control.Monad.Basic

/-!
Contract: pre- and postconditions of stateful computations.

Owns: triples for computations that read and change a state, with a rule for each way to compose
them.
-/

namespace Tlib.Library.StateTriples

universe u

variable {σ α β : Type u} {P P' : σ → Prop} {Q Q' : α → σ → Prop} {R : β → σ → Prop}
  {f : StateM σ α} {g : α → StateM σ β} {s : σ}

/-- From a state with the precondition, the result and the state after it have the
postcondition. -/
def Triple (P : σ → Prop) (f : StateM σ α) (Q : α → σ → Prop) : Prop :=
  ∀ s, P s → Q (f.run s).1 (f.run s).2

theorem Triple.pure {a : α} (post : ∀ s, P s → Q a s) : Triple P (pure a : StateM σ α) Q := post

theorem Triple.bind (first : Triple P f Q) (rest : ∀ a, Triple (Q a) (g a) R) :
    Triple P (f >>= g) R := by
  intro s pre
  exact rest _ _ (first s pre)

theorem Triple.weaken (triple : Triple P f Q) (pre : ∀ s, P' s → P s)
    (post : ∀ a s, Q a s → Q' a s) : Triple P' f Q' :=
  fun s holds => post _ _ (triple s (pre s holds))

theorem Triple.modify {change : σ → σ} {Q : PUnit → σ → Prop}
    (post : ∀ s, P s → Q PUnit.unit (change s)) : Triple P (modify change) Q := post

theorem Triple.ite {c : Prop} [Decidable c] {f' : StateM σ α} (yes : c → Triple P f Q)
    (no : ¬c → Triple P f' Q) : Triple P (if c then f else f') Q := by
  by_cases holds : c
  · rw [if_pos holds]
    exact yes holds
  · rw [if_neg holds]
    exact no holds

theorem Triple.assume {c : Prop} (rest : c → Triple P f Q) :
    Triple (fun s => c ∧ P s) f Q := fun s both => rest both.1 s both.2

def Keeps (P : σ → Prop) (f : StateM σ α) : Prop := Triple P f fun _ => P

theorem Keeps.pure (a : α) : Keeps P (Pure.pure a : StateM σ α) := fun _ holds => holds

theorem Keeps.bind (first : Keeps P f) (rest : ∀ a, Keeps P (g a)) : Keeps P (f >>= g) :=
  Triple.bind first rest

theorem Keeps.get : Keeps P (get : StateM σ σ) := fun _ holds => holds

theorem Keeps.modify {change : σ → σ} (kept : ∀ s, P s → P (change s)) :
    Keeps P (modify change) := kept

theorem Keeps.ite {c : Prop} [Decidable c] {f' : StateM σ α} (yes : c → Keeps P f)
    (no : ¬c → Keeps P f') : Keeps P (if c then f else f') := Triple.ite yes no

end Tlib.Library.StateTriples
