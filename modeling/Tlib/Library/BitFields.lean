import Mathlib.Algebra.Group.Nat.Defs

/-!
Contract: fields of a machine word.

Owns: reading and writing a range of bits of a word, and that a write of one field is not seen
through a disjoint one.
-/

namespace Tlib.Library.BitFields

open BitVec Nat

/-- A range of bits. -/
structure Field where
  (shift width : Nat)
  deriving DecidableEq, Repr

variable {w : Nat} {f g : Field} {reg val : BitVec w} {i : Nat}

def Field.Has (f : Field) (i : Nat) : Prop := f.shift ≤ i ∧ i < f.shift + f.width

instance : Decidable (f.Has i) := inferInstanceAs (Decidable (_ ∧ _))

def Field.mask (f : Field) (w : Nat) : BitVec w := BitVec.ofNat w ((2 ^ f.width - 1) <<< f.shift)

def getField (reg : BitVec w) (f : Field) : BitVec w := (reg &&& f.mask w) >>> f.shift

def setField (reg : BitVec w) (f : Field) (val : BitVec w) : BitVec w :=
  (reg &&& ~~~f.mask w) ||| ((val <<< f.shift) &&& f.mask w)

def Field.Disjoint (f g : Field) : Prop := f.shift + f.width ≤ g.shift ∨ g.shift + g.width ≤ f.shift

instance : Decidable (f.Disjoint g) := inferInstanceAs (Decidable (_ ∨ _))

theorem getLsbD_mask (less : i < w) : (f.mask w).getLsbD i = decide (f.Has i) := by
  unfold Field.mask Field.Has
  rw [getLsbD_ofNat, testBit_shiftLeft, testBit_two_pow_sub_one]
  by_cases low : f.shift ≤ i
  · simp only [less, low, decide_true, Bool.true_and, true_and]
    exact decide_eq_decide.mpr (by omega)
  · simp [low]

theorem getLsbD_getField (fits : f.shift + f.width ≤ w) :
    (getField reg f).getLsbD i = (decide (i < f.width) && reg.getLsbD (f.shift + i)) := by
  unfold getField
  rw [getLsbD_ushiftRight, getLsbD_and]
  by_cases inside : i < f.width
  · rw [getLsbD_mask (by omega)]
    have has : f.Has (f.shift + i) := by
      unfold Field.Has
      omega
    simp [inside, has]
  · by_cases less : f.shift + i < w
    · rw [getLsbD_mask less]
      have has : ¬f.Has (f.shift + i) := by
        unfold Field.Has
        omega
      simp [inside, has]
    · rw [getLsbD_of_ge _ _ (by omega)]
      simp

theorem getLsbD_setField (less : i < w) : (setField reg f val).getLsbD i =
      if f.Has i then val.getLsbD (i - f.shift) else reg.getLsbD i := by
  unfold setField
  rw [getLsbD_or, getLsbD_and, getLsbD_and, getLsbD_not,
    getLsbD_shiftLeft, getLsbD_mask less]
  by_cases has : f.Has i
  · have low : ¬i < f.shift := Nat.not_lt.mpr has.1
    simp [has, less, low]
  · simp [has, less]

theorem setField_of_not_has (less : i < w) (outside : ¬f.Has i) :
    (setField reg f val).getLsbD i = reg.getLsbD i := by
  rw [getLsbD_setField less, if_neg outside]

theorem eq_of_bits {x y : BitVec w} (bits : ∀ i < w, x.getLsbD i = y.getLsbD i) : x = y :=
  eq_of_getLsbD_eq fun i less => bits i less

theorem getField_congr {other : BitVec w} (fits : f.shift + f.width ≤ w)
    (same : ∀ i, f.Has i → reg.getLsbD i = other.getLsbD i) : getField reg f = getField other f := by
  apply eq_of_bits
  intro i _
  rw [getLsbD_getField fits, getLsbD_getField fits]
  by_cases inside : i < f.width
  · rw [same (f.shift + i) ⟨by omega, by omega⟩]
  · simp [inside]

theorem getField_setField (fits : f.shift + f.width ≤ w) :
    getField (setField reg f val) f = getField val { shift := 0, width := f.width } := by
  apply eq_of_bits
  intro i _
  rw [getLsbD_getField fits, getLsbD_getField (by simp only; omega)]
  by_cases inside : i < f.width
  · have has : f.Has (f.shift + i) := ⟨by omega, by omega⟩
    rw [getLsbD_setField (by omega), if_pos has, Nat.add_sub_cancel_left, Nat.zero_add]
  · simp [inside]

theorem getField_setField_of_disjoint (fits : f.shift + f.width ≤ w) (apart : f.Disjoint g) :
    getField (setField reg g val) f = getField reg f := by
  refine getField_congr fits fun i has => ?_
  unfold Field.Disjoint at apart
  unfold Field.Has at has
  refine setField_of_not_has (by omega) ?_
  unfold Field.Has
  omega

theorem getField_low (fits : f.width ≤ w) (small : val.toNat < 2 ^ f.width) :
    getField val { shift := 0, width := f.width } = val := by
  apply eq_of_bits
  intro i _
  rw [getLsbD_getField (by simp only; omega)]
  by_cases inside : i < f.width
  · simp [inside]
  · have beyond : val.getLsbD i = false := by
      rw [← testBit_toNat]
      exact testBit_lt_two_pow
        (Nat.lt_of_lt_of_le small (Nat.pow_le_pow_right (by decide) (by omega)))
    simp [beyond]

theorem getField_setField_of_lt (fits : f.shift + f.width ≤ w)
    (small : val.toNat < 2 ^ f.width) : getField (setField reg f val) f = val := by
  rw [getField_setField fits, getField_low (by omega) small]

theorem toNat_getField (fits : f.shift + f.width ≤ w) :
    (getField reg f).toNat = reg.toNat / 2 ^ f.shift % 2 ^ f.width := by
  apply eq_of_testBit_eq
  intro i
  rw [testBit_toNat, getLsbD_getField fits, testBit_mod_two_pow,
    testBit_div_two_pow, testBit_toNat, Nat.add_comm]

theorem toNat_getField_lt (fits : f.shift + f.width ≤ w) :
    (getField reg f).toNat < 2 ^ f.width := by
  rw [toNat_getField fits]
  exact mod_lt _ (Nat.two_pow_pos _)

theorem getLsbD_of_getField {other : BitVec w} (fits : f.shift + f.width ≤ w)
    (same : getField reg f = getField other f) (has : f.Has i) :
    reg.getLsbD i = other.getLsbD i := by
  have bits := congrArg (fun x => x.getLsbD (i - f.shift)) same
  simp only [getLsbD_getField fits] at bits
  have inside : i - f.shift < f.width := by
    unfold Field.Has at has
    omega
  have place : f.shift + (i - f.shift) = i := by
    unfold Field.Has at has
    omega
  rw [place] at bits
  simpa [inside] using bits

theorem setField_eq_self_iff (fits : f.shift + f.width ≤ w) :
    setField reg f val = reg ↔ getField reg f = getField val { shift := 0, width := f.width } := by
  constructor
  · intro same
    rw [← getField_setField fits, same]
  · intro same
    apply eq_of_bits
    intro i less
    by_cases has : f.Has i
    · refine getLsbD_of_getField fits ?_ has
      rw [getField_setField fits, same]
    · rw [setField_of_not_has less has]

theorem ne_zero_iff : reg ≠ 0 ↔ ∃ i < w, reg.getLsbD i = true := by
  constructor
  · intro ne
    refine Classical.byContradiction fun none => ne (eq_of_bits fun i less => ?_)
    have clear : reg.getLsbD i ≠ true := fun set => none ⟨i, less, set⟩
    simpa using clear
  · rintro ⟨i, _, set⟩ zero
    rw [zero] at set
    simp at set

end Tlib.Library.BitFields
