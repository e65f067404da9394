import Mathlib.Tactic.Ring

/-!
Contract: intervals in a space of addresses that wraps around.

Owns: the last address before a bound, and when two pairs of bounds have the same addresses between
them.
-/

namespace Tlib.Library.CyclicIntervals

open Nat

variable {space lo hi first last start : Nat}

theorem pred_mod_eq (pos : 0 < space) (hi : Nat) :
    (hi + (space - 1)) % space = if hi % space = 0 then space - 1 else hi % space - 1 := by
  have less := mod_lt hi pos
  rw [add_mod, mod_eq_of_lt (show space - 1 < space by omega)]
  split
  next zero => rw [zero, Nat.zero_add, mod_eq_of_lt (by omega)]
  next nonzero =>
    rw [show hi % space + (space - 1) = (hi % space - 1) + space by omega, add_mod_right]
    exact mod_eq_of_lt (by omega)

theorem agree_iff (firstLess : first < space) (lastLess : last < space) :
    (∀ y < space, first ≤ y ∧ y ≤ last ↔ lo ≤ y ∧ y < hi) ↔
      if lo < hi ∧ lo < space then first = lo ∧ last = min hi space - 1 else last < first := by
  split
  next begins =>
    constructor
    · intro agree
      have atLo := (agree lo begins.2).mpr ⟨Nat.le_refl lo, begins.1⟩
      have atFirst := (agree first firstLess).mp ⟨Nat.le_refl first, atLo.1.trans atLo.2⟩
      have atLast := (agree last lastLess).mp ⟨atLo.1.trans atLo.2, Nat.le_refl last⟩
      have atEnd := (agree (min hi space - 1) (by omega)).mpr (by omega)
      omega
    · rintro ⟨rfl, rfl⟩ y less
      omega
  next nothing =>
    constructor
    · intro agree
      have atFirst := agree first firstLess
      omega
    · intro crossed y less
      omega

theorem cyclic_agree_iff (pos : 0 < space) :
    (∀ y < space, lo % space ≤ y ∧ y ≤ (hi + (space - 1)) % space ↔ lo ≤ y ∧ y < hi) ↔
      if lo < hi ∧ lo < space then hi ≤ space ∨ space ∣ hi
      else 0 < hi % space ∧ hi % space ≤ lo % space := by
  have loLess := mod_lt lo pos
  have hiLess := mod_lt hi pos
  rw [agree_iff loLess (mod_lt _ pos), pred_mod_eq pos]
  split
  next begins =>
    rw [mod_eq_of_lt begins.2, dvd_iff_mod_eq_zero]
    rcases Nat.lt_trichotomy hi space with less | rfl | more
    · rw [mod_eq_of_lt less]
      split <;> omega
    · simp
    · split <;> omega
  next => split <;> omega

theorem aligned_end {bits size start : Nat} (aligned : 2 ^ size ∣ start)
    (inside : start < 2 ^ bits) : start + 2 ^ size ≤ 2 ^ bits ∨ 2 ^ bits ∣ start + 2 ^ size := by
  rcases Nat.le_total size bits with le | ge
  · refine .inl ?_
    obtain ⟨blocks, eq⟩ : 2 ^ size ∣ 2 ^ bits := Nat.pow_dvd_pow 2 le
    obtain ⟨before, rfl⟩ := aligned
    rw [eq] at inside ⊢
    have less : before < blocks := Nat.lt_of_mul_lt_mul_left inside
    calc 2 ^ size * before + 2 ^ size = 2 ^ size * (before + 1) := by rw [mul_succ]
      _ ≤ 2 ^ size * blocks := Nat.mul_le_mul_left _ less
  · refine .inr ?_
    have dvd : 2 ^ bits ∣ 2 ^ size := Nat.pow_dvd_pow 2 ge
    have zero : start = 0 := eq_zero_of_dvd_of_lt (dvd.trans aligned) inside
    rw [zero, Nat.zero_add]
    exact dvd

theorem aligned_agree_iff {bits size start : Nat} (aligned : 2 ^ size ∣ start) :
    (∀ y < 2 ^ bits, start % 2 ^ bits ≤ y ∧ y ≤ (start + 2 ^ size + (2 ^ bits - 1)) % 2 ^ bits ↔
      start ≤ y ∧ y < start + 2 ^ size) ↔ start < 2 ^ bits := by
  have block := Nat.two_pow_pos size
  have pos := Nat.two_pow_pos bits
  rw [cyclic_agree_iff pos]
  by_cases inside : start < 2 ^ bits
  · rw [if_pos ⟨by omega, inside⟩]
    exact iff_of_true (aligned_end aligned inside) inside
  · rw [if_neg (fun begins => inside begins.2)]
    refine iff_of_false (fun ⟨positive, le⟩ => ?_) inside
    have wrapped : 2 ^ size ∣ start % 2 ^ bits := by
      rcases Nat.le_total size bits with sizeLe | bitsLe
      · exact (dvd_mod_iff (Nat.pow_dvd_pow 2 sizeLe)).mpr aligned
      · rw [mod_eq_zero_of_dvd ((Nat.pow_dvd_pow 2 bitsLe).trans aligned)]
        exact Nat.dvd_zero _
    rw [← mod_add_mod] at positive le
    rcases aligned_end wrapped (mod_lt start pos) with inSpace | covers
    · rcases Nat.lt_or_eq_of_le inSpace with less | full
      · rw [mod_eq_of_lt less] at le
        omega
      · rw [full, mod_self] at positive
        omega
    · rw [mod_eq_zero_of_dvd covers] at positive
      omega

theorem periodic_iff {total : Nat} (pos : 0 < space) (more : space < total) (dvd : space ∣ total) :
    (∀ y < total, lo ≤ y % space ∧ y % space < hi ↔ lo ≤ y ∧ y < hi) ↔
      (hi ≤ lo ∨ total ≤ lo) ∨ lo = 0 ∧ total ≤ hi := by
  constructor
  · intro periodic
    by_contra not_
    obtain ⟨⟨begins, inside⟩, part⟩ : (lo < hi ∧ lo < total) ∧ ¬(lo = 0 ∧ total ≤ hi) := by omega
    obtain ⟨turns, rfl⟩ := dvd
    have two : 2 ≤ turns := by
      by_contra one
      have : space * turns ≤ space * 1 := Nat.mul_le_mul_left space (by omega)
      omega
    have atLo := (periodic lo inside).mpr ⟨Nat.le_refl lo, begins⟩
    have less := mod_lt lo pos
    -- the start reduced lies in the interval, so the interval begins in the first turn
    have small : lo < space := by omega
    have doubled : space * 2 ≤ space * turns := Nat.mul_le_mul_left space two
    have next := (periodic (lo + space) (by omega)).mp (by
      rw [add_mod_right]
      exact atLo)
    have zero := (periodic space (by omega)).mpr ⟨by omega, by omega⟩
    rw [mod_self] at zero
    have endOfTurn : (space * turns - 1) % space = space - 1 := by
      have split : space * turns - 1 = (space - 1) + space * (turns - 1) := by
        rw [Nat.mul_sub, Nat.mul_one]
        omega
      rw [split, add_mul_mod_self_left]
      exact mod_eq_of_lt (by omega)
    have top := (periodic (space * turns - 1) (by omega)).mp (by
      rw [endOfTurn]
      omega)
    omega
  · intro whole y less
    have := mod_le y space
    have := mod_lt y pos
    omega

end Tlib.Library.CyclicIntervals
