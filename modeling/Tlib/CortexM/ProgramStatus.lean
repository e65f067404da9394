import Mathlib.Tactic.IntervalCases
import Tlib.CortexM.State

/-!
Contract: the bits of `xPSR`.

Owns: the field that each bit is read from, and what a read finds after a write with any mask.
-/

namespace Tlib.CortexM

open BitVec

variable {cpu : Cpu} {val mask : Word} {i : Nat}

theorem xpsrRead_getLsbD (cpu : Cpu) (i : Nat) (inside : i < 32) : cpu.xpsrRead.getLsbD i =
      ((cpu.n && decide (i = 31)) || (cpu.z && decide (i = 30)) || (cpu.c && decide (i = 29)) ||
        (cpu.v && decide (i = 28)) || (cpu.q && decide (i = 27)) ||
        (cpu.thumb && decide (i = 24)) ||
        (decide (25 ≤ i) && decide (i < 27) && cpu.condexecBits.getLsbD (i - 25)) ||
        (decide (10 ≤ i) && decide (i < 16) && cpu.condexecBits.getLsbD (i - 8)) ||
        cpu.exception.getLsbD i) := by
  have low : ∀ j : Fin 32, (3#32).getLsbD j = decide (j.val < 2) := by decide
  have high : ∀ j : Fin 32,
      (0xfc#32).getLsbD j = (decide (2 ≤ j.val) && decide (j.val < 8)) := by decide
  unfold Cpu.xpsrRead
  simp only [getLsbD_or, bitIf_getLsbD _ _ _ inside, getLsbD_shiftLeft,
    getLsbD_and, getLsbD_setWidth, inside, decide_true, Bool.true_and]
  have lowField : (!decide (i < 25) && (decide (i - 25 < 32) &&
      cpu.condexecBits.getLsbD (i - 25) && (3#32).getLsbD (i - 25))) =
      (decide (25 ≤ i) && decide (i < 27) && cpu.condexecBits.getLsbD (i - 25)) := by
    rw [low ⟨i - 25, by omega⟩]
    have narrow : i - 25 < 32 := by omega
    have place : decide (i - 25 < 2) = decide (i < 27) := by
      rw [decide_eq_decide]
      omega
    have above : (!decide (i < 25)) = decide (25 ≤ i) := by
      rw [← decide_not, decide_eq_decide]
      omega
    rw [decide_eq_true narrow, place, above, Bool.true_and, Bool.and_comm _ (decide (i < 27)),
      Bool.and_assoc]
  have highField : (!decide (i < 8) && (decide (i - 8 < 32) &&
      cpu.condexecBits.getLsbD (i - 8) && (0xfc#32).getLsbD (i - 8))) =
      (decide (10 ≤ i) && decide (i < 16) && cpu.condexecBits.getLsbD (i - 8)) := by
    rw [high ⟨i - 8, by omega⟩]
    rcases Nat.lt_or_ge i 10 with below | above
    · have outside : decide (10 ≤ i) = false := decide_eq_false (by omega)
      have few : decide (2 ≤ i - 8) = false := decide_eq_false (by omega)
      simp [outside, few]
    · have place : decide (i - 8 < 8) = decide (i < 16) := by
        rw [decide_eq_decide]
        omega
      have narrow : i - 8 < 32 := by omega
      rw [decide_eq_true narrow, place, decide_eq_true above, decide_eq_false (by omega : ¬ i < 8),
        decide_eq_true (by omega : 2 ≤ i - 8), Bool.not_false]
      simp [Bool.and_comm]
  rw [lowField, highField]

theorem writeCondexec_getLsbD (bits : BitVec 8) (low : mask &&& 0x06000000#32 ≠ 0)
    (high : mask &&& 0xfc00#32 ≠ 0) (inside : i < 8) :
    (writeCondexecHigh (writeCondexecLow bits val mask) val mask).getLsbD i =
      val.getLsbD (if i < 2 then 25 + i else 8 + i) := by
  have three : ∀ j : Fin 8, (3#8).getLsbD j = decide (j.val < 2) := by decide
  have lowWord : ∀ j : Fin 32, (3#32).getLsbD j = decide (j.val < 2) := by decide
  have highWord : ∀ j : Fin 32,
      (0xfc#32).getLsbD j = (decide (2 ≤ j.val) && decide (j.val < 8)) := by decide
  unfold writeCondexecHigh writeCondexecLow
  rw [if_pos high, if_pos low]
  simp only [getLsbD_or, getLsbD_and, getLsbD_setWidth,
    getLsbD_ushiftRight, getLsbD_not, inside, decide_true, Bool.true_and]
  rw [three ⟨i, inside⟩, lowWord ⟨i, by omega⟩, highWord ⟨i, by omega⟩]
  by_cases first : i < 2
  · have notHigh : ¬ 2 ≤ i := by omega
    simp [first]
  · have rest : 2 ≤ i := by omega
    simp [first, rest, inside]

section

variable (number : mask &&& 0x1ff#32 = 0)

include number

theorem xpsrWrite_flag (flags : mask &&& 0xf0000000#32 ≠ 0) (q : mask &&& 0x08000000#32 ≠ 0)
    (field : 27 ≤ i) (inside : i < 32) :
    (cpu.xpsrWrite val mask).xpsrRead.getLsbD i = (val.getLsbD i || cpu.exception.getLsbD i) := by
  rw [xpsrRead_getLsbD _ i inside]
  unfold Cpu.xpsrWrite
  simp only [if_pos flags, if_pos q, number, ne_eq, not_true_eq_false, if_false]
  interval_cases i <;> simp

theorem xpsrWrite_condexec (low : mask &&& 0x06000000#32 ≠ 0) (high : mask &&& 0xfc00#32 ≠ 0)
    (field : 10 ≤ i ∧ i < 16 ∨ 25 ≤ i ∧ i < 27) :
    (cpu.xpsrWrite val mask).xpsrRead.getLsbD i = (val.getLsbD i || cpu.exception.getLsbD i) := by
  rw [xpsrRead_getLsbD _ i (by omega)]
  have bits (k : Nat) (inside : k < 8) : (cpu.xpsrWrite val mask).condexecBits.getLsbD k =
        val.getLsbD (if k < 2 then 25 + k else 8 + k) :=
    writeCondexec_getLsbD cpu.condexecBits low high inside
  have exception : (cpu.xpsrWrite val mask).exception = cpu.exception := if_neg (not_not.mpr number)
  rw [exception]
  rcases field with ⟨above, below⟩ | ⟨above, below⟩
  · rw [bits (i - 8) (by omega)]
    interval_cases i <;> simp
  · rw [bits (i - 25) (by omega)]
    interval_cases i <;> simp

end

theorem xpsrWrite_read (cpu : Cpu) (val : Word)
    (written : mask = 0xf8000000#32 ∨ mask = 0xfe00fc00#32 ∨ mask = 0x0600fc00#32) :
    (cpu.xpsrWrite val mask).xpsrRead &&& mask = (val ||| cpu.exception) &&& mask := by
  have perBit (each : ∀ i < 32, mask.getLsbD i = true →
      (cpu.xpsrWrite val mask).xpsrRead.getLsbD i = (val.getLsbD i || cpu.exception.getLsbD i)) :
      (cpu.xpsrWrite val mask).xpsrRead &&& mask = (val ||| cpu.exception) &&& mask := by
    apply eq_of_getLsbD_eq
    intro i inside
    rw [getLsbD_and, getLsbD_and, getLsbD_or]
    cases bit : mask.getLsbD i with
    | false => rw [Bool.and_false, Bool.and_false]
    | true => rw [each i inside bit]
  apply perBit
  intro i inside bit
  rcases written with rfl | rfl | rfl
  · have field : ∀ j : Fin 32, (0xf8000000#32).getLsbD j = true → 27 ≤ j.val := by decide
    exact xpsrWrite_flag (by decide) (by decide) (by decide) (field ⟨i, inside⟩ bit) inside
  · have field : ∀ j : Fin 32, (0xfe00fc00#32).getLsbD j = true →
        27 ≤ j.val ∨ 10 ≤ j.val ∧ j.val < 16 ∨ 25 ≤ j.val ∧ j.val < 27 := by decide
    rcases field ⟨i, inside⟩ bit with flag | condexec
    · exact xpsrWrite_flag (by decide) (by decide) (by decide) flag inside
    · exact xpsrWrite_condexec (by decide) (by decide) (by decide) condexec
  · have field : ∀ j : Fin 32, (0x0600fc00#32).getLsbD j = true →
        10 ≤ j.val ∧ j.val < 16 ∨ 25 ≤ j.val ∧ j.val < 27 := by decide
    exact xpsrWrite_condexec (by decide) (by decide) (by decide) (field ⟨i, inside⟩ bit)

end Tlib.CortexM
