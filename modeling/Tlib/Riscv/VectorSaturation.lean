import Mathlib.Data.BitVec
import Mathlib.Tactic.IntervalCases
import Tlib.Riscv.VectorFixedPoint

/-!
Contract: the fixed-point instructions of the vector unit, over their active elements.

Owns: the registers `vxsat`, `vxrm` and `vcsr` with their writes, the operands on which an
instruction is exact, and runs of both.
-/

namespace Tlib.Riscv.Vector

open Tlib.Library.CIntegers
open Tlib.Library.FixedPoint

variable {n xlen : Nat}

/-! ### Flags -/

structure FixedState (xlen : Nat) where
  (vxsat vxrm vcsr : BitVec xlen)
  deriving DecidableEq, Repr

namespace FixedState

def vxsatMask : BitVec xlen := 1

def vxrmMask : BitVec xlen := 3

def vcsrVxrm : BitVec xlen := vxrmMask <<< 1

def vcsrMask : BitVec xlen := vxsatMask ||| vcsrVxrm

def setVxsat (s : FixedState xlen) (vxsat : BitVec xlen) : FixedState xlen :=
  { s with vxsat := vxsat, vcsr := s.vcsr &&& ~~~vxsatMask ||| vxsat }

def writeVxsat (s : FixedState xlen) (v : BitVec xlen) : FixedState xlen :=
  s.setVxsat (v &&& vxsatMask)

def writeVxrm (s : FixedState xlen) (v : BitVec xlen) : FixedState xlen :=
  let vxrm := v &&& vxrmMask
  { s with vxrm := vxrm, vcsr := s.vcsr &&& ~~~vcsrVxrm ||| (vxrm &&& vxrmMask) <<< 1 }

def writeVcsr (s : FixedState xlen) (v : BitVec xlen) : FixedState xlen :=
  let vcsr := v &&& vcsrMask
  { s with vcsr := vcsr, vxsat := vcsr &&& vxsatMask, vxrm := vcsr >>> 1 &&& vxrmMask }

/-- `env->vxsat |= sat` -/
def setSat (s : FixedState xlen) (sat : Bool) : FixedState xlen :=
  s.setVxsat (s.vxsat ||| if sat then 1 else 0)

/-- `env->vxrm & 0b11` -/
def rm (s : FixedState xlen) : BitVec 2 := s.vxrm.extractLsb' 0 2

/-- `vcsr` is made of the flag and the mode. -/
structure Packed (s : FixedState xlen) : Prop where
  flag : s.vxsat = 0 ∨ s.vxsat = 1
  mode : s.vxrm = 0 ∨ s.vxrm = 1 ∨ s.vxrm = 2 ∨ s.vxrm = 3
  packing : s.vcsr = s.vxsat ||| s.vxrm <<< 1

end FixedState

open FixedState

variable (H : WideShift)

/-! ### Instructions -/

def FixedOp.record (op : FixedOp) (s : FixedState xlen) (sat : Bool) : FixedState xlen :=
  match op with
  | vnclipu | vnclip | vsmul => if sat then s.setSat true else s
  | vsaddu | vsadd | vssubu | vssub => s.setSat sat
  | vssrl | vssra | vaaddu | vaadd | vasubu | vasub => s

/-- What an instruction reads: the range of its elements, the mask and both operands. -/
structure FixedOperands (op : FixedOp) (n : Nat) where
  (vstart vl : Nat)
  active : Nat → Bool
  vs2 : Nat → BitVec (op.sourceWidth n)
  vs1 : Nat → BitVec n

namespace FixedOperands

variable {op : FixedOp}

/-- `for(int ei = env->vstart; ei < env->vl; ++ei)` with `TEST_MASK(ei)` -/
def elements (x : FixedOperands op n) : List Nat :=
  (List.range' x.vstart (x.vl - x.vstart)).filter x.active

def element (x : FixedOperands op n) (rm : BitVec 2)
    (before : FixedState xlen × (Nat → BitVec n)) (ei : Nat) :
    FixedState xlen × (Nat → BitVec n) :=
  let result := op.outcome H rm (x.vs2 ei) (x.vs1 ei)
  (op.record before.1 result.2, Function.update before.2 ei result.1)

/-- The instruction; `vd` are the elements of its destination. -/
def execute (x : FixedOperands op n) (s : FixedState xlen) (vd : Nat → BitVec n) :
    FixedState xlen × (Nat → BitVec n) :=
  x.elements.foldl (x.element H s.rm) (s, vd)

/-- The elements and the flag are the ones that the extension asks for. -/
structure Follows (x : FixedOperands op n) (s : FixedState xlen) (vd : Nat → BitVec n)
    (after : FixedState xlen × (Nat → BitVec n)) : Prop where
  active : ∀ ei ∈ x.elements, after.2 ei = op.expected (modeOf s.rm) (x.vs2 ei) (x.vs1 ei)
  others : ∀ ei, ei ∉ x.elements → after.2 ei = vd ei
  flag : after.1.vxsat = 1 ↔
    s.vxsat = 1 ∨ ∃ ei ∈ x.elements, op.overflows (modeOf s.rm) (x.vs2 ei) (x.vs1 ei) = true
  mode : after.1.vxrm = s.vxrm
  packed : after.1.Packed

end FixedOperands

/-- Of a product that is not rounded away by its higher bits, the masks of the over-wide shifts
find a bit exactly when there is one to find. The square of the least number saturates. -/
def MasksSuffice (product : ℤ) : Mode → Prop
  | .nearestEven => product / 2 ^ 62 % 2 = 1 → product / 2 ^ 63 % 2 = 0 →
      (underMask H true (BitVec.ofInt 128 product) 62 = true ↔ product % 2 ^ 62 ≠ 0)
  | .odd => product ≠ 2 ^ 126 → product / 2 ^ 63 % 2 = 0 →
      (underMask H true (BitVec.ofInt 128 product) 63 = true ↔ product % 2 ^ 63 ≠ 0)
  | .nearestUp | .down => True

def ReachesLeast (a b : BitVec n) : Prop :=
  value true a < 0 ∧ value true a + value true b = least true n

def FixedOperands.Exact (s : FixedState xlen) : {op : FixedOp} → FixedOperands op n → Prop
  | .vsadd, x => s.vxsat = 1 ∨
      (∃ ei ∈ x.elements, ¬InRange true n (value true (x.vs2 ei) + value true (x.vs1 ei))) ∨
        ∀ ei ∈ x.elements, ¬ReachesLeast (x.vs2 ei) (x.vs1 ei)
  | .vsmul, x => n = 64 → ∀ ei ∈ x.elements,
      MasksSuffice H (value true (x.vs2 ei) * value true (x.vs1 ei)) (modeOf s.rm)
  | _, _ => True

/-- The states of the flags that a hart comes to have. -/
inductive FixedReached : FixedState xlen → Prop where
  | reset : FixedReached ⟨0, 0, 0⟩
  | writeVxsat {s : FixedState xlen} (before : FixedReached s) (v : BitVec xlen) :
      FixedReached (s.writeVxsat v)
  | writeVxrm {s : FixedState xlen} (before : FixedReached s) (v : BitVec xlen) :
      FixedReached (s.writeVxrm v)
  | writeVcsr {s : FixedState xlen} (before : FixedReached s) (v : BitVec xlen) :
      FixedReached (s.writeVcsr v)
  | execute {s : FixedState xlen} (before : FixedReached s) {n : Nat} {op : FixedOp}
      (x : FixedOperands op n) (vd : Nat → BitVec n) : FixedReached (x.execute H s vd).1

/-! ### Elements -/

namespace FixedOp

theorem wideSum_eq (signed : Bool) (a b : BitVec n) :
    wideSum signed a b = BitVec.ofInt (2 * n) (value signed a + value signed b) := by
  unfold wideSum
  rw [ofInt_sum, value_widen, value_widen]

theorem wideDifference_eq (signed : Bool) (a b : BitVec n) :
    wideDifference signed a b = BitVec.ofInt (2 * n) (value signed a - value signed b) := by
  unfold wideDifference
  rw [ofInt_difference, value_widen, value_widen]

theorem product_range {M x y : ℤ} (left : -M ≤ x ∧ x ≤ M - 1) (right : -M ≤ y ∧ y ≤ M - 1) :
    x * y = M * M ∨ -(M * M) + M ≤ x * y ∧ x * y ≤ M * M - M := by
  by_cases corner : x = -M ∧ y = -M
  · rw [corner.1, corner.2]
    exact Or.inl (Int.neg_mul_neg M M)
  · right
    have absolute : |x| ≤ M ∧ |y| ≤ M ∧ (|x| ≤ M - 1 ∨ |y| ≤ M - 1) := by
      rw [abs_le, abs_le, abs_le, abs_le]
      omega
    have bound : |x * y| ≤ M * M - M := by
      rw [abs_mul]
      have first := abs_nonneg x
      have second := abs_nonneg y
      rcases absolute.2.2 with small | small
      · nlinarith
      · nlinarith
    have both := abs_le.mp bound
    constructor <;> linarith

theorem value_wideProduct (positive : 0 < n) (a b : BitVec n) :
    value true (wideProduct a b) = value true a * value true b := by
  have left := inRange_value true a
  have right := inRange_value true b
  have power : (2 : ℤ) ^ (2 * n - 1) = 2 * (2 ^ (n - 1) * 2 ^ (n - 1)) := by
    rw [← pow_add, ← pow_succ']
    congr 1
    omega
  unfold wideProduct
  rw [ofInt_product, value_widen, value_widen]
  apply value_ofInt (by omega)
  unfold InRange least greatest at left right ⊢
  simp only [if_true] at left right ⊢
  rw [power]
  have square : (1 : ℤ) ≤ 2 ^ (n - 1) * 2 ^ (n - 1) := by nlinarith
  rcases product_range left right with corner | inside
  · omega
  · omega

theorem and_sub_one (sew : n = 8 ∨ n = 16 ∨ n = 32 ∨ n = 64) (x : Nat) : x &&& (n - 1) = x % n := by
  rcases sew with rfl | rfl | rfl | rfl
  · exact Nat.and_two_pow_sub_one_eq_mod x 3
  · exact Nat.and_two_pow_sub_one_eq_mod x 4
  · exact Nat.and_two_pow_sub_one_eq_mod x 5
  · exact Nat.and_two_pow_sub_one_eq_mod x 6

theorem Allowed.sew {op : FixedOp} (allowed : op.Allowed n) : n = 8 ∨ n = 16 ∨ n = 32 ∨ n = 64 := by
  rcases allowed with eight | sixteen | thirtyTwo | ⟨sixtyFour, -⟩
  · exact Or.inl eight
  · exact Or.inr (Or.inl sixteen)
  · exact Or.inr (Or.inr (Or.inl thirtyTwo))
  · exact Or.inr (Or.inr (Or.inr sixtyFour))

theorem shifted_eq (sew : n = 8 ∨ n = 16 ∨ n = 32 ∨ n = 64) (signed : Bool) (a b : BitVec n)
    (rm : BitVec 2) :
    roundoff H signed a (b.toNat &&& (n - 1)) rm =
      BitVec.ofInt n ((modeOf rm).round ((value signed a : ℚ) / 2 ^ (b.toNat % n))) := by
  have less : b.toNat % n < n := Nat.mod_lt _ (by omega)
  rw [← ofInt_value signed (roundoff H signed a _ rm), and_sub_one sew,
    roundoff_exact H signed a (by omega) less (Or.inl (by omega)) rm]

theorem clipto_of_value {signed : Bool} {val : BitVec (2 * n)} {z : ℤ}
    (number : value signed val = z) :
    clipto signed val = (BitVec.ofInt n (clip signed n z), !decide (InRange signed n z)) := by
  rw [clipto_eq, number]

theorem narrowed_eq (narrow : n = 8 ∨ n = 16 ∨ n = 32) (signed : Bool) (a : BitVec (2 * n))
    (b : BitVec n) (rm : BitVec 2) :
    value signed (roundoff H signed a (b.toNat &&& (2 * n - 1)) rm) =
      (modeOf rm).round ((value signed a : ℚ) / 2 ^ (b.toNat % (2 * n))) := by
  have less : b.toNat % (2 * n) < 2 * n := Nat.mod_lt _ (by omega)
  rw [and_sub_one (by omega), roundoff_exact H signed a (by omega) less (Or.inl (by omega)) rm]

theorem multiplied_eq (sew : n = 8 ∨ n = 16 ∨ n = 32 ∨ n = 64) (narrow : n ≠ 64) (a b : BitVec n)
    (rm : BitVec 2) :
    value true (roundoff H true (wideProduct a b) (n - 1) rm) =
      (modeOf rm).round (((value true a * value true b : ℤ) : ℚ) / 2 ^ (n - 1)) := by
  rw [roundoff_exact H true _ (by omega) (by omega) (Or.inl (by omega)) rm,
    value_wideProduct (by omega)]

theorem outcome_eq {op : FixedOp} (allowed : op.Allowed n) (sum : op ≠ vsadd)
    (product : op = vsmul → n ≠ 64) (rm : BitVec 2) (a : BitVec (op.sourceWidth n))
    (b : BitVec n) :
    op.outcome H rm a b = (op.expected (modeOf rm) a b, op.overflows (modeOf rm) a b) := by
  have sew := allowed.sew
  have positive : 0 < n := by omega
  unfold expected overflows rounded
  cases op with
  | vssrl => exact congrArg (·, false) (shifted_eq H sew false a b rm)
  | vssra => exact congrArg (·, false) (shifted_eq H sew true a b rm)
  | vnclipu =>
    have narrow : n = 8 ∨ n = 16 ∨ n = 32 := by
      rcases allowed with eight | sixteen | thirtyTwo | ⟨-, impossible, -⟩
      · exact Or.inl eight
      · exact Or.inr (Or.inl sixteen)
      · exact Or.inr (Or.inr thirtyTwo)
      · exact absurd rfl impossible
    exact clipto_of_value (narrowed_eq H narrow false a b rm)
  | vnclip =>
    have narrow : n = 8 ∨ n = 16 ∨ n = 32 := by
      rcases allowed with eight | sixteen | thirtyTwo | ⟨-, -, impossible⟩
      · exact Or.inl eight
      · exact Or.inr (Or.inl sixteen)
      · exact Or.inr (Or.inr thirtyTwo)
      · exact absurd rfl impossible
    exact clipto_of_value (narrowed_eq H narrow true a b rm)
  | vaaddu => exact congrArg (·, false) (average_exact H false positive _ (wideSum_eq false a b) rm)
  | vaadd => exact congrArg (·, false) (average_exact H true positive _ (wideSum_eq true a b) rm)
  | vasubu =>
    exact congrArg (·, false) (average_exact H false positive _ (wideDifference_eq false a b) rm)
  | vasub =>
    exact congrArg (·, false) (average_exact H true positive _ (wideDifference_eq true a b) rm)
  | vsmul =>
    have narrow := product rfl
    exact clipto_of_value (multiplied_eq H sew narrow a b rm)
  | vsaddu =>
    refine (vopSaddu_eq positive a b).trans ?_
    simp only [exact, Library.FixedPoint.round_intCast]
    rfl
  | vsadd => exact absurd rfl sum
  | vssubu =>
    refine (vopSsubu_eq a b).trans ?_
    simp only [exact, Library.FixedPoint.round_intCast]
    rfl
  | vssub =>
    refine (vopSsub_eq sew a b).trans ?_
    simp only [exact, Library.FixedPoint.round_intCast]
    rfl

theorem outcome_vsadd (allowed : vsadd.Allowed n) (rm : BitVec 2) (a b : BitVec n) :
    vsadd.outcome H rm a b = (vsadd.expected (modeOf rm) a b, vsadd.overflows (modeOf rm) a b ||
        decide (value true a < 0 ∧ value true a + value true b = least true n)) := by
  refine (vopSadd_eq allowed.sew a b).trans ?_
  unfold expected overflows rounded
  simp only [exact, Library.FixedPoint.round_intCast]
  rfl

/-! ### Products of 64 bits -/

/-- What the masks find in a product of 128 bits. -/
def incrementOf (p : ℤ) (m : Mode) : Bool :=
  incrementMasked p 63 (underMask H true (BitVec.ofInt 128 p) 62)
    (underMask H true (BitVec.ofInt 128 p) 63) m

theorem incrementOf_eq_iff {p : ℤ} (inside : p ≠ 2 ^ 126) (m : Mode) :
    incrementOf H p m = m.increment p 63 ↔ MasksSuffice H p m := by
  cases m with
  | nearestUp => simp [incrementOf, incrementMasked, Mode.increment, MasksSuffice]
  | nearestEven =>
    unfold incrementOf incrementMasked Mode.increment MasksSuffice
    rw [Bool.eq_iff_iff]
    simp only [Bool.and_eq_true, Bool.or_eq_true, decide_eq_true_eq, Nat.reduceSub]
    have parity : p / 2 ^ 63 % 2 = 1 ↔ ¬p / 2 ^ 63 % 2 = 0 := by omega
    rw [parity]
    tauto
  | down => simp [incrementOf, incrementMasked, Mode.increment, MasksSuffice]
  | odd =>
    unfold incrementOf incrementMasked Mode.increment MasksSuffice
    rw [Bool.eq_iff_iff]
    simp only [Bool.and_eq_true, decide_eq_true_eq]
    tauto

/-- The increment of the greatest product that is not a square makes no difference. -/
theorem incrementOf_greatest (m : Mode) :
    incrementOf H (2 ^ 126 - 2 ^ 63) m = m.increment (2 ^ 126 - 2 ^ 63) 63 := by
  cases m <;> simp [incrementOf, incrementMasked, Mode.increment]

theorem ofInt_injective {x y : ℤ} (left : InRange true 64 x) (right : InRange true 64 y)
    (same : BitVec.ofInt 64 x = BitVec.ofInt 64 y) : x = y := by
  rw [← value_ofInt (by decide) left, ← value_ofInt (by decide) right, same]

theorem outcome_vsmul (rm : BitVec 2) (a b : BitVec 64) :
    (vsmul.outcome H rm a b).2 = vsmul.overflows (modeOf rm) a b ∧
      ((vsmul.outcome H rm a b).1 = vsmul.expected (modeOf rm) a b ↔
        MasksSuffice H (value true a * value true b) (modeOf rm)) := by
  have left := inRange_value true a
  have right := inRange_value true b
  have product : wideProduct a b = BitVec.ofInt 128 (value true a * value true b) := by
    rw [← ofInt_value true (wideProduct a b), value_wideProduct (by decide)]
  have coded : value true (roundoff H true (wideProduct a b) 63 rm) =
      value true a * value true b / 2 ^ 63 +
        if incrementOf H (value true a * value true b) (modeOf rm) then 1 else 0 := by
    refine (value_roundoff H true _ (by decide) (by decide) (by decide) rm).trans ?_
    rw [value_wideProduct (by decide), product]
    rfl
  have exact_ : vsmul.rounded (modeOf rm) a b = value true a * value true b / 2 ^ 63 +
      if (modeOf rm).increment (value true a * value true b) 63 then 1 else 0 :=
    round_shifted (modeOf rm) _ (by decide)
  have result := clipto_of_value coded
  change vsmul.outcome H rm a b = _ at result
  have range : value true a * value true b = 2 ^ 126 ∨
      -2 ^ 126 + 2 ^ 63 ≤ value true a * value true b ∧
        value true a * value true b ≤ 2 ^ 126 - 2 ^ 63 :=
    product_range (M := 2 ^ 63) left right
  unfold expected overflows
  rw [result, exact_]
  generalize value true a * value true b = p at range ⊢
  by_cases square : p = 2 ^ 126
  · -- whatever is added, the square of the least number saturates
    subst square
    have beyond (r : Bool) : ¬InRange true 64 (2 ^ 126 / 2 ^ 63 + if r then 1 else 0) := by
      unfold InRange greatest
      cases r <;> simp
    have clipped (r : Bool) :
        clip true 64 (2 ^ 126 / 2 ^ 63 + if r then 1 else 0) = 2 ^ 63 - 1 := by
      cases r <;> rfl
    have suffices_ : MasksSuffice H (2 ^ 126) (modeOf rm) := by
      cases modeOf rm <;> simp [MasksSuffice]
    constructor
    · change (!decide (InRange true 64 _)) = !decide (InRange true 64 _)
      rw [decide_eq_false (beyond _), decide_eq_false (beyond _)]
    · change BitVec.ofInt 64 (clip true 64 _) = BitVec.ofInt 64 (clip true 64 _) ↔ _
      rw [clipped, clipped]
      exact iff_of_true rfl suffices_
  rw [← incrementOf_eq_iff H square]
  by_cases same : incrementOf H p (modeOf rm) = (modeOf rm).increment p 63
  · rw [same]
    exact ⟨rfl, iff_of_true rfl rfl⟩
  · have inside : -2 ^ 126 + 2 ^ 63 ≤ p ∧ p < 2 ^ 126 - 2 ^ 63 := by
      have edge : p ≠ 2 ^ 126 - 2 ^ 63 := fun edge =>
        same (edge ▸ incrementOf_greatest H (modeOf rm))
      omega
    have fits (r : Bool) : InRange true 64 (p / 2 ^ 63 + if r then 1 else 0) := by
      unfold InRange least greatest
      cases r <;> simp <;> omega
    have differ : ¬BitVec.ofInt 64 (p / 2 ^ 63 + if incrementOf H p (modeOf rm) then 1 else 0) =
        BitVec.ofInt 64 (p / 2 ^ 63 + if (modeOf rm).increment p 63 then 1 else 0) := by
      intro equal
      have numbers := ofInt_injective (fits _) (fits _) equal
      apply same
      cases first : incrementOf H p (modeOf rm) <;>
        cases second : (modeOf rm).increment p 63 <;> simp [first, second] at numbers ⊢
    constructor
    · change (!decide (InRange true 64 _)) = !decide (InRange true 64 _)
      rw [decide_eq_true (fits _), decide_eq_true (fits _)]
    · change BitVec.ofInt 64 (clip true 64 _) = BitVec.ofInt 64 (clip true 64 _) ↔ _
      rw [clip_of_inRange (fits _), clip_of_inRange (fits _)]
      exact iff_of_false differ same

theorem overflows_saturating {op : FixedOp} {m : Mode} {a : BitVec (op.sourceWidth n)}
    {b : BitVec n} (overflows : op.overflows m a b = true) : op.saturating = true :=
  (Bool.and_eq_true_iff.mp overflows).1

theorem overflows_vsadd_iff (m : Mode) (a b : BitVec n) :
    vsadd.overflows m a b = true ↔ ¬InRange true n (value true a + value true b) := by
  unfold overflows rounded
  simp only [exact, Library.FixedPoint.round_intCast]
  change (true && !decide (InRange true n _)) = true ↔ _
  rw [Bool.true_and, Bool.not_eq_true', decide_eq_false_iff_not]

end FixedOp

/-! ### Packed flags -/

theorem and_ones (v : BitVec xlen) {mask : BitVec xlen} (k : Nat)
    (ones : mask.toNat = 2 ^ k - 1) : v &&& mask = BitVec.ofNat xlen (v.toNat % 2 ^ k) := by
  apply BitVec.eq_of_toNat_eq
  have less : v.toNat % 2 ^ k < 2 ^ xlen := Nat.lt_of_le_of_lt (Nat.mod_le _ _) v.isLt
  rw [BitVec.toNat_and, ones, Nat.and_two_pow_sub_one_eq_mod, BitVec.toNat_ofNat,
    Nat.mod_eq_of_lt less]

section

variable (xlen_eq : xlen = 32 ∨ xlen = 64) {s : FixedState xlen}

include xlen_eq

theorem packed_setVxsat (before : s.Packed) {vxsat : BitVec xlen}
    (flag : vxsat = 0 ∨ vxsat = 1) : (s.setVxsat vxsat).Packed where
  flag := flag
  mode := before.mode
  packing := by
    have old := before.flag
    have mode := before.mode
    change s.vcsr &&& ~~~vxsatMask ||| vxsat = vxsat ||| s.vxrm <<< 1
    rw [before.packing]
    generalize s.vxsat = f at old ⊢
    generalize s.vxrm = m at mode ⊢
    rcases xlen_eq with rfl | rfl <;> rcases old with rfl | rfl <;>
      rcases mode with rfl | rfl | rfl | rfl <;> rcases flag with rfl | rfl <;> decide

theorem vxsat_setSat (before : s.Packed) (sat : Bool) :
    (s.setSat sat).vxsat = if s.vxsat = 1 ∨ sat = true then 1 else 0 := by
  have old := before.flag
  change s.vxsat ||| (if sat then 1 else 0) = _
  generalize s.vxsat = f at old ⊢
  rcases xlen_eq with rfl | rfl <;> rcases old with rfl | rfl <;> cases sat <;> decide

theorem packed_setSat (before : s.Packed) (sat : Bool) : (s.setSat sat).Packed := by
  apply packed_setVxsat xlen_eq before
  have number := vxsat_setSat xlen_eq before sat
  change s.vxsat ||| (if sat then 1 else 0) = _ at number
  rw [number]
  split
  · exact Or.inr rfl
  · exact Or.inl rfl

theorem packed_writeVxsat (before : s.Packed) (v : BitVec xlen) : (s.writeVxsat v).Packed := by
  apply packed_setVxsat xlen_eq before
  have one : (vxsatMask : BitVec xlen).toNat = 2 ^ 1 - 1 := by
    rcases xlen_eq with rfl | rfl <;> rfl
  rw [and_ones v 1 one]
  have less := Nat.mod_lt v.toNat (Nat.two_pow_pos 1)
  generalize v.toNat % 2 ^ 1 = k at less ⊢
  interval_cases k
  · exact Or.inl rfl
  · exact Or.inr rfl

theorem packed_writeVxrm (before : s.Packed) (v : BitVec xlen) : (s.writeVxrm v).Packed := by
  have ones : (vxrmMask : BitVec xlen).toNat = 2 ^ 2 - 1 := by
    rcases xlen_eq with rfl | rfl <;> rfl
  have flag := before.flag
  have mode := before.mode
  have packing := before.packing
  have less := Nat.mod_lt v.toNat (Nat.two_pow_pos 2)
  have written : s.writeVxrm v = ⟨s.vxsat, BitVec.ofNat xlen (v.toNat % 2 ^ 2),
      s.vcsr &&& ~~~vcsrVxrm ||| (BitVec.ofNat xlen (v.toNat % 2 ^ 2) &&& vxrmMask) <<< 1⟩ := by
    unfold writeVxrm
    rw [and_ones v 2 ones]
  rw [written, packing]
  generalize s.vxsat = f at flag ⊢
  generalize s.vxrm = m at mode ⊢
  generalize v.toNat % 2 ^ 2 = k at less ⊢
  constructor
  · exact flag
  · change BitVec.ofNat xlen k = 0 ∨ BitVec.ofNat xlen k = 1 ∨ BitVec.ofNat xlen k = 2 ∨
      BitVec.ofNat xlen k = 3
    rcases xlen_eq with rfl | rfl <;> interval_cases k <;> decide
  · rcases xlen_eq with rfl | rfl <;> rcases flag with rfl | rfl <;>
      rcases mode with rfl | rfl | rfl | rfl <;> interval_cases k <;> decide

theorem packed_writeVcsr (v : BitVec xlen) : (s.writeVcsr v).Packed := by
  have ones : (vcsrMask : BitVec xlen).toNat = 2 ^ 3 - 1 := by
    rcases xlen_eq with rfl | rfl <;> rfl
  have less := Nat.mod_lt v.toNat (Nat.two_pow_pos 3)
  unfold writeVcsr
  rw [and_ones v 3 ones]
  generalize v.toNat % 2 ^ 3 = k at less ⊢
  constructor
  · rcases xlen_eq with rfl | rfl <;> interval_cases k <;> decide
  · rcases xlen_eq with rfl | rfl <;> interval_cases k <;> decide
  · rcases xlen_eq with rfl | rfl <;> interval_cases k <;> decide

/-! ### The loop -/

theorem record_step (op : FixedOp) (before : s.Packed) (sat : Bool) :
    (op.record s sat).Packed ∧ (op.record s sat).vxrm = s.vxrm ∧
      ((op.record s sat).vxsat = 1 ↔ s.vxsat = 1 ∨ op.saturating = true ∧ sat = true) := by
  have one : (1 : BitVec xlen) ≠ 0 := by rcases xlen_eq with rfl | rfl <;> decide
  have raised (sat : Bool) : (s.setSat sat).vxsat = 1 ↔ s.vxsat = 1 ∨ sat = true := by
    rw [vxsat_setSat xlen_eq before]
    split
    next yes => exact iff_of_true rfl yes
    next no => exact iff_of_false one.symm no
  have set (sat : Bool) : (s.setSat sat).Packed ∧ (s.setSat sat).vxrm = s.vxrm ∧
      ((s.setSat sat).vxsat = 1 ↔ s.vxsat = 1 ∨ True ∧ sat = true) :=
    ⟨packed_setSat xlen_eq before sat, rfl, by rw [raised, true_and]⟩
  have kept (flag : Bool) (clear : flag = false) : s.Packed ∧ s.vxrm = s.vxrm ∧
      (s.vxsat = 1 ↔ s.vxsat = 1 ∨ flag = true ∧ sat = true) :=
    ⟨before, rfl, by simp [clear]⟩
  have clipped : (if sat then s.setSat true else s).Packed ∧
      (if sat then s.setSat true else s).vxrm = s.vxrm ∧
        ((if sat then s.setSat true else s).vxsat = 1 ↔ s.vxsat = 1 ∨ True ∧ sat = true) := by
    cases sat with
    | false => exact ⟨before, rfl, by simp⟩
    | true => exact set true
  cases op with
  | vssrl | vssra | vaaddu | vaadd | vasubu | vasub => exact kept false rfl
  | vnclipu | vnclip | vsmul => simpa only [FixedOp.record, FixedOp.saturating] using clipped
  | vsaddu | vsadd | vssubu | vssub =>
    simpa only [FixedOp.record, FixedOp.saturating] using set sat

structure Looped {op : FixedOp} (x : FixedOperands op n) (rm : BitVec 2) (elements : List Nat)
    (before after : FixedState xlen × (Nat → BitVec n)) : Prop where
  active : ∀ ei ∈ elements, after.2 ei = (op.outcome H rm (x.vs2 ei) (x.vs1 ei)).1
  others : ∀ ei, ei ∉ elements → after.2 ei = before.2 ei
  flag : after.1.vxsat = 1 ↔ before.1.vxsat = 1 ∨
    ∃ ei ∈ elements, op.saturating = true ∧ (op.outcome H rm (x.vs2 ei) (x.vs1 ei)).2 = true
  mode : after.1.vxrm = before.1.vxrm
  packed : after.1.Packed

theorem looped_foldl {op : FixedOp} (x : FixedOperands op n) (rm : BitVec 2)
    (elements : List Nat) (before : FixedState xlen × (Nat → BitVec n))
    (packed : before.1.Packed) :
    Looped H x rm elements before (elements.foldl (x.element H rm) before) := by
  induction elements generalizing before with
  | nil =>
    exact
      { active := fun ei member => nomatch member
        others := fun _ _ => rfl
        flag := by simp
        mode := rfl
        packed := packed }
  | cons first rest ih =>
    obtain ⟨kept, mode, flag⟩ := record_step xlen_eq op packed
      (op.outcome H rm (x.vs2 first) (x.vs1 first)).2
    have later := ih (x.element H rm before first) kept
    exact
      { active := by
          intro ei member
          by_cases again : ei ∈ rest
          · exact later.active ei again
          · have same : ei = first := (List.mem_cons.mp member).resolve_right again
            refine (later.others ei again).trans ?_
            rw [same]
            exact Function.update_self first _ before.2
        others := by
          intro ei absent
          rw [List.mem_cons, not_or] at absent
          refine (later.others ei absent.2).trans ?_
          exact Function.update_of_ne absent.1 _ before.2
        flag := by
          refine later.flag.trans ?_
          change ((op.record before.1 _).vxsat = 1 ∨ _) ↔ _
          rw [flag, or_assoc]
          simp
        mode := later.mode.trans mode
        packed := later.packed }

theorem follows_iff_elements {op : FixedOp} (x : FixedOperands op n) (packed : s.Packed)
    (vd : Nat → BitVec n) :
    x.Follows s vd (x.execute H s vd) ↔
      (∀ ei ∈ x.elements, (op.outcome H s.rm (x.vs2 ei) (x.vs1 ei)).1 =
          op.expected (modeOf s.rm) (x.vs2 ei) (x.vs1 ei)) ∧
        ((s.vxsat = 1 ∨ ∃ ei ∈ x.elements,
            op.saturating = true ∧ (op.outcome H s.rm (x.vs2 ei) (x.vs1 ei)).2 = true) ↔
          (s.vxsat = 1 ∨ ∃ ei ∈ x.elements,
            op.overflows (modeOf s.rm) (x.vs2 ei) (x.vs1 ei) = true)) := by
  have loop : Looped H x s.rm x.elements (s, vd) (x.execute H s vd) :=
    looped_foldl H xlen_eq x s.rm x.elements (s, vd) packed
  constructor
  · intro follows
    refine ⟨?_, loop.flag.symm.trans follows.flag⟩
    intro ei member
    exact (loop.active ei member).symm.trans (follows.active ei member)
  · rintro ⟨active, flag⟩
    exact
      { active := fun ei member => (loop.active ei member).trans (active ei member)
        others := loop.others
        flag := loop.flag.trans flag
        mode := loop.mode
        packed := loop.packed }

theorem vsadd_follows_iff (allowed : FixedOp.vsadd.Allowed n) (x : FixedOperands .vsadd n)
    (packed : s.Packed) (vd : Nat → BitVec n) :
    x.Follows s vd (x.execute H s vd) ↔ x.Exact H s := by
  have outside (ei : Nat) : FixedOp.vsadd.overflows (modeOf s.rm) (x.vs2 ei) (x.vs1 ei) = true ↔
        ¬InRange true n (value true (x.vs2 ei) + value true (x.vs1 ei)) :=
    FixedOp.overflows_vsadd_iff (modeOf s.rm) (x.vs2 ei) (x.vs1 ei)
  have flagged (ei : Nat) : (FixedOp.vsadd.outcome H s.rm (x.vs2 ei) (x.vs1 ei)).2 = true ↔
      ¬InRange true n (value true (x.vs2 ei) + value true (x.vs1 ei)) ∨
        ReachesLeast (x.vs2 ei) (x.vs1 ei) := by
    rw [FixedOp.outcome_vsadd H allowed s.rm (x.vs2 ei) (x.vs1 ei), Bool.or_eq_true,
      decide_eq_true_eq]
    exact or_congr_left (outside ei)
  have right (ei : Nat) : (FixedOp.vsadd.outcome H s.rm (x.vs2 ei) (x.vs1 ei)).1 =
      FixedOp.vsadd.expected (modeOf s.rm) (x.vs2 ei) (x.vs1 ei) := by
    rw [FixedOp.outcome_vsadd H allowed s.rm (x.vs2 ei) (x.vs1 ei)]
  have every : ∀ ei ∈ x.elements, (FixedOp.vsadd.outcome H s.rm (x.vs2 ei) (x.vs1 ei)).1 =
      FixedOp.vsadd.expected (modeOf s.rm) (x.vs2 ei) (x.vs1 ei) := fun ei _ => right ei
  rw [follows_iff_elements H xlen_eq x packed vd, and_iff_right every]
  simp only [flagged, outside]
  unfold FixedOperands.Exact
  constructor
  · intro same
    by_contra wrong
    rw [not_or, not_or, not_forall] at wrong
    obtain ⟨clear, none, ei, reaches⟩ := wrong
    obtain ⟨member, least⟩ := Classical.not_imp.mp reaches
    have raised := same.mp (Or.inr ⟨ei, member, rfl, Or.inr (not_not.mp least)⟩)
    exact raised.elim clear none
  · rintro (set | overflow | none)
    · exact iff_of_true (Or.inl set) (Or.inl set)
    · obtain ⟨ei, member, outside⟩ := overflow
      exact iff_of_true (Or.inr ⟨ei, member, rfl, Or.inl outside⟩) (Or.inr ⟨ei, member, outside⟩)
    · apply or_congr_right
      constructor
      · rintro ⟨ei, member, -, outside | reaches⟩
        · exact ⟨ei, member, outside⟩
        · exact absurd reaches (none ei member)
      · rintro ⟨ei, member, outside⟩
        exact ⟨ei, member, rfl, Or.inl outside⟩

theorem vsmul_follows_iff (x : FixedOperands .vsmul 64) (packed : s.Packed) (vd : Nat → BitVec 64) :
    x.Follows s vd (x.execute H s vd) ↔ x.Exact H s := by
  have element (ei : Nat) := FixedOp.outcome_vsmul H s.rm (x.vs2 ei) (x.vs1 ei)
  have flags : (s.vxsat = 1 ∨ ∃ ei ∈ x.elements, FixedOp.vsmul.saturating = true ∧
        (FixedOp.vsmul.outcome H s.rm (x.vs2 ei) (x.vs1 ei)).2 = true) ↔
      (s.vxsat = 1 ∨ ∃ ei ∈ x.elements,
        FixedOp.vsmul.overflows (modeOf s.rm) (x.vs2 ei) (x.vs1 ei) = true) := by
    simp [(element _).1, FixedOp.saturating]
  rw [follows_iff_elements H xlen_eq x packed vd, and_iff_left flags]
  simp only [(element _).2]
  unfold FixedOperands.Exact
  exact ⟨fun all _ => all, fun all => all rfl⟩

theorem follows_iff_exact {op : FixedOp} (allowed : op.Allowed n) (x : FixedOperands op n)
    (packed : s.Packed) (vd : Nat → BitVec n) :
    x.Follows s vd (x.execute H s vd) ↔ x.Exact H s := by
  by_cases sum : op = .vsadd
  · subst sum
    exact vsadd_follows_iff H xlen_eq allowed x packed vd
  by_cases product : op = .vsmul ∧ n = 64
  · obtain ⟨rfl, rfl⟩ := product
    exact vsmul_follows_iff H xlen_eq x packed vd
  have right (ei : Nat) := FixedOp.outcome_eq H allowed sum (fun same wide => product ⟨same, wide⟩)
    s.rm (x.vs2 ei) (x.vs1 ei)
  have exact_ : x.Exact H s := by
    cases op with
    | vsadd => exact absurd rfl sum
    | vsmul => exact fun wide => absurd ⟨rfl, wide⟩ product
    | vssrl | vssra | vnclipu | vnclip | vaaddu | vaadd | vasubu | vasub | vsaddu | vssubu
      | vssub => trivial
  rw [follows_iff_elements H xlen_eq x packed vd]
  simp only [right]
  refine iff_of_true ⟨fun _ _ => trivial, or_congr_right ?_⟩ exact_
  constructor
  · rintro ⟨ei, member, -, overflows⟩
    exact ⟨ei, member, overflows⟩
  · rintro ⟨ei, member, overflows⟩
    exact ⟨ei, member, FixedOp.overflows_saturating overflows, overflows⟩

/-! ### Runs -/

theorem FixedReached.packed (reached : FixedReached H s) : s.Packed := by
  induction reached with
  | reset =>
    constructor
    · exact Or.inl rfl
    · exact Or.inl rfl
    · rcases xlen_eq with rfl | rfl <;> decide
  | writeVxsat _ v ih => exact packed_writeVxsat xlen_eq ih v
  | writeVxrm _ v ih => exact packed_writeVxrm xlen_eq ih v
  | writeVcsr _ v _ => exact packed_writeVcsr xlen_eq v
  | @execute s _ _ op x vd ih =>
    exact (looped_foldl H xlen_eq x s.rm x.elements (s, vd) ih).packed

/-- In every state that a hart comes to, `vcsr` is packed, and a fixed-point instruction is
right exactly when its operands keep clear of the least sum and the masks suffice, whatever the
compiler makes of the over-wide shifts. -/
theorem fixedPoint_of_run (reached : FixedReached H s) :
    s.Packed ∧ ∀ {n : Nat} {op : FixedOp}, op.Allowed n →
      ∀ (x : FixedOperands op n) (vd : Nat → BitVec n),
        x.Follows s vd (x.execute H s vd) ↔ x.Exact H s := by
  have packed := reached.packed H xlen_eq
  refine ⟨packed, ?_⟩
  intro n op allowed x vd
  exact follows_iff_exact H xlen_eq allowed x packed vd

end

def single (op : FixedOp) (a : BitVec (op.sourceWidth n)) (b : BitVec n) : FixedOperands op n where
  vstart := 0
  vl := 1
  active := fun _ => true
  vs2 := fun _ => a
  vs1 := fun _ => b

/-- The count is taken modulo 32, as on x86 without optimization. -/
def shiftModulo : WideShift := fun k => 1 <<< (k % 32)

/-- The mean of 3 and 4 is rounded to the even number after `vcsr` is written. -/
theorem vaaddu_rounds_even : (single .vaaddu (3 : BitVec 8) 4).Follows
      ((⟨0, 0, 0⟩ : FixedState 64).writeVcsr 2) 0 ((single .vaaddu (3 : BitVec 8) 4).execute
        shiftModulo ((⟨0, 0, 0⟩ : FixedState 64).writeVcsr 2) 0) :=
  ((fixedPoint_of_run shiftModulo (Or.inr rfl) (FixedReached.writeVcsr FixedReached.reset 2)).2
    (Or.inl rfl) (single .vaaddu 3 4) 0).mpr trivial

/-- The sum of -100 and -28 is the least number of 8 bits, and raises the flag. -/
theorem vsadd_flags_exact_sum : FixedReached shiftModulo (⟨0, 0, 0⟩ : FixedState 64) ∧
      ¬(single .vsadd (-100 : BitVec 8) (-28)).Follows (⟨0, 0, 0⟩ : FixedState 64) 0
        ((single .vsadd (-100 : BitVec 8) (-28)).execute shiftModulo ⟨0, 0, 0⟩ 0) := by
  refine ⟨FixedReached.reset, ?_⟩
  intro follows
  have raised : ((single .vsadd (-100 : BitVec 8) (-28)).execute shiftModulo
      (⟨0, 0, 0⟩ : FixedState 64) 0).1.vxsat = 1 := by
    decide
  rcases follows.flag.mp raised with set | ⟨ei, member, overflows⟩
  · exact absurd set (by decide)
  · exact (FixedOp.overflows_vsadd_iff _ (-100 : BitVec 8) (-28)).mp overflows (by decide)

end Tlib.Riscv.Vector
