import Mathlib.Algebra.Group.Nat.Defs
import Mathlib.Tactic.SplitIfs

/-!
Contract: the folding of constants in the optimizer of the intermediate code.

Owns: `do_constant_folding` for both widths, the results of the operations, and that they agree.
Does not own: what takes the place of an operation, nor the classes of copies.

A 32-bit constant may be recorded extended by its sign, so that the count of a shift is taken from a
word that `Fits`; what the host gives for a shift by the whole width (rotations by 0 make one) is a
parameter.
-/

namespace Tlib.Tcg

open BitVec

/-! ### Folding -/

inductive Width where
  | i32
  | i64
  deriving DecidableEq

def Width.bits : Width → Nat
  | .i32 => 32
  | .i64 => 64

inductive Unary where
  | not | neg | ext8s | ext8u | ext16s | ext16u | ext32s | ext32u
  deriving DecidableEq

inductive Binary where
  | add | sub | mul | and | or | xor | shl | shr | sar | rotl | rotr | andc | orc | eqv | nand | nor
  deriving DecidableEq

/-- What the host's shifts give for a count that is not below the width. -/
structure Host where
  far (w : Nat) : BitVec w → Nat → BitVec w
  far_width (w : Nat) (x : BitVec w) : far w x w = x ∨ far w x w = 0#w

section Shifts

variable (H : Host) {w : Nat} (x : BitVec w) (count : Nat)

def cShl : BitVec w := if count < w then x <<< count else H.far w x count

def cShr : BitVec w := if count < w then x >>> count else H.far w x count

def cSar : BitVec w := if count < w then x.sshiftRight count else H.far w x count

end Shifts

/-- The cases with one operand. -/
def doConstantFolding1 (op : Unary) (x : BitVec 64) : BitVec 64 :=
  match op with
  | .not => ~~~x
  | .neg => -x
  | .ext8s => (x.setWidth 8).signExtend 64
  | .ext16s => (x.setWidth 16).signExtend 64
  | .ext8u => (x.setWidth 8).setWidth 64
  | .ext16u => (x.setWidth 16).setWidth 64
  | .ext32s => (x.setWidth 32).signExtend 64
  | .ext32u => (x.setWidth 32).setWidth 64

/-- The casts to `uint32_t` and `int32_t` are those to the width of the operation. -/
def doConstantFolding2 (H : Host) (w : Width) (op : Binary) (x y : BitVec 64) : BitVec 64 :=
  let short := x.setWidth w.bits
  let count := (y.setWidth w.bits).toNat
  let rest := (BitVec.ofNat 64 w.bits - y).toNat
  match op with
  | .add => x + y
  | .sub => x - y
  | .mul => x * y
  | .and => x &&& y
  | .or => x ||| y
  | .xor => x ^^^ y
  | .shl => (cShl H short count).setWidth 64
  | .shr => (cShr H short count).setWidth 64
  | .sar => (cSar H short count).signExtend 64
  | .rotr => (cShl H short rest ||| cShr H short y.toNat).setWidth 64
  | .rotl => (cShl H short y.toNat ||| cShr H short rest).setWidth 64
  | .andc => x &&& ~~~y
  | .orc => x ||| ~~~y
  | .eqv => ~~~(x ^^^ y)
  | .nand => ~~~(x &&& y)
  | .nor => ~~~(x ||| y)

/-- The result of a 32-bit operation is cut. -/
def cutTo (w : Width) (res : BitVec 64) : BitVec 64 :=
  match w with
  | .i32 => res &&& 0xffffffff#64
  | .i64 => res

def Binary.commutes (op : Binary) : Bool := op ∈ [.add, .mul, .and, .or, .xor, .eqv, .nand, .nor]

/-- The operations that a second operand of zero leaves alone. -/
def Binary.keepsFirst (op : Binary) : Bool := op ∈ [.add, .sub, .shl, .shr, .sar, .rotl, .rotr]

/-- Temps are numbered. -/
abbrev TCGArg := Nat

/-! ### Results -/

def Unary.eval {w : Nat} (op : Unary) (x : BitVec w) : BitVec w :=
  match op with
  | .not => ~~~x
  | .neg => -x
  | .ext8s => (x.setWidth 8).signExtend w
  | .ext8u => (x.setWidth 8).setWidth w
  | .ext16s => (x.setWidth 16).signExtend w
  | .ext16u => (x.setWidth 16).setWidth w
  | .ext32s => (x.setWidth 32).signExtend w
  | .ext32u => (x.setWidth 32).setWidth w

/-- Shifts and rotations by the width or more are undefined. -/
def Binary.eval {w : Nat} (op : Binary) (x y : BitVec w) : Option (BitVec w) :=
  let counted (res : BitVec w) := if y.toNat < w then some res else none
  match op with
  | .add => some (x + y)
  | .sub => some (x - y)
  | .mul => some (x * y)
  | .and => some (x &&& y)
  | .or => some (x ||| y)
  | .xor => some (x ^^^ y)
  | .shl => counted (x <<< y.toNat)
  | .shr => counted (x >>> y.toNat)
  | .sar => counted (x.sshiftRight y.toNat)
  | .rotl => counted (x.rotateLeft y.toNat)
  | .rotr => counted (x.rotateRight y.toNat)
  | .andc => some (x &&& ~~~y)
  | .orc => some (x ||| ~~~y)
  | .eqv => some (~~~(x ^^^ y))
  | .nand => some (~~~(x &&& y))
  | .nor => some (~~~(x ||| y))

theorem Binary.eval_comm {w : Nat} {op : Binary} (commutes : op.commutes) (x y : BitVec w) :
    op.eval x y = op.eval y x := by
  cases op <;> first
    | exact absurd commutes (by decide)
    | simp [eval, BitVec.add_comm, BitVec.mul_comm, BitVec.and_comm, BitVec.or_comm,
        BitVec.xor_comm]

theorem Binary.eval_zero {w : Nat} {op : Binary} (keeps : op.keepsFirst) (wide : 0 < w)
    (x : BitVec w) : op.eval x 0#w = some x := by
  cases op <;> first
    | exact absurd keeps (by decide)
    | simp [eval, wide, rotateLeft_def, rotateRight_def, ushiftRight_eq_zero]

theorem Binary.eval_self {w : Nat} {op : Binary} (either : op = .or ∨ op = .and)
    (x : BitVec w) : op.eval x x = some x := by
  rcases either with rfl | rfl <;> simp [eval]

/-- The constants that a temp may be set to: an `int32_t` is extended. -/
def Fits (w : Width) (val : TCGArg) : Prop :=
  val < 2 ^ w.bits ∨ w = .i32 ∧ 2 ^ 64 - 2 ^ 31 ≤ val ∧ val < 2 ^ 64

section Folding

variable (H : Host) {w : Width} (X Y : BitVec 64)

theorem toNat_cutTo : (cutTo w X).toNat = X.toNat % 2 ^ w.bits := by
  cases w with
  | i32 => exact (toNat_and ..).trans (Nat.and_two_pow_sub_one_eq_mod X.toNat 32)
  | i64 => exact (Nat.mod_eq_of_lt X.isLt).symm

theorem width_pos : 0 < w.bits := by cases w <;> decide

theorem bits_le : w.bits ≤ 64 := by cases w <;> decide

theorem setWidth_cutTo : (cutTo w X).setWidth w.bits = X.setWidth w.bits := by
  refine eq_of_toNat_eq ?_
  rw [toNat_setWidth, toNat_setWidth, toNat_cutTo, Nat.mod_mod]

theorem cutTo_eq : cutTo w X = (X.setWidth w.bits).setWidth 64 := by
  refine eq_of_toNat_eq ?_
  have less := Nat.mod_lt X.toNat (Nat.two_pow_pos w.bits)
  have le : 2 ^ w.bits ≤ 2 ^ 64 := Nat.pow_le_pow_right (by decide) bits_le
  rw [toNat_cutTo, toNat_setWidth, toNat_setWidth,
    Nat.mod_eq_of_lt (Nat.lt_of_lt_of_le less le)]

theorem setWidth_signExtend {v w : Nat} (x : BitVec v) (le : w ≤ 64) :
    (x.signExtend 64).setWidth w = x.signExtend w := by
  refine eq_of_getLsbD_eq fun i inside => ?_
  simp only [getLsbD_setWidth, getLsbD_signExtend, inside]
  simp [show i < 64 by omega]

theorem setWidth_doConstantFolding1 (op : Unary) :
    (doConstantFolding1 op X).setWidth w.bits = op.eval (X.setWidth w.bits) := by
  have le : w.bits ≤ 64 := bits_le
  have narrow {v : Nat} (small : v ≤ 32) : X.setWidth v = (X.setWidth w.bits).setWidth v := by
    have ge : 32 ≤ w.bits := by cases w <;> decide
    rw [setWidth_setWidth_of_le X (by omega)]
  cases op with
  | not => exact setWidth_not le
  | neg => exact setWidth_neg_of_le le
  | ext8s | ext16s | ext32s =>
    exact (setWidth_signExtend _ le).trans (congrArg _ (narrow (by decide)))
  | ext8u | ext16u | ext32u =>
    exact (setWidth_setWidth_of_le _ le).trans (congrArg _ (narrow (by decide)))

theorem toNat_count (fits : Fits w Y.toNat) (small : (Y.setWidth w.bits).toNat < w.bits) :
    Y.toNat = (Y.setWidth w.bits).toNat := by
  rw [toNat_setWidth] at small ⊢
  rcases fits with below | ⟨rfl, above, -⟩
  · exact (Nat.mod_eq_of_lt below).symm
  · change 18446744071562067968 ≤ Y.toNat at above
    change Y.toNat % 4294967296 < 32 at small
    omega

/-- The shift by the rest of the width, also when the rest is the width. -/
theorem rotate_eq (x : BitVec w.bits) {count : Nat} (small : count < w.bits) :
    cShl H x count ||| cShr H x (w.bits - count) = x.rotateLeft count ∧
      cShl H x (w.bits - count) ||| cShr H x count = x.rotateRight count := by
  rw [rotateLeft_def, rotateRight_def, Nat.mod_eq_of_lt small]
  unfold cShl cShr
  rw [if_pos small, if_pos small]
  rcases Nat.eq_zero_or_pos count with rfl | pos
  · rcases H.far_width w.bits x with far | far <;> simp [far, ushiftRight_eq_zero]
  · rw [if_pos (by omega), if_pos (by omega)]
    exact ⟨rfl, BitVec.or_comm ..⟩

theorem setWidth_doConstantFolding2 (op : Binary) (fits : Fits w Y.toNat) {r : BitVec w.bits}
    (defined : op.eval (X.setWidth w.bits) (Y.setWidth w.bits) = some r) :
    (doConstantFolding2 H w op X Y).setWidth w.bits = r := by
  have le : w.bits ≤ 64 := bits_le
  have whole (x : BitVec w.bits) : (x.setWidth 64).setWidth w.bits = x :=
    (setWidth_setWidth_of_le x le).trans (setWidth_eq x)
  cases op <;> simp only [Binary.eval] at defined
  case shl | shr | sar | rotl | rotr =>
    obtain ⟨small, defined⟩ := Option.ite_none_right_eq_some.mp defined
    have count := toNat_count Y fits small
    have rest : (BitVec.ofNat 64 w.bits - Y).toNat = w.bits - (Y.setWidth w.bits).toNat := by
      rw [toNat_sub, count, toNat_ofNat]
      omega
    have both := rotate_eq H (X.setWidth w.bits) small
    rw [← Option.some.inj defined]
    simp only [doConstantFolding2, rest, count]
    first
      | exact (whole _).trans both.1
      | exact (whole _).trans both.2
      | exact (whole _).trans (if_pos small)
      | exact (setWidth_signExtend _ le).trans ((signExtend_eq _).trans (if_pos small))
  all_goals obtain rfl := Option.some.inj defined
  case sub =>
    simp only [doConstantFolding2, BitVec.sub_eq_add_neg, setWidth_add _ _ le,
      setWidth_neg_of_le le]
  all_goals simp [doConstantFolding2, setWidth_add, setWidth_mul, setWidth_not, le]

end Folding

/-! ### Agreement -/

/-- The constant that is recorded for a folded operation is its result, extended by zeros. -/
theorem doConstantFolding_agrees (H : Host) {w : Width} (X Y : BitVec 64)
    (fits : Fits w Y.toNat) :
    (∀ op : Unary, cutTo w (doConstantFolding1 op X) =
      (op.eval (X.setWidth w.bits)).setWidth 64) ∧
    ∀ (op : Binary) (r : BitVec w.bits),
      op.eval (X.setWidth w.bits) (Y.setWidth w.bits) = some r →
        cutTo w (doConstantFolding2 H w op X Y) = r.setWidth 64 := by
  refine ⟨fun op => ?_, fun op r defined => ?_⟩
  · rw [cutTo_eq, setWidth_doConstantFolding1]
  · rw [cutTo_eq, setWidth_doConstantFolding2 H X Y op fits defined]

/-- The host masks the count of a shift by the width. -/
def maskingHost : Host := ⟨fun w x count => x <<< (count % w), fun w x => by simp⟩

/-- A constant of 32 bits that is recorded with its sign extended, and a count of 4. -/
theorem doConstantFolding_agrees_sample :
    (∀ op : Unary, cutTo .i32 (doConstantFolding1 op 0xffffffff80000000) =
      (op.eval ((0xffffffff80000000 : BitVec 64).setWidth Width.i32.bits)).setWidth 64) ∧
    ∀ (op : Binary) (r : BitVec Width.i32.bits),
      op.eval ((0xffffffff80000000 : BitVec 64).setWidth Width.i32.bits)
          ((4 : BitVec 64).setWidth Width.i32.bits) = some r →
        cutTo .i32 (doConstantFolding2 maskingHost .i32 op 0xffffffff80000000 4) = r.setWidth 64 :=
  doConstantFolding_agrees maskingHost (w := .i32) 0xffffffff80000000 4 (.inl (by decide))

end Tlib.Tcg
