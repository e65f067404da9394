import Tlib.Library.BinaryFloats

/-!
Contract: the vector unit of a RISC-V hart and its configuration.

Owns: the registers of the unit, `helper_vsetvl`, and the configuration that the vector extension
asks for.
-/

namespace Tlib.Riscv.Vector

open Tlib.Library.BinaryFloats

variable {xlen : Nat}

structure VectorUnit (xlen : Nat) where
  (elen vlenb vl vtype vstart vlmax vsew : BitVec xlen)
  vlmul : BitVec 3
  vflmul : ℚ
  (vill vta vma : Bool)
  /-- The bytes of the vector registers, one register behind the other. -/
  vr : Nat → BitVec 8

def getVtypeVlmul (vtype : BitVec xlen) : BitVec 3 := vtype.extractLsb' 0 3

def getVtypeVsew (vtype : BitVec xlen) : BitVec 3 := vtype.extractLsb' 3 3

def getVtypeVta (vtype : BitVec xlen) : Bool := vtype.getLsbD 6

def getVtypeVma (vtype : BitVec xlen) : Bool := vtype.getLsbD 7

/-- A number in single precision. -/
def toFloat (x : ℚ) : ℚ := nearest 24 x

/-- `LMUL`, as `env->vflmul` is computed. -/
def flmul (vlmul : BitVec 3) : ℚ :=
  if 0 ≤ vlmul.toInt then toFloat (2 ^ vlmul.toInt.toNat)
  else toFloat (nearest 53 (1 / 2 ^ (-vlmul.toInt).toNat))

/-- `vill`, as it follows from `vtype`. -/
def isVill (u : VectorUnit xlen) (newVtypeValue vsew : BitVec xlen) (vflmul : ℚ) : Bool :=
  !(decide (1 / 8 ≤ vflmul) && decide (vflmul ≤ 8)) ||
    decide (toFloat (toFloat (min vflmul 1) * toFloat u.elen.toNat) < toFloat vsew.toNat) ||
    decide (newVtypeValue >>> 8 ≠ 0)

/-- `MIN` -/
def minOf (a b : BitVec xlen) : BitVec xlen := if a < b then a else b

/-- `vl`; `isRs1Imm` tells `vsetivli`, whose AVL is the number of `rs1`. -/
def newVl (u : VectorUnit xlen) (rd rs1 rs1Value vlmax : BitVec xlen) (isRs1Imm : Bool) :
    BitVec xlen :=
  if isRs1Imm then minOf rs1Value vlmax
  else if vlmax = 0 then 0
  else if rd = 0 ∧ rs1 = 0 then minOf u.vl vlmax
  else if rs1 = 0 ∧ rd ≠ 0 then vlmax
  else minOf rs1Value vlmax

def helperVsetvl (u : VectorUnit xlen) (rd rs1 rs1Value newVtypeValue : BitVec xlen)
    (isRs1Imm : Bool) : VectorUnit xlen :=
  let vlen := u.vlenb * 8
  let vsew := (1 : BitVec xlen) <<< ((getVtypeVsew newVtypeValue).toNat + 3)
  let vlmul := getVtypeVlmul newVtypeValue
  let vflmul := flmul vlmul
  let vill := isVill u newVtypeValue vsew vflmul
  let vlmax : BitVec xlen :=
    if vill then 0
    else BitVec.ofNat xlen ⌊toFloat (toFloat (vlen / vsew).toNat * vflmul)⌋₊
  { u with
    vtype := if vill then newVtypeValue ||| (1 : BitVec xlen) <<< (xlen - 1) else newVtypeValue
    vsew := vsew
    vlmul := vlmul
    vflmul := vflmul
    vlmax := vlmax
    vta := getVtypeVta newVtypeValue
    vma := getVtypeVma newVtypeValue
    vill := vill
    vl := newVl u rd rs1 rs1Value vlmax isRs1Imm
    vstart := 0 }

def isPowerOf2 (val : BitVec 32) : Bool := (val - 1) &&& val = 0

def vlenMax : BitVec 32 := 0x10000

/-- `none` stands for a refused value. -/
def tlibSetVlen (u : VectorUnit xlen) (vlen : BitVec 32) : Option (VectorUnit xlen) :=
  if !isPowerOf2 vlen || vlenMax < vlen || vlen.setWidth xlen < u.elen then none
  else some { u with vlenb := (vlen / 8).setWidth xlen }

def tlibSetElen (u : VectorUnit xlen) (elen : BitVec 32) : Option (VectorUnit xlen) :=
  if !isPowerOf2 elen || elen < 8 || 64 < elen || u.vlenb <<< 3 < elen.setWidth xlen then none
  else some { u with elen := elen.setWidth xlen }

/-- The values of `VLEN` and `ELEN` that a hart comes to have, whatever else it does. -/
inductive Configured : VectorUnit xlen → Prop where
  | reset {u : VectorUnit xlen} (vlenb : u.vlenb = 64) (elen : u.elen = 64) : Configured u
  | setVlen {u u' : VectorUnit xlen} {vlen : BitVec 32} (before : Configured u)
      (accepted : tlibSetVlen u vlen = some u') : Configured u'
  | setElen {u u' : VectorUnit xlen} {elen : BitVec 32} (before : Configured u)
      (accepted : tlibSetElen u elen = some u') : Configured u'
  | other {u u' : VectorUnit xlen} (before : Configured u) (vlenb : u'.vlenb = u.vlenb)
      (elen : u'.elen = u.elen) : Configured u'

/-- `SEW` in bits. -/
def sewOf (vtype : BitVec xlen) : Nat := 2 ^ ((getVtypeVsew vtype).toNat + 3)

def lmulOf (vtype : BitVec xlen) : ℚ := 2 ^ (getVtypeVlmul vtype).toInt

def VectorUnit.vlen (u : VectorUnit xlen) : Nat := u.vlenb.toNat * 8

/-- The reserved `LMUL`, a `SEW` that is too wide, or a reserved bit. -/
def Unsupported (u : VectorUnit xlen) (vtype : BitVec xlen) : Prop :=
  getVtypeVlmul vtype = 4 ∨ min (lmulOf vtype) 1 * u.elen.toNat < sewOf vtype ∨
    ∃ i, 8 ≤ i ∧ vtype.getLsbD i = true

/-- The number of elements of a register group. -/
def vlmaxOf (u : VectorUnit xlen) (vtype : BitVec xlen) : Nat :=
  ⌊u.vlen * lmulOf vtype / sewOf vtype⌋₊

/-- Where the application vector length comes from. -/
inductive Avl (xlen : Nat) where
  | given (avl : BitVec xlen)
  | largest
  | keep
  deriving DecidableEq, Repr

def avlOf (rd rs1 rs1Value : BitVec xlen) (isRs1Imm : Bool) : Avl xlen :=
  if isRs1Imm ∨ rs1 ≠ 0 then .given rs1Value else if rd ≠ 0 then .largest else .keep

def Avl.vl (u : VectorUnit xlen) (vlmax : Nat) : Avl xlen → Nat
  | .given avl => min avl.toNat vlmax
  | .largest => vlmax
  | .keep => min u.vl.toNat vlmax

/-- The configuration `u'` is the one that is asked for. -/
structure Follows (u : VectorUnit xlen) (vtype : BitVec xlen) (avl : Avl xlen)
    (u' : VectorUnit xlen) : Prop where
  vill : u'.vill = true ↔ Unsupported u vtype
  vlmax : ¬Unsupported u vtype → u'.vlmax.toNat = vlmaxOf u vtype
  vl : ¬Unsupported u vtype → u'.vl.toNat = avl.vl u (vlmaxOf u vtype)
  noVl : Unsupported u vtype → u'.vl = 0
  requested : ¬Unsupported u vtype → u'.vtype = vtype
  onlyVill : Unsupported u vtype → u'.vtype = (1 : BitVec xlen) <<< (xlen - 1)
  vstart : u'.vstart = 0
  fits : (u'.vl.toNat * sewOf vtype : ℚ) ≤ lmulOf vtype * u.vlen

theorem toFloat_two_zpow (e : ℤ) : toFloat (2 ^ e) = 2 ^ e := by
  have representable : Representable 24 ((1 : ℕ) * 2 ^ e) := representable_mul_zpow (by decide) e
  rw [Nat.cast_one, one_mul] at representable
  exact nearest_of_representable representable

theorem flmul_eq (vlmul : BitVec 3) : flmul vlmul = 2 ^ vlmul.toInt := by
  unfold flmul
  split
  next up =>
    rw [← zpow_natCast, Int.toNat_of_nonneg up, toFloat_two_zpow]
  next down =>
    have quotient : (1 / 2 ^ (-vlmul.toInt).toNat : ℚ) = 2 ^ vlmul.toInt := by
      rw [← zpow_natCast, Int.toNat_of_nonneg (by omega), zpow_neg, one_div, inv_inv]
    have representable : Representable 53 ((1 : ℕ) * 2 ^ vlmul.toInt) :=
      representable_mul_zpow (by decide) _
    rw [Nat.cast_one, one_mul] at representable
    rw [quotient, nearest_of_representable representable, toFloat_two_zpow]

/-- `VLEN` and `ELEN` are powers of two in the ranges that the code accepts. -/
structure Sizes (u : VectorUnit xlen) (vlenLog elenLog : Nat) : Prop where
  vlen : u.vlen = 2 ^ vlenLog
  elen : u.elen.toNat = 2 ^ elenLog
  least : 3 ≤ elenLog
  most : elenLog ≤ 6
  order : elenLog ≤ vlenLog
  bound : vlenLog ≤ 16

theorem exists_log_of_isPowerOf2 {val : BitVec 32} (power : isPowerOf2 val = true)
    (positive : 0 < val.toNat) : ∃ k, val.toNat = 2 ^ k := by
  unfold isPowerOf2 at power
  rw [decide_eq_true_eq] at power
  have bits := congrArg BitVec.toNat power
  rw [BitVec.toNat_and, BitVec.toNat_sub_of_le (by rw [BitVec.le_def]; exact positive), Nat.and_comm]
    at bits
  exact (Nat.and_sub_one_eq_zero_iff_isPowerOfTwo (by omega)).mp bits

theorem le_of_two_pow_le {a b : Nat} (le : 2 ^ a ≤ 2 ^ b) : a ≤ b :=
  (Nat.pow_le_pow_iff_right (by decide)).mp le

theorem two_pow_width (xlen_eq : xlen = 32 ∨ xlen = 64) : 2 ^ 32 ≤ 2 ^ xlen := by
  rcases xlen_eq with rfl | rfl <;> decide

theorem toNat_setWidth_word (xlen_eq : xlen = 32 ∨ xlen = 64) (word : BitVec 32) :
    (word.setWidth xlen).toNat = word.toNat := by
  have wide := two_pow_width xlen_eq
  rw [BitVec.toNat_setWidth, Nat.mod_eq_of_lt (by omega)]

theorem sizes_of_configured (xlen_eq : xlen = 32 ∨ xlen = 64) {u : VectorUnit xlen}
    (configured : Configured u) : ∃ vlenLog elenLog, Sizes u vlenLog elenLog := by
  have wide := two_pow_width xlen_eq
  induction configured with
  | @reset u vlenb elen =>
    refine ⟨9, 6, ?_, ?_, by decide, by decide, by decide, by decide⟩
    · unfold VectorUnit.vlen
      rw [vlenb]
      rcases xlen_eq with rfl | rfl <;> rfl
    · rw [elen]
      rcases xlen_eq with rfl | rfl <;> rfl
  | @setVlen u u' vlen before accepted ih =>
    obtain ⟨vlenLog, elenLog, sizes⟩ := ih
    unfold tlibSetVlen at accepted
    split at accepted
    · cases accepted
    next inRange =>
      cases accepted
      simp only [Bool.or_eq_true, Bool.not_eq_true', decide_eq_true_eq, not_or, BitVec.not_lt,
        Bool.not_eq_false, BitVec.le_def] at inRange
      obtain ⟨⟨power, most⟩, least⟩ := inRange
      rw [toNat_setWidth_word xlen_eq, sizes.elen] at least
      have positive : 0 < vlen.toNat := Nat.lt_of_lt_of_le (Nat.two_pow_pos _) least
      obtain ⟨k, size⟩ := exists_log_of_isPowerOf2 power positive
      rw [size] at least most
      have order := le_of_two_pow_le least
      have eighth : 2 ^ k = 2 ^ (k - 3) * 8 := by
        rw [show (8 : Nat) = 2 ^ 3 from rfl, ← Nat.pow_add]
        congr 1
        have := sizes.least
        omega
      refine ⟨k, elenLog, ?_, sizes.elen, sizes.least, sizes.most, order, le_of_two_pow_le most⟩
      unfold VectorUnit.vlen
      rw [toNat_setWidth_word xlen_eq, BitVec.toNat_udiv, size, eighth]
      exact congrArg (· * 8) (Nat.mul_div_cancel _ (by decide))
  | @setElen u u' elen before accepted ih =>
    obtain ⟨vlenLog, elenLog, sizes⟩ := ih
    unfold tlibSetElen at accepted
    split at accepted
    · cases accepted
    next inRange =>
      cases accepted
      simp only [Bool.or_eq_true, Bool.not_eq_true', decide_eq_true_eq, not_or, BitVec.not_lt,
        Bool.not_eq_false, BitVec.le_def] at inRange
      obtain ⟨⟨⟨power, least⟩, most⟩, order⟩ := inRange
      have vlen : (u.vlenb <<< 3).toNat = 2 ^ vlenLog := by
        have small : 2 ^ vlenLog ≤ 2 ^ 16 := Nat.pow_le_pow_right (by decide) sizes.bound
        have bytes : u.vlenb.toNat * 8 = 2 ^ vlenLog := sizes.vlen
        rw [BitVec.toNat_shiftLeft, Nat.shiftLeft_eq, bytes, Nat.mod_eq_of_lt (by omega)]
      rw [toNat_setWidth_word xlen_eq, vlen] at order
      have positive : 0 < elen.toNat := Nat.lt_of_lt_of_le (by decide) least
      obtain ⟨k, size⟩ := exists_log_of_isPowerOf2 power positive
      rw [size] at least most order
      refine ⟨vlenLog, k, sizes.vlen, ?_, le_of_two_pow_le least, le_of_two_pow_le most,
        le_of_two_pow_le order, sizes.bound⟩
      exact (toNat_setWidth_word xlen_eq elen).trans size
  | @other u u' before vlenb elen ih =>
    obtain ⟨vlenLog, elenLog, sizes⟩ := ih
    refine ⟨vlenLog, elenLog, ?_, by rw [elen]; exact sizes.elen, sizes.least, sizes.most,
      sizes.order, sizes.bound⟩
    have bytes := sizes.vlen
    unfold VectorUnit.vlen at bytes ⊢
    rw [vlenb]
    exact bytes

variable {u : VectorUnit xlen} {vlenLog elenLog : Nat}

/-- The exponent of `LMUL`. -/
def lmulLog (vtype : BitVec xlen) : Int := (getVtypeVlmul vtype).toInt

theorem lmulLog_range (vtype : BitVec xlen) : -4 ≤ lmulLog vtype ∧ lmulLog vtype ≤ 3 := by
  unfold lmulLog
  generalize getVtypeVlmul vtype = vlmul
  revert vlmul
  decide

theorem reserved_iff (vtype : BitVec xlen) : getVtypeVlmul vtype = 4 ↔ lmulLog vtype < -3 := by
  unfold lmulLog
  generalize getVtypeVlmul vtype = vlmul
  revert vlmul
  decide

/-- The exponent of `SEW`. -/
def sewLog (vtype : BitVec xlen) : Nat := (getVtypeVsew vtype).toNat + 3

theorem sewLog_le (vtype : BitVec xlen) : sewLog vtype ≤ 10 := by
  unfold sewLog
  omega

theorem toNat_vsew (xlen_eq : xlen = 32 ∨ xlen = 64) (vtype : BitVec xlen) :
    ((1 : BitVec xlen) <<< sewLog vtype).toNat = 2 ^ sewLog vtype := by
  have wide := two_pow_width xlen_eq
  have small : 2 ^ sewLog vtype ≤ 2 ^ 10 := Nat.pow_le_pow_right (by decide) (sewLog_le vtype)
  have one : (1 : BitVec xlen).toNat = 1 := by
    rcases xlen_eq with rfl | rfl <;> rfl
  rw [BitVec.toNat_shiftLeft, one, Nat.shiftLeft_eq, Nat.one_mul, Nat.mod_eq_of_lt (by omega)]

theorem cast_two_pow (n : Nat) : ((2 ^ n : Nat) : ℚ) = 2 ^ (n : ℤ) := by
  rw [Nat.cast_pow, Nat.cast_ofNat, zpow_natCast]

theorem min_two_zpow_one (e : ℤ) : min ((2 : ℚ) ^ e) 1 = 2 ^ min e 0 := by
  have base : (1 : ℚ) < 2 := by norm_num
  rcases le_total e 0 with down | up
  · rw [min_eq_left down, min_eq_left (zpow_le_one_of_nonpos₀ base.le down)]
  · rw [min_eq_right up, zpow_zero, min_eq_right (one_le_zpow₀ base.le up)]

theorem narrow_iff (sizes : Sizes u vlenLog elenLog) (vtype : BitVec xlen) :
    min (lmulOf vtype) 1 * u.elen.toNat < sewOf vtype ↔
      min (lmulLog vtype) 0 + elenLog < sewLog vtype := by
  have base : (1 : ℚ) < 2 := by norm_num
  have two : (2 : ℚ) ≠ 0 := by norm_num
  unfold lmulOf sewOf
  rw [min_two_zpow_one, sizes.elen, cast_two_pow, cast_two_pow, ← zpow_add₀ two,
    zpow_lt_zpow_iff_right₀ base]
  rfl

theorem shifted_ne_zero_iff (vtype : BitVec xlen) :
    vtype >>> 8 ≠ 0 ↔ ∃ i, 8 ≤ i ∧ vtype.getLsbD i = true := by
  constructor
  · intro nonzero
    by_contra none_
    refine nonzero (BitVec.eq_of_getLsbD_eq fun i less => ?_)
    by_contra set
    exact none_ ⟨8 + i, by omega, by simpa using set⟩
  · rintro ⟨i, above, set⟩ zero
    have bit := congrArg (BitVec.getLsbD · (i - 8)) zero
    simp only [BitVec.getLsbD_ushiftRight, BitVec.ofNat_eq_ofNat, BitVec.getLsbD_zero] at bit
    rw [show 8 + (i - 8) = i by omega, set] at bit
    cases bit

theorem isVill_iff (xlen_eq : xlen = 32 ∨ xlen = 64) (sizes : Sizes u vlenLog elenLog)
    (vtype : BitVec xlen) :
    isVill u vtype ((1 : BitVec xlen) <<< sewLog vtype) (flmul (getVtypeVlmul vtype)) = true ↔
      Unsupported u vtype := by
  have base : (1 : ℚ) < 2 := by norm_num
  have two : (2 : ℚ) ≠ 0 := by norm_num
  have range := lmulLog_range vtype
  have eighth : (1 / 8 : ℚ) = 2 ^ (-3 : ℤ) := by norm_num
  have eight : (8 : ℚ) = 2 ^ (3 : ℤ) := by norm_num
  have exponent : (getVtypeVlmul vtype).toInt = lmulLog vtype := rfl
  have notReserved : (decide ((2 : ℚ) ^ (-3 : ℤ) ≤ 2 ^ lmulLog vtype) &&
      decide ((2 : ℚ) ^ lmulLog vtype ≤ 2 ^ (3 : ℤ))) = decide (-3 ≤ lmulLog vtype) := by
    rw [Bool.eq_iff_iff, Bool.and_eq_true, decide_eq_true_eq, decide_eq_true_eq,
      decide_eq_true_eq, zpow_le_zpow_iff_right₀ base, zpow_le_zpow_iff_right₀ base]
    omega
  unfold isVill Unsupported
  rw [narrow_iff sizes, reserved_iff, flmul_eq, toNat_vsew xlen_eq, sizes.elen, exponent,
    min_two_zpow_one, cast_two_pow, cast_two_pow, toFloat_two_zpow, toFloat_two_zpow,
    ← zpow_add₀ two, toFloat_two_zpow, toFloat_two_zpow, eighth, eight, notReserved,
    ← shifted_ne_zero_iff, Bool.or_eq_true, Bool.or_eq_true, Bool.not_eq_true',
    decide_eq_false_iff_not, decide_eq_true_eq, decide_eq_true_eq, not_le, or_assoc,
    zpow_lt_zpow_iff_right₀ base]

/-- The exponent of `VLMAX`. -/
def vlmaxLog (vlenLog : Nat) (vtype : BitVec xlen) : Nat :=
  (vlenLog - sewLog vtype + lmulLog vtype : ℤ).toNat

/-- A supported `SEW` fits into a register group. -/
structure Fitting (vlenLog : Nat) (vtype : BitVec xlen) : Prop where
  sew : sewLog vtype ≤ vlenLog
  group : 0 ≤ (vlenLog - sewLog vtype + lmulLog vtype : ℤ)

theorem fitting_of_supported (sizes : Sizes u vlenLog elenLog) {vtype : BitVec xlen}
    (supported : ¬Unsupported u vtype) : Fitting vlenLog vtype := by
  have fits : ¬min (lmulLog vtype) 0 + elenLog < sewLog vtype :=
    fun narrow => supported (Or.inr (Or.inl ((narrow_iff sizes vtype).mpr narrow)))
  have order := sizes.order
  constructor <;> omega

theorem vlmaxOf_eq (sizes : Sizes u vlenLog elenLog) {vtype : BitVec xlen}
    (fitting : Fitting vlenLog vtype) : vlmaxOf u vtype = 2 ^ vlmaxLog vlenLog vtype := by
  have two : (2 : ℚ) ≠ 0 := by norm_num
  have quotient : (u.vlen * lmulOf vtype / sewOf vtype : ℚ) =
      ((2 ^ vlmaxLog vlenLog vtype : Nat) : ℚ) := by
    rw [sizes.vlen]
    unfold lmulOf sewOf
    rw [cast_two_pow, cast_two_pow, cast_two_pow, ← zpow_add₀ two, ← zpow_sub₀ two]
    congr 1
    unfold vlmaxLog
    rw [Int.toNat_of_nonneg fitting.group]
    unfold sewLog lmulLog
    omega
  unfold vlmaxOf
  rw [quotient, Nat.floor_natCast]

theorem vlmax_lt (xlen_eq : xlen = 32 ∨ xlen = 64) (sizes : Sizes u vlenLog elenLog)
    (vtype : BitVec xlen) : 2 ^ vlmaxLog vlenLog vtype < 2 ^ xlen := by
  have wide := two_pow_width xlen_eq
  have range := lmulLog_range vtype
  have bound := sizes.bound
  have small : vlmaxLog vlenLog vtype ≤ 19 := by
    unfold vlmaxLog
    omega
  have pow : 2 ^ vlmaxLog vlenLog vtype ≤ 2 ^ 19 := Nat.pow_le_pow_right (by decide) small
  omega

theorem toNat_vlmax (xlen_eq : xlen = 32 ∨ xlen = 64) (sizes : Sizes u vlenLog elenLog)
    {vtype : BitVec xlen} (fitting : Fitting vlenLog vtype) :
    (BitVec.ofNat xlen ⌊toFloat (toFloat (u.vlenb * 8 / ((1 : BitVec xlen) <<< sewLog vtype)).toNat *
      flmul (getVtypeVlmul vtype))⌋₊).toNat = vlmaxOf u vtype := by
  have wide := two_pow_width xlen_eq
  have two : (2 : ℚ) ≠ 0 := by norm_num
  have eight : (8 : BitVec xlen).toNat = 8 := by
    rcases xlen_eq with rfl | rfl <;> rfl
  have small : 2 ^ vlenLog ≤ 2 ^ 16 := Nat.pow_le_pow_right (by decide) sizes.bound
  have vlen : (u.vlenb * 8).toNat = 2 ^ vlenLog := by
    have bits : u.vlenb.toNat * 8 = 2 ^ vlenLog := sizes.vlen
    rw [BitVec.toNat_mul, eight, bits, Nat.mod_eq_of_lt (by omega)]
  have exponent : (getVtypeVlmul vtype).toInt = lmulLog vtype := rfl
  rw [BitVec.toNat_udiv, vlen, toNat_vsew xlen_eq, Nat.pow_div fitting.sew (by decide),
    cast_two_pow, toFloat_two_zpow, flmul_eq, exponent, ← zpow_add₀ two, toFloat_two_zpow,
    Nat.cast_sub fitting.sew, ← Int.toNat_of_nonneg fitting.group, ← cast_two_pow,
    Nat.floor_natCast, BitVec.toNat_ofNat]
  rw [vlmaxOf_eq sizes fitting]
  exact Nat.mod_eq_of_lt (vlmax_lt xlen_eq sizes vtype)

theorem toNat_minOf (a b : BitVec xlen) : (minOf a b).toNat = min a.toNat b.toNat := by
  unfold minOf
  split
  next less => rw [Nat.min_eq_left (Nat.le_of_lt less)]
  next notLess => rw [Nat.min_eq_right (Nat.le_of_not_lt notLess)]

theorem Avl.vl_le (u : VectorUnit xlen) (vlmax : Nat) (avl : Avl xlen) : avl.vl u vlmax ≤ vlmax := by
  cases avl with
  | given avl => exact Nat.min_le_right _ _
  | largest => exact Nat.le_refl _
  | keep => exact Nat.min_le_right _ _

theorem toNat_newVl (u : VectorUnit xlen) (rd rs1 rs1Value vlmax : BitVec xlen)
    (isRs1Imm : Bool) :
    (newVl u rd rs1 rs1Value vlmax isRs1Imm).toNat =
      (avlOf rd rs1 rs1Value isRs1Imm).vl u vlmax.toNat := by
  unfold newVl avlOf
  split
  next imm =>
    rw [if_pos (Or.inl imm)]
    exact toNat_minOf rs1Value vlmax
  next notImm =>
    split
    next none_ =>
      rw [none_]
      exact (Nat.le_zero.mp (Avl.vl_le u 0 _)).symm
    next some_ =>
      split
      next both =>
        rw [if_neg (not_or.mpr ⟨notImm, not_not.mpr both.2⟩), if_neg (not_not.mpr both.1)]
        exact toNat_minOf u.vl vlmax
      next notBoth =>
        split
        next first => rw [if_neg (not_or.mpr ⟨notImm, not_not.mpr first.1⟩), if_pos first.2]; rfl
        next notFirst =>
          have given : rs1 ≠ 0 := by
            intro zero
            by_cases rdZero : rd = 0
            · exact notBoth ⟨rdZero, zero⟩
            · exact notFirst ⟨zero, rdZero⟩
          rw [if_pos (Or.inr given)]
          exact toNat_minOf rs1Value vlmax

section

variable {rd rs1 rs1Value newVtypeValue : BitVec xlen} {isRs1Imm : Bool}

theorem helperVsetvl_vill (xlen_eq : xlen = 32 ∨ xlen = 64) (sizes : Sizes u vlenLog elenLog) :
    (helperVsetvl u rd rs1 rs1Value newVtypeValue isRs1Imm).vill = true ↔
      Unsupported u newVtypeValue :=
  isVill_iff xlen_eq sizes newVtypeValue

theorem helperVsetvl_vlmax (xlen_eq : xlen = 32 ∨ xlen = 64) (sizes : Sizes u vlenLog elenLog) :
    (¬Unsupported u newVtypeValue →
        (helperVsetvl u rd rs1 rs1Value newVtypeValue isRs1Imm).vlmax.toNat =
          vlmaxOf u newVtypeValue) ∧
      (Unsupported u newVtypeValue →
        (helperVsetvl u rd rs1 rs1Value newVtypeValue isRs1Imm).vlmax = 0) := by
  have vill := isVill_iff xlen_eq sizes newVtypeValue
  constructor
  · intro supported
    have off : ¬isVill u newVtypeValue _ _ = true := fun set => supported (vill.mp set)
    refine Eq.trans (congrArg BitVec.toNat (if_neg off)) ?_
    exact toNat_vlmax xlen_eq sizes (fitting_of_supported sizes supported)
  · intro unsupported
    exact if_pos (vill.mpr unsupported)

theorem helperVsetvl_vl (u : VectorUnit xlen) :
    (helperVsetvl u rd rs1 rs1Value newVtypeValue isRs1Imm).vl.toNat =
      (avlOf rd rs1 rs1Value isRs1Imm).vl u
        (helperVsetvl u rd rs1 rs1Value newVtypeValue isRs1Imm).vlmax.toNat :=
  toNat_newVl u rd rs1 rs1Value _ isRs1Imm

theorem helperVsetvl_fits (xlen_eq : xlen = 32 ∨ xlen = 64) (sizes : Sizes u vlenLog elenLog) :
    ((helperVsetvl u rd rs1 rs1Value newVtypeValue isRs1Imm).vl.toNat *
      sewOf newVtypeValue : ℚ) ≤ lmulOf newVtypeValue * u.vlen := by
  have positive : (0 : ℚ) < lmulOf newVtypeValue := zpow_pos (by norm_num) _
  have sew : (0 : ℚ) < sewOf newVtypeValue := by
    unfold sewOf
    positivity
  have most := Avl.vl_le u
    (helperVsetvl u rd rs1 rs1Value newVtypeValue isRs1Imm).vlmax.toNat
    (avlOf rd rs1 rs1Value isRs1Imm)
  rw [← @helperVsetvl_vl xlen _ _ _ newVtypeValue _ u] at most
  obtain ⟨vlmax, noVlmax⟩ := @helperVsetvl_vlmax xlen u _ _ rd rs1 rs1Value newVtypeValue isRs1Imm
    xlen_eq sizes
  by_cases unsupported : Unsupported u newVtypeValue
  · rw [noVlmax unsupported] at most
    rw [Nat.le_zero.mp most, Nat.cast_zero, zero_mul]
    positivity
  · rw [vlmax unsupported] at most
    have floor : ((vlmaxOf u newVtypeValue : Nat) : ℚ) ≤
        u.vlen * lmulOf newVtypeValue / sewOf newVtypeValue :=
      Nat.floor_le (by positivity)
    have count : ((helperVsetvl u rd rs1 rs1Value newVtypeValue isRs1Imm).vl.toNat : ℚ) ≤
        vlmaxOf u newVtypeValue := by
      exact_mod_cast most
    have product := (le_div_iff₀ sew).mp (count.trans floor)
    rw [mul_comm (lmulOf newVtypeValue)]
    exact product

theorem onlyVill_iff (xlen_eq : xlen = 32 ∨ xlen = 64) :
    newVtypeValue ||| (1 : BitVec xlen) <<< (xlen - 1) = (1 : BitVec xlen) <<< (xlen - 1) ↔
      ∀ i < xlen - 1, newVtypeValue.getLsbD i = false := by
  have top (i : Nat) (less : i < xlen) :
      ((1 : BitVec xlen) <<< (xlen - 1)).getLsbD i = decide (i = xlen - 1) := by
    by_cases same : i = xlen - 1
    · rcases xlen_eq with rfl | rfl <;> subst same <;> decide
    · simp [same, show i < xlen - 1 by omega]
  constructor
  · intro only i less
    have bit := congrArg (BitVec.getLsbD · i) only
    simp only [BitVec.getLsbD_or, top i (by omega), Nat.ne_of_lt less, decide_false,
      Bool.or_false] at bit
    exact bit
  · intro zero
    refine BitVec.eq_of_getLsbD_eq fun i less => ?_
    rw [BitVec.getLsbD_or, top i less]
    by_cases same : i = xlen - 1
    · simp [same]
    · simp [zero i (by omega)]

/-- The configuration is the one that the vector extension asks for exactly if `vtype` is
supported or none of its bits below the top is set. -/
theorem vsetvl_follows_iff (xlen_eq : xlen = 32 ∨ xlen = 64) {u : VectorUnit xlen}
    (configured : Configured u) (rd rs1 rs1Value newVtypeValue : BitVec xlen) (isRs1Imm : Bool) :
    Follows u newVtypeValue (avlOf rd rs1 rs1Value isRs1Imm)
        (helperVsetvl u rd rs1 rs1Value newVtypeValue isRs1Imm) ↔
      ¬Unsupported u newVtypeValue ∨ ∀ i < xlen - 1, newVtypeValue.getLsbD i = false := by
  obtain ⟨vlenLog, elenLog, sizes⟩ := sizes_of_configured xlen_eq configured
  have vill := isVill_iff xlen_eq sizes newVtypeValue
  have stored (unsupported : Unsupported u newVtypeValue) :
      (helperVsetvl u rd rs1 rs1Value newVtypeValue isRs1Imm).vtype =
        newVtypeValue ||| (1 : BitVec xlen) <<< (xlen - 1) := if_pos (vill.mpr unsupported)
  obtain ⟨vlmax, noVlmax⟩ := @helperVsetvl_vlmax xlen u _ _ rd rs1 rs1Value newVtypeValue isRs1Imm
    xlen_eq sizes
  have vl := @helperVsetvl_vl xlen rd rs1 rs1Value newVtypeValue isRs1Imm u
  constructor
  · intro follows
    by_cases unsupported : Unsupported u newVtypeValue
    · have only := follows.onlyVill unsupported
      rw [stored unsupported] at only
      exact Or.inr ((onlyVill_iff xlen_eq).mp only)
    · exact Or.inl unsupported
  · intro condition
    refine
      { vill := helperVsetvl_vill xlen_eq sizes
        vlmax := vlmax
        vl := fun supported => vl.trans (by rw [vlmax supported])
        noVl := fun unsupported => ?_
        requested := fun supported => if_neg fun set => supported (vill.mp set)
        onlyVill := fun unsupported => ?_
        vstart := rfl
        fits := helperVsetvl_fits xlen_eq sizes }
    · rw [noVlmax unsupported] at vl
      apply BitVec.eq_of_toNat_eq
      exact vl.trans (Nat.le_zero.mp (Avl.vl_le u 0 _))
    · rw [stored unsupported]
      exact (onlyVill_iff xlen_eq).mpr (condition.resolve_left (not_not.mpr unsupported))

end

def resetUnit (xlen : Nat) : VectorUnit xlen where
  elen := 64
  vlenb := 64
  vl := 0
  vtype := 0
  vstart := 0
  vlmax := 0
  vsew := 0
  vlmul := 0
  vflmul := 0
  vill := false
  vta := false
  vma := false
  vr := fun _ => 0

/-- `e32, m2` with an AVL of 5. -/
theorem vsetvl_follows_e32 :
    Follows (resetUnit 64) 0x11 (.given 5) (helperVsetvl (resetUnit 64) 1 2 5 0x11 false) := by
  have sizes : Sizes (resetUnit 64) 9 6 := ⟨rfl, rfl, by decide, by decide, by decide, by decide⟩
  refine (vsetvl_follows_iff (.inr rfl) (.reset rfl rfl) 1 2 5 0x11 false).mpr (Or.inl ?_)
  rintro (reserved | narrow | ⟨i, above, set⟩)
  · exact absurd reserved (by decide)
  · exact absurd ((narrow_iff sizes 0x11).mp narrow) (by decide)
  · have clear : (0x11 : BitVec 64) >>> 8 = 0 := by decide
    exact absurd clear ((shifted_ne_zero_iff 0x11).mpr ⟨i, above, set⟩)

/-- `e8` with the reserved `LMUL` leaves the requested bits beside `vill`. -/
theorem vsetvl_keeps_vtype :
    ¬∀ (u : VectorUnit 64), Configured u → ∀ (rd rs1 rs1Value newVtypeValue : BitVec 64)
      (isRs1Imm : Bool), Follows u newVtypeValue (avlOf rd rs1 rs1Value isRs1Imm)
        (helperVsetvl u rd rs1 rs1Value newVtypeValue isRs1Imm) := by
  intro follows
  have sizes : Sizes (resetUnit 64) 9 6 := ⟨rfl, rfl, by decide, by decide, by decide, by decide⟩
  have unsupported : Unsupported (resetUnit 64) 4 := Or.inl (by decide)
  have vill := (isVill_iff (.inr rfl) sizes 4).mpr unsupported
  have only := (follows (resetUnit 64) (.reset rfl rfl) 1 2 5 4 false).onlyVill unsupported
  have stored : (helperVsetvl (resetUnit 64) 1 2 5 4 false).vtype = 4 ||| 1 <<< (64 - 1) :=
    if_pos vill
  rw [stored] at only
  exact absurd only (by decide)

end Tlib.Riscv.Vector
