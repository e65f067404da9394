import Tlib.Library.ByteElements
import Tlib.Riscv.VectorMasks

/-!
Contract: elements of the vector registers, for the configurations that `vsetvl` accepts.

Owns: the places of elements and of mask bits, and the register groups that an instruction may name.
-/

namespace Tlib.Riscv.Vector

open Tlib.Library.ByteElements

variable {xlen : Nat} {σ : Type}

namespace VectorUnit

variable (u : VectorUnit xlen)

/-- `eew` of the single-width instructions. -/
def eew : Nat := u.vsew.toNat

/-- The place of the element `ei` of `n` bits at `V(x)`. -/
def cell (n x ei : Nat) : Nat := x * u.vlenb.toNat + ei * (n / 8)

/-- `V(x)[ei >> 3] & (1 << (ei & 0x7))`, in a memory of the registers. -/
def bitIn (m : Memory) (x ei : Nat) : Bool := (m (u.place x (ei / 8))).getLsbD (ei % 8)

/-- `IS_ELEMENT_ACTIVE`, in the masked and in the other form of an instruction. -/
def isElementActive (masked : Bool) (m : Memory) (ei : Nat) : Bool := !masked || u.bitIn m 0 ei

/-- The element `ei` of `n` bits at `V(x)`. -/
def element (n x ei : Nat) : BitVec n := load n u.vr (u.cell n x ei)

end VectorUnit

/-- `V_IDX_INVALID_EMUL` -/
def idxInvalidEmul (x : Nat) (emul : BitVec 3) : Bool :=
  decide (emul.toNat < 4) && decide (x &&& ((1 <<< emul.toNat) - 1) ≠ 0)

/-- `V_IDX_INVALID` -/
def VectorUnit.idxInvalid (u : VectorUnit xlen) (x : Nat) : Bool := idxInvalidEmul x u.vlmul

def VectorUnit.emul (u : VectorUnit xlen) (eew : Nat) : BitVec 3 :=
  u.vlmul + BitVec.ofNat 3 eew - getVtypeVsew u.vtype

/-- The cases of `switch(eew)`. -/
def HasCase (eew : Nat) : Prop := eew = 8 ∨ eew = 16 ∨ eew = 32 ∨ eew = 64

instance (eew : Nat) : Decidable (HasCase eew) := inferInstanceAs (Decidable (_ ∨ _))

def VectorUnit.loop (u : VectorUnit xlen) (L : StoreLoop u.eew σ) (low high : Nat) (s : σ) :
    Option (VectorUnit xlen) :=
  if HasCase u.eew then some { u with vr := (L.run low high u.vr s).1 }
  else if (List.range' low (high - low)).any fun ei => L.active ei u.vr then none
  else some u

/-- The units whose last `vsetvl` was accepted; `vl` may have shrunk since. -/
inductive Legal : VectorUnit xlen → Prop where
  | vsetvl {u : VectorUnit xlen} (configured : Configured u) {newVtypeValue : BitVec xlen}
      (supported : ¬Unsupported u newVtypeValue) (rd rs1 rs1Value : BitVec xlen)
      (isRs1Imm : Bool) : Legal (helperVsetvl u rd rs1 rs1Value newVtypeValue isRs1Imm)
  | other {u u' : VectorUnit xlen} (before : Legal u) (vlenb : u'.vlenb = u.vlenb)
      (vsew : u'.vsew = u.vsew) (vtype : u'.vtype = u.vtype) (vlmul : u'.vlmul = u.vlmul)
      (vlmax : u'.vlmax = u.vlmax) (vl : u'.vl ≤ u.vl) : Legal u'

def groupSize (vlmul : BitVec 3) : Nat := if vlmul.toNat < 4 then 2 ^ vlmul.toNat else 1

/-- The exponent of `EMUL` for elements of `8 * 2 ^ width` bits. -/
def VectorUnit.emulLog (u : VectorUnit xlen) (width : Nat) : Int :=
  u.vlmul.toInt + width - (getVtypeVsew u.vtype).toNat

/-- The elements fit into their register group, and the mask bits into a register. -/
structure Shaped (u : VectorUnit xlen) : Prop where
  sew : HasCase u.eew
  width : u.eew = 2 ^ ((getVtypeVsew u.vtype).toNat + 3)
  lmul : -3 ≤ u.vlmul.toInt
  vl_le : u.vl.toNat ≤ u.vlmax.toNat
  elements : ∀ width, u.vlmax.toNat * 2 ^ width ≤ 2 ^ (u.emulLog width).toNat * u.vlenb.toNat
  bits : u.vlmax.toNat ≤ 8 * u.vlenb.toNat

theorem Sizes.vlenb {u : VectorUnit xlen} {vlenLog elenLog : Nat} (sizes : Sizes u vlenLog elenLog) :
    u.vlenb.toNat = 2 ^ (vlenLog - 3) := by
  have vlen : u.vlenb.toNat * 8 = 2 ^ vlenLog := sizes.vlen
  have least := sizes.least
  have order := sizes.order
  have split : 2 ^ vlenLog = 2 ^ (vlenLog - 3) * 8 := by
    rw [show (8 : Nat) = 2 ^ 3 from rfl, ← Nat.pow_add, Nat.sub_add_cancel (by omega)]
  omega

section Accepted

variable (xlen_eq : xlen = 32 ∨ xlen = 64) {u : VectorUnit xlen} {vlenLog elenLog : Nat}
  (sizes : Sizes u vlenLog elenLog) {newVtypeValue rd rs1 rs1Value : BitVec xlen}
  {isRs1Imm : Bool} (supported : ¬Unsupported u newVtypeValue)

include xlen_eq sizes supported

theorem helperVsetvl_vtype :
    (helperVsetvl u rd rs1 rs1Value newVtypeValue isRs1Imm).vtype = newVtypeValue :=
  if_neg fun set => supported ((isVill_iff xlen_eq sizes newVtypeValue).mp set)

theorem helperVsetvl_emulLog (width : Nat) :
    (helperVsetvl u rd rs1 rs1Value newVtypeValue isRs1Imm).emulLog width =
      lmulLog newVtypeValue + width - (getVtypeVsew newVtypeValue).toNat := by
  unfold VectorUnit.emulLog
  rw [helperVsetvl_vtype xlen_eq sizes supported]
  rfl

end Accepted

theorem shaped_of_legal (xlen_eq : xlen = 32 ∨ xlen = 64) {u : VectorUnit xlen} (legal : Legal u) :
    Shaped u := by
  induction legal with
  | @vsetvl u configured newVtypeValue supported rd rs1 rs1Value isRs1Imm =>
    obtain ⟨vlenLog, elenLog, sizes⟩ := sizes_of_configured xlen_eq configured
    have fitting := fitting_of_supported sizes supported
    have fits : ¬min (lmulLog newVtypeValue) 0 + elenLog < sewLog newVtypeValue := fun narrow =>
      supported (Or.inr (Or.inl ((narrow_iff sizes newVtypeValue).mpr narrow)))
    have reserved : ¬lmulLog newVtypeValue < -3 := fun less =>
      supported (Or.inl ((reserved_iff newVtypeValue).mpr less))
    have range := lmulLog_range newVtypeValue
    have most := sizes.most
    have three : 3 ≤ sewLog newVtypeValue := Nat.le_add_left 3 _
    have sewFits := fitting.sew
    have group := fitting.group
    have bytes := sizes.vlenb
    have vsew : ((1 : BitVec xlen) <<< sewLog newVtypeValue).toNat = 2 ^ sewLog newVtypeValue :=
      toNat_vsew xlen_eq newVtypeValue
    have vlmax := (@helperVsetvl_vlmax xlen u vlenLog elenLog rd rs1 rs1Value newVtypeValue isRs1Imm
      xlen_eq sizes).1 supported
    have vtype : (helperVsetvl u rd rs1 rs1Value newVtypeValue isRs1Imm).vtype = newVtypeValue :=
      helperVsetvl_vtype xlen_eq sizes supported
    rw [vlmaxOf_eq sizes fitting] at vlmax
    constructor
    · change HasCase ((1 : BitVec xlen) <<< sewLog newVtypeValue).toNat
      rw [vsew]
      have widths : sewLog newVtypeValue = 3 ∨ sewLog newVtypeValue = 4 ∨
          sewLog newVtypeValue = 5 ∨ sewLog newVtypeValue = 6 := by omega
      rcases widths with width | width | width | width <;> rw [width] <;> decide
    · change ((1 : BitVec xlen) <<< sewLog newVtypeValue).toNat = _
      rw [vsew, vtype]
      rfl
    · change -3 ≤ lmulLog newVtypeValue
      omega
    · rw [helperVsetvl_vl u]
      exact Avl.vl_le u _ _
    · intro width
      have exponent : (helperVsetvl u rd rs1 rs1Value newVtypeValue isRs1Imm).emulLog width =
          lmulLog newVtypeValue + width - (getVtypeVsew newVtypeValue).toNat :=
        helperVsetvl_emulLog xlen_eq sizes supported width
      change _ ≤ 2 ^ _ * u.vlenb.toNat
      rw [vlmax, bytes, exponent, ← Nat.pow_add, ← Nat.pow_add]
      apply Nat.pow_le_pow_right (by decide)
      unfold vlmaxLog
      unfold sewLog at sewFits group ⊢
      omega
    · change _ ≤ 8 * u.vlenb.toNat
      rw [vlmax, bytes, show (8 : Nat) = 2 ^ 3 from rfl, ← Nat.pow_add]
      apply Nat.pow_le_pow_right (by decide)
      unfold vlmaxLog
      omega
  | @other u u' before vlenb vsew vtype vlmul vlmax vl ih =>
    have le : u'.vl.toNat ≤ u.vl.toNat := vl
    constructor
    · unfold VectorUnit.eew
      rw [vsew]
      exact ih.sew
    · unfold VectorUnit.eew
      rw [vsew, vtype]
      exact ih.width
    · rw [vlmul]
      exact ih.lmul
    · rw [vlmax]
      exact le.trans ih.vl_le
    · intro width
      unfold VectorUnit.emulLog
      rw [vlmax, vlenb, vlmul, vtype]
      exact ih.elements width
    · rw [vlmax, vlenb]
      exact ih.bits

theorem groupSize_eq (vlmul : BitVec 3) (least : -3 ≤ vlmul.toInt) :
    groupSize vlmul = 2 ^ vlmul.toInt.toNat := by
  revert vlmul
  decide

theorem Shaped.group {u : VectorUnit xlen} (shaped : Shaped u) :
    u.vlmax.toNat * (u.eew / 8) ≤ groupSize u.vlmul * u.vlenb.toNat := by
  have fits := shaped.elements (getVtypeVsew u.vtype).toNat
  have bytes : u.eew / 8 = 2 ^ (getVtypeVsew u.vtype).toNat := by
    rw [shaped.width, Nat.pow_succ, Nat.pow_succ, Nat.pow_succ, Nat.mul_assoc, Nat.mul_assoc]
    exact Nat.mul_div_cancel _ (by decide)
  have exponent : u.emulLog (getVtypeVsew u.vtype).toNat = u.vlmul.toInt := by
    unfold VectorUnit.emulLog
    omega
  rwa [exponent, ← groupSize_eq u.vlmul shaped.lmul, ← bytes] at fits

section

variable {u : VectorUnit xlen} {n x y i j : Nat}

theorem isElementActive_congr {masked : Bool} {m m' : Memory} {ei : Nat}
    (same : masked = true → m' (u.place 0 (ei / 8)) = m (u.place 0 (ei / 8))) :
    u.isElementActive masked m' ei = u.isElementActive masked m ei := by
  unfold VectorUnit.isElementActive VectorUnit.bitIn
  cases masked with
  | false => rfl
  | true => rw [same rfl]

theorem HasCase.whole (case_ : HasCase n) : 8 ∣ n := by
  rcases case_ with rfl | rfl | rfl | rfl <;> decide

theorem cell_separate (differ : i ≠ j) {a : Nat} (inside : Cell n (u.cell n x i) a) :
    ¬Cell n (u.cell n x j) a := by
  unfold Cell VectorUnit.cell at *
  rcases Nat.lt_or_gt_of_ne differ with less | greater
  · have product : (i + 1) * (n / 8) ≤ j * (n / 8) := Nat.mul_le_mul_right _ less
    rw [Nat.succ_mul] at product
    omega
  · have product : (j + 1) * (n / 8) ≤ i * (n / 8) := Nat.mul_le_mul_right _ greater
    rw [Nat.succ_mul] at product
    omega

def InGroup (u : VectorUnit xlen) (x a : Nat) : Prop :=
  x * u.vlenb.toNat ≤ a ∧ a < (x + groupSize u.vlmul) * u.vlenb.toNat

theorem Shaped.cell_inGroup (shaped : Shaped u) (less : i < u.vlmax.toNat) {a : Nat}
    (inside : Cell u.eew (u.cell u.eew x i) a) : InGroup u x a := by
  have product : (i + 1) * (u.eew / 8) ≤ u.vlmax.toNat * (u.eew / 8) := Nat.mul_le_mul_right _ less
  have group := shaped.group
  unfold Cell VectorUnit.cell at inside
  unfold InGroup
  rw [Nat.succ_mul] at product
  rw [Nat.add_mul]
  omega

/-- The register `y` is not one of the group at `x`. -/
def Outside (u : VectorUnit xlen) (x y : Nat) : Prop := y < x ∨ x + groupSize u.vlmul ≤ y

instance (u : VectorUnit xlen) (x y : Nat) : Decidable (Outside u x y) :=
  inferInstanceAs (Decidable (_ ∨ _))

theorem Outside.place (outside : Outside u x y) (less : i < u.vlenb.toNat) :
    ¬InGroup u x (u.place y i) := by
  unfold InGroup VectorUnit.place
  rintro ⟨above, below⟩
  rcases outside with before | behind
  · have product : (y + 1) * u.vlenb.toNat ≤ x * u.vlenb.toNat := Nat.mul_le_mul_right _ before
    rw [Nat.succ_mul] at product
    omega
  · have product : (x + groupSize u.vlmul) * u.vlenb.toNat ≤ y * u.vlenb.toNat :=
      Nat.mul_le_mul_right _ behind
    omega

theorem Shaped.bit_lt (shaped : Shaped u) (less : i < u.vl.toNat) : i / 8 < u.vlenb.toNat := by
  have most := shaped.vl_le
  have bits := shaped.bits
  omega

end

end Tlib.Riscv.Vector
