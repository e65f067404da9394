import Tlib.Execution.Budget
import Tlib.Riscv.GracefulLoads
import Tlib.Riscv.VectorIota
import Tlib.Riscv.VectorPermutations

/-!
Contract: the fault-only-first loads of the vector unit.

Owns: `helper_vle*ff` with its segments and masks, the fault of each field, and the loads that
follow the vector extension.
-/

namespace Tlib.Riscv.Vector

open Tlib.Library.ByteElements Nat Option

variable {xlen : Nat}

/-! ### The helper -/

/-- `V_INVALID_NF` -/
def invalidNf (vd nf : Nat) (emul : BitVec 3) : Bool :=
  decide (emul &&& 4 ≠ 0) && (decide (8 ≤ nf <<< emul.toNat) || decide (32 ≤ vd + nf <<< emul.toNat))

/-- A unit-stride load of segments; elements have `8 * 2 ^ width` bits. -/
structure SegmentLoad (xlen : Nat) where
  map : MemoryMap xlen
  unit : VectorUnit xlen
  masked : Bool
  (width vd nf : Nat)
  /-- `env->gpr[rs1]` -/
  base : BitVec xlen

/-- The state of the loops. -/
structure Progress (xlen : Nat) where
  unit : VectorUnit xlen
  exceptionIndex : Int
  srcAddr : BitVec xlen

def Progress.suppress (s : Progress xlen) (ei : Nat) : Progress xlen :=
  { s with unit := { s.unit with vl := BitVec.ofNat xlen ei }, exceptionIndex := 0 }

namespace SegmentLoad

variable (x : SegmentLoad xlen)

/-- `sizeof(DATA_TYPE)` -/
def size : Nat := 2 ^ x.width

def bits : Nat := 8 * x.size

/-- `EMUL(SHIFT)` -/
def emul : BitVec 3 := x.unit.emul x.width

def nfields : Nat := x.nf + 1

/-- `IS_ELEMENT_ACTIVE`, with the mask as it is now. -/
def activeIn (s : Progress xlen) (ei : Nat) : Bool := x.unit.isElementActive x.masked s.unit.vr ei

/-- `*destination = ...` -/
def storeField (ei fi : Nat) (s : Progress xlen) (value : BitVec x.bits) : Progress xlen :=
  let destination := x.unit.cell x.bits (x.vd + fi <<< x.emul.toNat) ei
  { s with unit := { s.unit with vr := (store destination value).apply s.unit.vr } }

/-- `src_addr += sizeof(DATA_TYPE)` -/
def advance (s : Progress xlen) : Progress xlen :=
  { s with srcAddr := s.srcAddr + BitVec.ofNat xlen x.size }

def fields (ei : Nat) : Nat → Nat → Progress xlen → Except (Raised xlen) (Progress xlen)
  | 0, _, s => .ok s
  | turns + 1, fi, s =>
    if x.activeIn s ei then
      (x.map.innerLd x.bits (decide (ei ≠ 0)) s.srcAddr).bind fun loaded =>
        let stored := x.storeField ei fi s loaded.1
        if loaded.2 then .ok (stored.suppress ei)
        else fields ei turns (fi + 1) (x.advance stored)
    else fields ei turns (fi + 1) (x.advance s)

/-- The loop over the elements, as long as they are below `vl`. -/
def elements : Nat → Nat → Progress xlen → Except (Raised xlen) (Progress xlen)
  | 0, _, s => .ok s
  | turns + 1, ei, s =>
    if ei < s.unit.vl.toNat then (x.fields ei x.nfields 0 s).bind (elements turns (ei + 1))
    else .ok s

def refused : Bool :=
  decide (x.emul = 4) || idxInvalidEmul x.vd x.emul || invalidNf x.vd x.nf x.emul

/-- `helper_vle*ff` and `helper_vle*ff_m` -/
def helperVleff (exceptionIndex : Int) : Except (Raised xlen) (Progress xlen) :=
  if x.refused then .error ⟨excpIllegalInst, none⟩
  else x.elements (x.unit.vl.toNat - x.unit.vstart.toNat) x.unit.vstart.toNat
    ⟨x.unit, exceptionIndex, x.base⟩

end SegmentLoad

/-- Whether `cpu_exec` calls `do_interrupt` for what a block has left in `exception_index`. -/
def callsDoInterrupt (returnOnException : Bool) (exceptionIndex : Int) : Bool :=
  decide (exceptionIndex ≠ -1) && decide (0 ≤ exceptionIndex) &&
    !(returnOnException || decide (Tlib.Execution.excpInterrupt ≤ exceptionIndex))

/-! ### What the vector extension asks for -/

namespace SegmentLoad

variable (x : SegmentLoad xlen)

def fieldGroup : Nat := 2 ^ (x.unit.emulLog x.width).toNat

structure LegalOperands : Prop where
  width : x.width < 4
  emul : x.unit.emulLog x.width ≤ 3
  aligned : x.vd % x.fieldGroup = 0
  fields : x.nfields * x.fieldGroup ≤ 8
  registers : x.vd + x.nfields * x.fieldGroup ≤ 32
  mask : x.masked = true → x.vd ≠ 0

def Body (i : Nat) : Prop :=
  x.unit.vstart.toNat ≤ i ∧ i < x.unit.vl.toNat ∧ x.unit.isElementActive x.masked x.unit.vr i = true

def address (i f : Nat) : BitVec xlen := x.base + BitVec.ofNat xlen ((i * x.nfields + f) * x.size)

/-- The address that the helper takes, which counts from `vstart` on. -/
def helperAddress (i f : Nat) : BitVec xlen :=
  x.base + BitVec.ofNat xlen (((i * x.nfields + f) - x.unit.vstart.toNat * x.nfields) * x.size)

def exception (i f : Nat) : Option (Raised xlen) := x.map.exception x.size (x.address i f)

def helperException (i f : Nat) : Option (Raised xlen) :=
  x.map.exception x.size (x.helperAddress i f)

def Faults (i : Nat) : Prop := ∃ f < x.nfields, x.exception i f ≠ none

/-- The first active body element that faults, or `vl`. -/
def IsNewVl (vl : Nat) : Prop :=
  (vl = x.unit.vl.toNat ∨ x.Body vl ∧ x.Faults vl) ∧ ∀ i < vl, x.Body i → ¬x.Faults i

/-- A field that can be loaded, also from where a `vstart` makes the helper load it. -/
def LoadsRight (i f : Nat) : Prop :=
  x.exception i f = none ∧ (x.unit.vstart = 0 ∨ x.helperException i f = none ∧
      x.map.raw x.bits (x.helperAddress i f) = x.map.raw x.bits (x.address i f))

structure FollowsFirst (result : Except (Raised xlen) (Progress xlen)) : Prop where
  zero : x.Body 0 → x.Faults 0 → ∃ f < x.nfields, (∀ g < f, x.exception 0 g = none) ∧
    ∃ raised, x.exception 0 f = some raised ∧ result = .error raised
  others : ¬(x.Body 0 ∧ x.Faults 0) → ∃ s, result = .ok s ∧ s.exceptionIndex = excpNone ∧
    (∀ returnOnException, callsDoInterrupt returnOnException s.exceptionIndex = false) ∧
    x.IsNewVl s.unit.vl.toNat ∧
    ∀ i < s.unit.vl.toNat, x.Body i → ∀ f < x.nfields,
      s.unit.element x.bits (x.vd + f * x.fieldGroup) i = x.map.raw x.bits (x.address i f)

/-! ### Register groups -/

theorem bits_eq (x : SegmentLoad xlen) : x.bits / 8 = x.size := Nat.mul_div_cancel_left _ (by decide)

theorem whole (x : SegmentLoad xlen) : 8 ∣ x.bits := Nat.dvd_mul_right 8 x.size

theorem size_pos (x : SegmentLoad xlen) : 0 < x.size := Nat.two_pow_pos x.width

theorem nfields_pos (x : SegmentLoad xlen) : 0 < x.nfields := succ_pos x.nf

theorem emul_encoded : ∀ vlmul vsew : BitVec 3, ∀ width : Nat, width < 4 →
    -3 ≤ vlmul.toInt + width - vsew.toNat → vlmul.toInt + width - vsew.toNat ≤ 3 →
      if 0 ≤ vlmul.toInt + width - vsew.toNat then
        ((vlmul + BitVec.ofNat 3 width - vsew).toNat : Int) = vlmul.toInt + width - vsew.toNat
      else 5 ≤ (vlmul + BitVec.ofNat 3 width - vsew).toNat := by
  decide +kernel

section

variable {x : SegmentLoad xlen} (operands : x.LegalOperands) (narrow : -3 ≤ x.unit.emulLog 0)

include operands narrow

theorem LegalOperands.emul_eq :
    if 0 ≤ x.unit.emulLog x.width then (x.emul.toNat : Int) = x.unit.emulLog x.width
    else 5 ≤ x.emul.toNat := by
  have most := operands.emul
  unfold VectorUnit.emulLog at narrow most
  exact emul_encoded x.unit.vlmul (getVtypeVsew x.unit.vtype) x.width operands.width (by omega) most

theorem LegalOperands.refused_iff :
    x.refused = true ↔ ¬(x.nf = 0 ∨ 0 ≤ x.unit.emulLog x.width) := by
  have encoded := operands.emul_eq narrow
  have most := operands.emul
  have registers := operands.registers
  have bit : decide (x.emul &&& 4 ≠ 0) = decide (4 ≤ x.emul.toNat) := by
    generalize x.emul = emul
    revert emul
    decide
  have four : decide (x.emul = 4) = decide (x.emul.toNat = 4) := by
    generalize x.emul = emul
    revert emul
    decide
  unfold refused
  rw [Bool.or_eq_true, Bool.or_eq_true, idxInvalidEmul_iff]
  unfold invalidNf
  rw [four, bit]
  simp only [Bool.and_eq_true, Bool.or_eq_true, decide_eq_true_eq]
  split at encoded
  next whole =>
    have size : groupSize x.emul = x.fieldGroup := by
      unfold groupSize fieldGroup
      rw [if_pos (by omega)]
      congr 1
      omega
    have aligned := operands.aligned
    rw [size]
    constructor
    · rintro ((reserved | unaligned) | ⟨fractional, -⟩)
      · omega
      · exact absurd aligned unaligned
      · omega
    · intro fractional
      exact absurd (Or.inr whole) fractional
  next fractional =>
    have size : groupSize x.emul = 1 := by
      exact if_neg (by omega)
    have one : x.fieldGroup = 1 := by
      unfold fieldGroup
      rw [show (x.unit.emulLog x.width).toNat = 0 by omega, Nat.pow_zero]
    rw [one, Nat.mul_one] at registers
    unfold nfields at registers
    rw [size, mod_one]
    constructor
    · rintro ((reserved | unaligned) | ⟨-, wide⟩)
      · omega
      · exact absurd rfl unaligned
      · rintro (single | whole)
        · rw [single, zero_shiftLeft] at wide
          omega
        · exact fractional whole
    · intro segments
      have nonzero : 1 ≤ x.nf := by omega
      have factor : 2 ^ 5 ≤ 2 ^ x.emul.toNat := Nat.pow_le_pow_right (by decide) encoded
      have product := Nat.mul_le_mul nonzero factor
      omega

theorem LegalOperands.shift_eq (accepted : x.nf = 0 ∨ 0 ≤ x.unit.emulLog x.width) {f : Nat}
    (less : f < x.nfields) : f <<< x.emul.toNat = f * x.fieldGroup := by
  have encoded := operands.emul_eq narrow
  unfold nfields at less
  rw [shiftLeft_eq]
  rcases accepted with single | whole
  · rw [show f = 0 by omega, Nat.zero_mul, Nat.zero_mul]
  · rw [if_pos whole] at encoded
    unfold fieldGroup
    rw [show x.emul.toNat = (x.unit.emulLog x.width).toNat by omega]

end

/-! ### The loops without a fault -/

def fieldLoop (x : SegmentLoad xlen) : StoreLoop x.bits Unit where
  active k m := x.unit.isElementActive x.masked m (k / x.nfields)
  cell k _ := x.unit.cell x.bits (x.vd + k % x.nfields * x.fieldGroup) (k / x.nfields)
  value k _ _ := x.map.raw x.bits (x.helperAddress (k / x.nfields) (k % x.nfields))
  next _ _ s := s

def registersAt (x : SegmentLoad xlen) (k : Nat) : Memory :=
  (x.fieldLoop.run (x.unit.vstart.toNat * x.nfields) k x.unit.vr ()).1

def progressAt (x : SegmentLoad xlen) (k : Nat) : Progress xlen where
  unit := { x.unit with vr := x.registersAt k }
  exceptionIndex := excpNone
  srcAddr := x.base + BitVec.ofNat xlen ((k - x.unit.vstart.toNat * x.nfields) * x.size)

section

variable {x : SegmentLoad xlen}

theorem place_div {i f : Nat} (less : f < x.nfields) : (i * x.nfields + f) / x.nfields = i := by
  rw [Nat.mul_comm, mul_add_div x.nfields_pos, div_eq_of_lt less, Nat.add_zero]

theorem place_mod {i f : Nat} (less : f < x.nfields) : (i * x.nfields + f) % x.nfields = f := by
  rw [Nat.mul_comm, mul_add_mod, mod_eq_of_lt less]

theorem field_inGroup (shaped : Shaped x.unit) {i f a : Nat} (less : i < x.unit.vl.toNat)
    (inside : Cell x.bits (x.unit.cell x.bits (x.vd + f * x.fieldGroup) i) a) :
    (x.vd + f * x.fieldGroup) * x.unit.vlenb.toNat ≤ a ∧
      a < (x.vd + f * x.fieldGroup + x.fieldGroup) * x.unit.vlenb.toNat := by
  have fits := shaped.elements x.width
  have most := shaped.vl_le
  have product : (i + 1) * x.size ≤ x.unit.vlmax.toNat * x.size := Nat.mul_le_mul_right _ (by omega)
  unfold Cell VectorUnit.cell at inside
  rw [bits_eq] at inside
  rw [succ_mul] at product
  rw [Nat.add_mul (x.vd + f * x.fieldGroup)]
  change x.unit.vlmax.toNat * x.size ≤ x.fieldGroup * x.unit.vlenb.toNat at fits
  omega

theorem fieldLoop_reads :
    x.fieldLoop.Reads fun k a => x.masked = true ∧ a = x.unit.place 0 (k / x.nfields / 8) where
  active same := isElementActive_congr fun yes => same _ ⟨yes, rfl⟩
  value _ _ := rfl
  next _ _ := rfl

theorem body_of_field {k : Nat} (less : k < x.unit.vl.toNat * x.nfields) :
    k / x.nfields < x.unit.vl.toNat :=
  (Nat.div_lt_iff_lt_mul x.nfields_pos).mpr less

section

variable (operands : x.LegalOperands) (shaped : Shaped x.unit)

include operands shaped

theorem LegalOperands.mask_apart
    {k j : Nat} (first : k < x.unit.vl.toNat * x.nfields) (less : j < x.unit.vl.toNat)
    (yes : x.masked = true) (s : Unit) :
    ¬Cell x.bits (x.fieldLoop.cell k s) (x.unit.place 0 (j / 8)) := by
  intro inside
  obtain ⟨above, -⟩ := field_inGroup shaped (body_of_field first) inside
  have byte := shaped.bit_lt less
  have positive := Nat.pos_of_ne_zero (operands.mask yes)
  have product : 1 * x.unit.vlenb.toNat ≤
      (x.vd + k % x.nfields * x.fieldGroup) * x.unit.vlenb.toNat :=
    Nat.mul_le_mul_right _ (by omega)
  unfold VectorUnit.place at above
  omega

theorem LegalOperands.undisturbed {high : Nat}
    (le : high ≤ x.unit.vl.toNat * x.nfields) :
    x.fieldLoop.Undisturbed
      (fun k a => x.masked = true ∧ a = x.unit.place 0 (k / x.nfields / 8))
      (x.unit.vstart.toNat * x.nfields) high x.unit.vr () := by
  intro i j _ earlier below _ a read
  obtain ⟨yes, rfl⟩ := read
  exact operands.mask_apart shaped (by omega) (body_of_field (by omega)) yes _

theorem LegalOperands.active_at {k j : Nat}
    (le : k ≤ x.unit.vl.toNat * x.nfields) (less : j < x.unit.vl.toNat) :
    x.activeIn (x.progressAt k) j = x.unit.isElementActive x.masked x.unit.vr j := by
  apply isElementActive_congr
  intro yes
  apply fieldLoop_reads.run_untouched (operands.undisturbed shaped le)
  intro i _ below _
  exact operands.mask_apart shaped (by omega) less yes _

end

theorem fieldLoop_separate (shaped : Shaped x.unit) :
    x.fieldLoop.Separate (x.unit.vstart.toNat * x.nfields) (x.unit.vl.toNat * x.nfields)
      x.unit.vr () := by
  intro i j _ earlier below _ _ a first second
  have firstGroup := field_inGroup shaped (body_of_field (by omega)) first
  have secondGroup := field_inGroup shaped (body_of_field below) second
  by_cases same : i % x.nfields = j % x.nfields
  · have differ : i / x.nfields ≠ j / x.nfields := by
      intro equal
      have left := div_add_mod i x.nfields
      have right := div_add_mod j x.nfields
      rw [equal, same] at left
      omega
    change Cell x.bits (x.unit.cell x.bits (x.vd + i % x.nfields * x.fieldGroup) _) a at first
    rw [same] at first
    exact cell_separate differ first second
  · rcases Nat.lt_or_gt_of_ne same with less | greater
    · have product := Nat.mul_le_mul_right x.fieldGroup less
      rw [succ_mul] at product
      exact not_both_before (show x.vd + i % x.nfields * x.fieldGroup + x.fieldGroup ≤
        x.vd + j % x.nfields * x.fieldGroup by omega) firstGroup.2 secondGroup.1
    · have product := Nat.mul_le_mul_right x.fieldGroup greater
      rw [succ_mul] at product
      exact not_both_before (show x.vd + j % x.nfields * x.fieldGroup + x.fieldGroup ≤
        x.vd + i % x.nfields * x.fieldGroup by omega) secondGroup.2 firstGroup.1

theorem registersAt_succ {k : Nat} (le : x.unit.vstart.toNat * x.nfields ≤ k) :
    x.registersAt (k + 1) =
      (x.fieldLoop.toLoop.patch k (x.registersAt k) ()).apply (x.registersAt k) := by
  unfold registersAt
  rw [StoreLoop.run_succ _ le]
  rfl

theorem srcAddr_succ {k : Nat} (le : x.unit.vstart.toNat * x.nfields ≤ k) :
    (x.progressAt k).srcAddr + BitVec.ofNat xlen x.size = (x.progressAt (k + 1)).srcAddr := by
  unfold progressAt
  rw [BitVec.add_assoc, ← BitVec.ofNat_add, ← succ_mul, Nat.sub_add_comm le]

theorem advance_progressAt {k : Nat} (le : x.unit.vstart.toNat * x.nfields ≤ k)
    (inactive : x.unit.isElementActive x.masked (x.registersAt k) (k / x.nfields) = false) :
    x.advance (x.progressAt k) = x.progressAt (k + 1) := by
  have registers : x.registersAt (k + 1) = x.registersAt k := by
    rw [registersAt_succ le]
    change Tlib.Library.SequentialWrites.Patch.apply
      (if x.unit.isElementActive x.masked _ _ then _ else _) _ = _
    rw [inactive, if_neg Bool.false_ne_true]
    rfl
  have next := srcAddr_succ le
  unfold advance
  rw [next]
  unfold progressAt
  rw [registers]

theorem storeField_progressAt {i f : Nat} (below : f < x.nfields)
    (shift : f <<< x.emul.toNat = f * x.fieldGroup)
    (le : x.unit.vstart.toNat * x.nfields ≤ i * x.nfields + f)
    (active : x.unit.isElementActive x.masked (x.registersAt (i * x.nfields + f)) i = true) :
    x.advance (x.storeField i f (x.progressAt (i * x.nfields + f))
        (x.map.raw x.bits (x.helperAddress i f))) =
      x.progressAt (i * x.nfields + f + 1) := by
  have registers : x.registersAt (i * x.nfields + f + 1) =
      (store (x.unit.cell x.bits (x.vd + f * x.fieldGroup) i)
        (x.map.raw x.bits (x.helperAddress i f))).apply (x.registersAt (i * x.nfields + f)) := by
    rw [registersAt_succ le]
    unfold fieldLoop StoreLoop.toLoop
    simp [place_div below, place_mod below, active]
  have next := srcAddr_succ le
  unfold storeField advance
  rw [next, shift]
  change Progress.mk { x.unit with vr := _ } _ _ = Progress.mk { x.unit with vr := _ } _ _
  rw [registers]
  rfl

end

/-! ### The loops with a fault -/

/-- A fault in an element raises the exception of element 0 or ends with the index 0. -/
def Suppresses (ei : Nat) (raised : Raised xlen)
    (result : Except (Raised xlen) (Progress xlen)) : Prop :=
  (ei = 0 → result = .error raised) ∧
    (ei ≠ 0 → ∀ s, result = .ok s → s.exceptionIndex = 0 ∧ s.unit.vl = BitVec.ofNat xlen ei)

section

variable {x : SegmentLoad xlen} {ei fi turns : Nat}

theorem fields_fault {s : Progress xlen} {raised : Raised xlen} (active : x.activeIn s ei = true)
    (faults : x.map.exception x.size s.srcAddr = some raised) :
    Suppresses ei raised (x.fields ei (turns + 1) fi s) := by
  rw [← bits_eq] at faults
  unfold fields Suppresses
  rw [if_pos active]
  constructor
  · rintro rfl
    rw [decide_eq_false (fun differ => differ rfl), MemoryMap.innerLd_raises faults]
    rfl
  · intro positive s' result
    have quiet := MemoryMap.innerLd_reports faults
    rw [decide_eq_true positive] at result
    split at quiet
    · rw [quiet] at result
      cases result
    · obtain ⟨value, loaded⟩ := quiet
      rw [loaded] at result
      cases result
      exact ⟨rfl, rfl⟩

theorem elements_stop {s : Progress xlen} (le : s.unit.vl.toNat ≤ ei) :
    x.elements turns ei s = .ok s := by
  cases turns with
  | zero => rfl
  | succ turns => exact if_neg (by omega)

variable (operands : x.LegalOperands) (shaped : Shaped x.unit)
  (shift : ∀ f < x.nfields, f <<< x.emul.toNat = f * x.fieldGroup)

include operands shaped shift

theorem fields_step (lower : x.unit.vstart.toNat ≤ ei) (less : ei < x.unit.vl.toNat)
    (below : fi < x.nfields)
    (loads : x.unit.isElementActive x.masked x.unit.vr ei = true → x.helperException ei fi = none) :
    x.fields ei (turns + 1) fi (x.progressAt (ei * x.nfields + fi)) =
      x.fields ei turns (fi + 1) (x.progressAt (ei * x.nfields + (fi + 1))) := by
  have first := Nat.mul_le_mul_right x.nfields lower
  have last := Nat.mul_le_mul_right x.nfields less
  rw [succ_mul] at last
  have le : x.unit.vstart.toNat * x.nfields ≤ ei * x.nfields + fi := by omega
  have mask := operands.active_at shaped
    (show ei * x.nfields + fi ≤ x.unit.vl.toNat * x.nfields by omega)
    less
  rw [fields]
  cases active : x.unit.isElementActive x.masked x.unit.vr ei with
  | false =>
    rw [active] at mask
    have inactive : x.unit.isElementActive x.masked (x.registersAt (ei * x.nfields + fi))
        ((ei * x.nfields + fi) / x.nfields) = false := by
      rw [place_div below]
      exact mask
    rw [mask, if_neg Bool.false_ne_true, advance_progressAt le inactive]
    rfl
  | true =>
    rw [active] at mask
    have quiet := loads active
    unfold helperException at quiet
    rw [← bits_eq] at quiet
    have positive : 0 < x.bits / 8 := by
      rw [bits_eq]
      exact x.size_pos
    have loaded := MemoryMap.innerLd_loads x.whole positive (decide (ei ≠ 0)) quiet
    have stored := storeField_progressAt below (shift fi below) le mask
    rw [if_pos mask]
    change (x.map.innerLd x.bits (decide (ei ≠ 0)) (x.helperAddress ei fi)).bind _ = _
    rw [loaded]
    change x.fields ei turns (fi + 1) (x.advance _) = _
    rw [stored]
    rfl

theorem fields_cases (lower : x.unit.vstart.toNat ≤ ei) (less : ei < x.unit.vl.toNat)
    (within : fi + turns = x.nfields) :
    ((x.unit.isElementActive x.masked x.unit.vr ei = true →
          ∀ f, fi ≤ f → f < x.nfields → x.helperException ei f = none) ∧
        x.fields ei turns fi (x.progressAt (ei * x.nfields + fi)) =
          .ok (x.progressAt ((ei + 1) * x.nfields))) ∨
      x.unit.isElementActive x.masked x.unit.vr ei = true ∧
        ∃ f, fi ≤ f ∧ f < x.nfields ∧ (∀ g, fi ≤ g → g < f → x.helperException ei g = none) ∧
          ∃ raised, x.helperException ei f = some raised ∧
            Suppresses ei raised (x.fields ei turns fi (x.progressAt (ei * x.nfields + fi))) := by
  induction turns generalizing fi with
  | zero =>
    left
    refine ⟨fun _ f above below => by omega, ?_⟩
    rw [fields, succ_mul, show fi = x.nfields by omega]
  | succ turns ih =>
    have below : fi < x.nfields := by omega
    by_cases loads : x.unit.isElementActive x.masked x.unit.vr ei = true →
        x.helperException ei fi = none
    · rw [fields_step operands shaped shift lower less below loads]
      have next : fi + 1 + turns = x.nfields := by omega
      rcases ih next with ⟨none_, result⟩ | ⟨active, f, above, upper, before, rest⟩
      · left
        refine ⟨?_, result⟩
        intro active f above upper
        rcases Nat.eq_or_lt_of_le above with rfl | later
        · exact loads active
        · exact none_ active f later upper
      · right
        refine ⟨active, f, by omega, upper, ?_, rest⟩
        intro g lowest earlier
        rcases Nat.eq_or_lt_of_le lowest with rfl | later
        · exact loads active
        · exact before g later earlier
    · right
      rw [Classical.not_imp] at loads
      obtain ⟨active, faults⟩ := loads
      obtain ⟨raised, some_⟩ := ne_none_iff_exists'.mp faults
      have last := Nat.mul_le_mul_right x.nfields less
      rw [succ_mul] at last
      have mask := operands.active_at shaped
        (show ei * x.nfields + fi ≤ x.unit.vl.toNat * x.nfields by omega) less
      exact ⟨active, fi, Nat.le_refl fi, below, fun g above under => by omega, raised, some_,
        fields_fault (mask.trans active) some_⟩

theorem elements_cases (lower : x.unit.vstart.toNat ≤ ei) (within : ei + turns = x.unit.vl.toNat) :
    ((∀ i, ei ≤ i → x.Body i → ∀ f < x.nfields, x.helperException i f = none) ∧
        x.elements turns ei (x.progressAt (ei * x.nfields)) =
          .ok (x.progressAt (x.unit.vl.toNat * x.nfields))) ∨
      ∃ i f, ei ≤ i ∧ x.Body i ∧ f < x.nfields ∧ x.helperException i f ≠ none ∧
        ∀ s, x.elements turns ei (x.progressAt (ei * x.nfields)) = .ok s → s.exceptionIndex = 0 := by
  induction turns generalizing ei with
  | zero =>
    left
    refine ⟨fun i above body => by have upper := body.2.1; omega, ?_⟩
    rw [elements, show ei = x.unit.vl.toNat by omega]
  | succ turns ih =>
    have less : ei < x.unit.vl.toNat := by omega
    rw [elements, if_pos (show ei < (x.progressAt (ei * x.nfields)).unit.vl.toNat from less)]
    rcases fields_cases operands shaped shift lower less (Nat.zero_add x.nfields) with
      ⟨none_, result⟩ | ⟨active, f, -, below, -, raised, faults, suppresses⟩
    · rw [Nat.add_zero] at result
      rw [result]
      have later : x.unit.vstart.toNat ≤ ei + 1 := by omega
      rcases ih later (by omega) with ⟨others, rest⟩ | ⟨i, f, above, rest⟩
      · left
        refine ⟨?_, rest⟩
        intro i above body f below
        rcases Nat.eq_or_lt_of_le above with rfl | later
        · exact none_ body.2.2 f (Nat.zero_le f) below
        · exact others i later body f below
      · exact Or.inr ⟨i, f, by omega, rest⟩
    · right
      rw [Nat.add_zero] at suppresses
      refine ⟨ei, f, Nat.le_refl ei, ⟨lower, less, active⟩, below, ?_, ?_⟩
      · rw [faults]
        exact some_ne_none raised
      · intro s result
        cases fieldsResult : x.fields ei x.nfields 0 (x.progressAt (ei * x.nfields)) with
        | error e =>
          rw [fieldsResult] at result
          cases result
        | ok s' =>
          have positive : ei ≠ 0 := by
            intro zero
            rw [suppresses.1 zero] at fieldsResult
            cases fieldsResult
          obtain ⟨index, vl⟩ := suppresses.2 positive s' fieldsResult
          have stop : s'.unit.vl.toNat ≤ ei + 1 := by
            have small := mod_le ei (2 ^ xlen)
            rw [vl, BitVec.toNat_ofNat]
            omega
          rw [fieldsResult] at result
          have same : Except.ok s' = Except.ok s := (elements_stop stop).symm.trans result
          cases same
          exact index

theorem elements_zero (body : x.Body 0) (faults : ∃ f < x.nfields, x.helperException 0 f ≠ none)
    (within : turns = x.unit.vl.toNat) :
    ∃ f < x.nfields, (∀ g < f, x.helperException 0 g = none) ∧ ∃ raised,
      x.helperException 0 f = some raised ∧
        x.elements turns 0 (x.progressAt 0) = .error raised := by
  obtain ⟨f, below, some_⟩ := faults
  have positive := body.2.1
  cases turns with
  | zero => omega
  | succ turns =>
    have cases_ := fields_cases operands shaped shift body.1 positive (Nat.zero_add x.nfields)
    rw [Nat.zero_mul, Nat.add_zero] at cases_
    rcases cases_ with ⟨none_, -⟩ | ⟨-, first, -, less, before, raised, found, suppresses⟩
    · exact absurd (none_ body.2.2 f (Nat.zero_le f) below) some_
    · refine ⟨first, less, fun g earlier => before g (Nat.zero_le g) earlier, raised, found, ?_⟩
      rw [elements, if_pos (show 0 < (x.progressAt 0).unit.vl.toNat from positive),
        suppresses.1 rfl]
      rfl

end

/-! ### The loads as a whole -/

section

variable {x : SegmentLoad xlen}

theorem exceptionIndex_ne_illegal {map : MemoryMap xlen} {size : Nat} {address : BitVec xlen}
    {raised : Raised xlen} (some_ : map.exception size address = some raised) :
    raised.exceptionIndex ≠ excpIllegalInst := by
  unfold MemoryMap.exception at some_
  split at some_
  · cases some_
    exact (by decide : excpLoadAddrMis ≠ excpIllegalInst)
  · obtain ⟨part, -, rfl⟩ := map_eq_some_iff.mp some_
    unfold MemoryMap.raiseMmuException
    split
    · exact (by decide : excpLoadPageFault ≠ excpIllegalInst)
    · exact (by decide : excpLoadAccessFault ≠ excpIllegalInst)

theorem helperAddress_eq (start : x.unit.vstart.toNat = 0) (i f : Nat) :
    x.helperAddress i f = x.address i f := by
  unfold helperAddress address
  rw [start, Nat.zero_mul, Nat.sub_zero]

theorem progressAt_start :
    x.progressAt (x.unit.vstart.toNat * x.nfields) = ⟨x.unit, excpNone, x.base⟩ := by
  unfold progressAt registersAt StoreLoop.run
  rw [Nat.sub_self, Nat.zero_mul, BitVec.add_zero]
  rfl

theorem helperVleff_accepted (accepted : x.refused = false) :
    x.helperVleff excpNone = x.elements (x.unit.vl.toNat - x.unit.vstart.toNat) x.unit.vstart.toNat
      (x.progressAt (x.unit.vstart.toNat * x.nfields)) := by
  unfold helperVleff
  rw [accepted, if_neg Bool.false_ne_true, progressAt_start]

theorem element_progressAt (operands : x.LegalOperands) (shaped : Shaped x.unit) {i f : Nat}
    (body : x.Body i) (below : f < x.nfields) :
    (x.progressAt (x.unit.vl.toNat * x.nfields)).unit.element x.bits (x.vd + f * x.fieldGroup) i =
      x.map.raw x.bits (x.helperAddress i f) := by
  obtain ⟨lower, upper, active⟩ := body
  have first := Nat.mul_le_mul_right x.nfields lower
  have last := Nat.mul_le_mul_right x.nfields upper
  rw [succ_mul] at last
  have activeField : x.fieldLoop.active (i * x.nfields + f) x.unit.vr = true := by
    change x.unit.isElementActive x.masked x.unit.vr ((i * x.nfields + f) / x.nfields) = true
    rwa [place_div below]
  have loaded := fieldLoop_reads.load_run (operands.undisturbed shaped (Nat.le_refl _)) x.whole
    (fieldLoop_separate shaped) (by omega) (by omega) activeField
  unfold fieldLoop at loaded
  simp only [place_div below, place_mod below] at loaded
  exact loaded

theorem helperVleff_refused (refused : x.refused = true) :
    x.helperVleff excpNone = .error ⟨excpIllegalInst, none⟩ := if_pos refused

theorem FollowsFirst.accepted (follows : x.FollowsFirst (x.helperVleff excpNone)) :
    x.refused = false := by
  rw [← Bool.not_eq_true]
  intro refused
  rw [helperVleff_refused refused] at follows
  by_cases zero : x.Body 0 ∧ x.Faults 0
  · obtain ⟨f, -, -, raised, found, same⟩ := follows.zero zero.1 zero.2
    cases same
    exact exceptionIndex_ne_illegal found rfl
  · obtain ⟨s, same, -⟩ := follows.others zero
    cases same

variable (operands : x.LegalOperands) (shaped : Shaped x.unit)
  (shift : ∀ f < x.nfields, f <<< x.emul.toNat = f * x.fieldGroup) (accepted : x.refused = false)

include operands shaped shift accepted

theorem FollowsFirst.loadsRight (follows : x.FollowsFirst (x.helperVleff excpNone))
    (zero : ¬(x.Body 0 ∧ x.Faults 0)) {i f : Nat} (body : x.Body i) (below : f < x.nfields) :
    x.LoadsRight i f := by
  obtain ⟨s, result, index, -, newVl, values⟩ := follows.others zero
  have within : x.unit.vstart.toNat + (x.unit.vl.toNat - x.unit.vstart.toNat) = x.unit.vl.toNat := by
    have lower := body.1
    have upper := body.2.1
    omega
  rw [helperVleff_accepted accepted] at result
  rcases elements_cases operands shaped shift (Nat.le_refl _) within with
    ⟨none_, run⟩ | ⟨_, _, -, -, -, -, suppressed⟩
  · rw [run] at result
    cases result
    have loads : x.exception i f = none := by
      by_contra faults
      exact newVl.2 i body.2.1 body ⟨f, below, faults⟩
    refine ⟨loads, Or.inr ⟨none_ i body.1 body f below, ?_⟩⟩
    rw [← values i body.2.1 body f below, element_progressAt operands shaped body below]
  · rw [suppressed s result] at index
    exact absurd index (by decide)

theorem followsFirst_of_zero (body : x.Body 0) (faults : x.Faults 0) :
    x.FollowsFirst (x.helperVleff excpNone) := by
  have start : x.unit.vstart.toNat = 0 := le_zero.mp body.1
  have same (f : Nat) : x.helperException 0 f = x.exception 0 f := by
    unfold helperException exception
    rw [helperAddress_eq start]
  constructor
  · intro _ _
    obtain ⟨f, below, found⟩ := faults
    obtain ⟨first, less, before, raised, some_, result⟩ :=
      elements_zero operands shaped shift body ⟨f, below, (same f).symm ▸ found⟩ rfl
    refine ⟨first, less, fun g earlier => (same g).symm.trans (before g earlier), raised,
      (same first).symm.trans some_, ?_⟩
    rw [helperVleff_accepted accepted, start, Nat.sub_zero, Nat.zero_mul]
    exact result
  · intro other
    exact absurd ⟨body, faults⟩ other

theorem followsFirst_of_loads
    (loads : ∀ i, x.Body i → ∀ f < x.nfields, x.LoadsRight i f) :
    x.FollowsFirst (x.helperVleff excpNone) := by
  have quiet (i : Nat) (body : x.Body i) : ¬x.Faults i := by
    rintro ⟨f, below, faults⟩
    exact faults (loads i body f below).1
  have same (i : Nat) (body : x.Body i) (f : Nat) (below : f < x.nfields) :
      x.helperException i f = none ∧
        x.map.raw x.bits (x.helperAddress i f) = x.map.raw x.bits (x.address i f) := by
    obtain ⟨none_, start | shifted⟩ := loads i body f below
    · have address : x.helperAddress i f = x.address i f := by
        apply helperAddress_eq
        rw [start]
        exact BitVec.toNat_zero
      unfold helperException
      rw [address]
      exact ⟨none_, rfl⟩
    · exact shifted
  constructor
  · intro body faults
    exact absurd faults (quiet 0 body)
  · intro _
    have result : x.helperVleff excpNone = .ok (x.progressAt
        (max x.unit.vstart.toNat x.unit.vl.toNat * x.nfields)) := by
      rw [helperVleff_accepted accepted]
      by_cases some_ : x.unit.vstart.toNat ≤ x.unit.vl.toNat
      · rw [Nat.max_eq_right some_]
        rcases elements_cases operands shaped shift (Nat.le_refl _)
            (Nat.add_sub_cancel' some_) with ⟨-, run⟩ | ⟨i, f, -, body, below, faults, -⟩
        · exact run
        · exact absurd (same i body f below).1 faults
      · rw [Nat.max_eq_left (by omega), Nat.sub_eq_zero_of_le (by omega)]
        rfl
    refine ⟨_, result, rfl, fun _ => rfl, ⟨Or.inl rfl, fun i _ body => quiet i body⟩, ?_⟩
    intro i less body f below
    have upper := body.2.1
    have lower := body.1
    rw [Nat.max_eq_right (by omega), element_progressAt operands shaped body below]
    exact (same i body f below).2

end

end SegmentLoad

/-- The fault-only-first loads raise the exception of element 0 and no other one exactly when
they are not refused, and element 0 faults or no active element does. -/
theorem vleff_iff (xlen_eq : xlen = 32 ∨ xlen = 64) {x : SegmentLoad xlen} (legal : Legal x.unit)
    (operands : x.LegalOperands) :
    x.FollowsFirst (x.helperVleff excpNone) ↔ (x.nf = 0 ∨ 0 ≤ x.unit.emulLog x.width) ∧
        (x.Body 0 ∧ x.Faults 0 ∨ ∀ i, x.Body i → ∀ f < x.nfields, x.LoadsRight i f) := by
  have shaped := shaped_of_legal xlen_eq legal
  have refused_iff := operands.refused_iff (legal.narrow xlen_eq)
  constructor
  · intro follows
    have accepted := follows.accepted
    rw [accepted, Bool.false_eq_true, false_iff, not_not] at refused_iff
    refine ⟨refused_iff, or_iff_not_imp_left.mpr fun zero i body f below => ?_⟩
    exact follows.loadsRight operands shaped
      (fun f less => operands.shift_eq (legal.narrow xlen_eq) refused_iff less) accepted zero body below
  · rintro ⟨fits, condition⟩
    have accepted : x.refused = false := by
      rw [← Bool.not_eq_true, refused_iff, not_not]
      exact fits
    have shift : ∀ f < x.nfields, f <<< x.emul.toNat = f * x.fieldGroup :=
      fun f less => operands.shift_eq (legal.narrow xlen_eq) fits less
    rcases condition with zero | loads
    · exact SegmentLoad.followsFirst_of_zero operands shaped shift accepted zero.1 zero.2
    · exact SegmentLoad.followsFirst_of_loads operands shaped shift accepted loads

/-- The exception index that a suppressed fault leaves is a misaligned fetch. -/
example : callsDoInterrupt false 0 = true := by decide

/-- Two bytes at the end of a page; the next page is there or not. -/
def lastByte (next : Bool) : SegmentLoad 64 where
  map :=
    { translates := fun address _ => next || decide (address.toNat < 4096)
      mmio := fun _ => false
      contents := fun address => address.setWidth 8
      allowUnalignedAccesses := false
      pageFaultExceptions := true }
  unit := e8Unit fun _ => 0
  masked := false
  width := 0
  vd := 1
  nf := 0
  base := 4095

theorem lastByte_operands (next : Bool) : (lastByte next).LegalOperands where
  width := by decide +revert
  emul := by decide +revert
  aligned := by decide +revert
  fields := by decide +revert
  registers := by decide +revert
  mask := by decide +revert

/-- With both pages there is no fault. -/
theorem vleff_both_pages : (lastByte true).FollowsFirst ((lastByte true).helperVleff excpNone) := by
  refine (vleff_iff (.inr rfl) (e8Unit_legal _) (lastByte_operands true)).mpr
    ⟨.inl rfl, .inr fun i body f below => ⟨?_, .inl rfl⟩⟩
  have whole (address : BitVec 64) : (lastByte true).map.exception 1 address = none := by
    have aligned : (lastByte true).map.misaligned 1 address = false := by
      unfold MemoryMap.misaligned MemoryMap.offset
      rw [mod_one]
      rfl
    unfold MemoryMap.exception
    rw [aligned, if_neg Bool.false_ne_true, map_eq_none_iff, List.find?_eq_none]
    intro part _
    exact Bool.false_ne_true
  exact whole _

/-- The fault of the second byte is suppressed, and the exception index 0 is left. -/
theorem vleff_leaves_exception : ¬∀ x : SegmentLoad 64, Legal x.unit → x.LegalOperands →
      x.FollowsFirst (x.helperVleff excpNone) := by
  intro claim
  have follows := claim (lastByte false) (e8Unit_legal _) (lastByte_operands false)
  have present : (lastByte false).exception 0 0 = none := by decide
  have zero : ¬((lastByte false).Body 0 ∧ (lastByte false).Faults 0) := by
    rintro ⟨-, f, below, faults⟩
    have single : f = 0 := lt_one_iff.mp below
    rw [single] at faults
    exact faults present
  obtain ⟨s, result, index, -⟩ := follows.others zero
  have left : ((lastByte false).helperVleff excpNone).toOption.map Progress.exceptionIndex =
      some 0 := by
    decide
  rw [result] at left
  have same : s.exceptionIndex = 0 := some.inj left
  exact absurd (same.symm.trans index) (by decide)

end Tlib.Riscv.Vector
