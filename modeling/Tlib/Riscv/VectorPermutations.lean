import Tlib.Riscv.VectorElements

/-!
Contract: the instructions that move elements between vector registers.

Owns: slides by a scalar, gathers and `vcompress`, the operands that they refuse, and which element
each result is taken from.
-/

namespace Tlib.Riscv.Vector

open Tlib.Library.ByteElements List Nat Or
open BitVec hiding not_not

variable {xlen : Nat}

/-! ### Slides and gathers -/

/-- The slides and gathers of the vector registers at `vd` and `vs2`. -/
inductive Permutation (xlen : Nat) where
  | vslideup (rs1 : BitVec xlen)
  | vslidedown (rs1 : BitVec xlen)
  /-- With an index in a scalar register or in the instruction. -/
  | vrgather (imm : BitVec xlen)
  | vrgatherVv (vs1 : Nat)
  | vrgatherei16 (vs1 : Nat)
  deriving DecidableEq, Repr

/-- Turns of a loop, and the element of `vs2` that each of them reads. -/
structure Turns where
  (low high : Nat)
  index : Nat → Memory → Option Nat

/-- `idx >= env->vlmax ? 0 : ...` -/
def VectorUnit.gathered (u : VectorUnit xlen) (idx : Nat) : Option Nat :=
  if u.vlmax.toNat ≤ idx then none else some idx

namespace Permutation

/-- `start` of `helper_vslideup_ivi` -/
def slideStart (u : VectorUnit xlen) (rs1 : BitVec xlen) : BitVec xlen :=
  if u.vlmax < rs1 then u.vlmax else if u.vstart < rs1 then rs1 else u.vstart

/-- `src_max` of `helper_vslidedown_ivi` -/
def sourceMax (u : VectorUnit xlen) (rs1 : BitVec xlen) : BitVec xlen :=
  if u.vlmax < rs1 then 0 else if u.vl < u.vlmax - rs1 then u.vl else u.vlmax - rs1

def turns (u : VectorUnit xlen) : Permutation xlen → List Turns
  | vslideup rs1 =>
    [⟨(slideStart u rs1).toNat, u.vl.toNat, fun ei _ => some (BitVec.ofNat xlen ei - rs1).toNat⟩]
  | vslidedown rs1 =>
    [⟨u.vstart.toNat, (sourceMax u rs1).toNat, fun ei _ => some (BitVec.ofNat xlen ei + rs1).toNat⟩,
      ⟨max u.vstart.toNat (sourceMax u rs1).toNat, u.vl.toNat, fun _ _ => none⟩]
  | vrgather imm => [⟨u.vstart.toNat, u.vl.toNat, fun _ _ => u.gathered imm.toNat⟩]
  | vrgatherVv vs1 =>
    [⟨u.vstart.toNat, u.vl.toNat,
      fun ei m => u.gathered (load u.eew m (u.cell u.eew vs1 ei)).toNat⟩]
  | vrgatherei16 vs1 =>
    [⟨u.vstart.toNat, u.vl.toNat, fun ei m => u.gathered (load 16 m (u.cell 16 vs1 ei)).toNat⟩]

def refused (u : VectorUnit xlen) (vd vs2 : Nat) : Permutation xlen → Bool
  | vslideup _ | vslidedown _ | vrgather _ => u.idxInvalid vd || u.idxInvalid vs2
  | vrgatherVv vs1 => u.idxInvalid vd || u.idxInvalid vs2 || u.idxInvalid vs1
  | vrgatherei16 vs1 =>
    u.idxInvalid vd || u.idxInvalid vs2 || idxInvalidEmul vs1 (u.emul 16)

end Permutation

/-- A loop that moves elements of `vs2` to `vd`. -/
def moveLoop (u : VectorUnit xlen) (masked : Bool) (vd vs2 n : Nat)
    (index : Nat → Memory → Option Nat) : StoreLoop n Unit where
  active ei m := u.isElementActive masked m ei
  cell ei _ := u.cell n vd ei
  value ei m _ :=
    match index ei m with
    | some idx => load n m (u.cell n vs2 idx)
    | none => 0
  next _ _ s := s

def Permutation.run (op : Permutation xlen) (u : VectorUnit xlen) (masked : Bool) (vd vs2 : Nat) :
    Option (VectorUnit xlen) :=
  if op.refused u vd vs2 then none
  else (op.turns u).foldlM
    (fun u t => u.loop (moveLoop u masked vd vs2 u.eew t.index) t.low t.high ()) u

section

variable (u : VectorUnit xlen) (masked : Bool) (vd vs2 : Nat)

def helperVslideupIvi (rs1 : BitVec xlen) : Option (VectorUnit xlen) :=
  (Permutation.vslideup rs1).run u masked vd vs2

def helperVslidedownIvi (rs1 : BitVec xlen) : Option (VectorUnit xlen) :=
  (Permutation.vslidedown rs1).run u masked vd vs2

def helperVrgatherIvi (imm : BitVec xlen) : Option (VectorUnit xlen) :=
  (Permutation.vrgather imm).run u masked vd vs2

def helperVrgatherIvv (vs1 : Nat) : Option (VectorUnit xlen) :=
  (Permutation.vrgatherVv vs1).run u masked vd vs2

def helperVrgatherei16Ivv (vs1 : Nat) : Option (VectorUnit xlen) :=
  (Permutation.vrgatherei16 vs1).run u masked vd vs2

end

/-! ### `vcompress` -/

/-- The local state is `di`. -/
def compressLoop (u : VectorUnit xlen) (vd vs2 vs1 n : Nat) : StoreLoop n Nat where
  active i m := u.bitIn m vs1 i
  cell _ di := u.cell n vd di
  value i m _ := load n m (u.cell n vs2 i)
  next _ _ di := di + 1

def helperVcompressMvv (u : VectorUnit xlen) (vd vs2 vs1 : Nat) : Option (VectorUnit xlen) :=
  if decide (u.vstart ≠ 0) || u.idxInvalid vd || u.idxInvalid vs2 || u.idxInvalid vs1 then none
  else u.loop (compressLoop u vd vs2 vs1 u.eew) 0 u.vl.toNat 0

/-! ### What the vector extension asks for -/

namespace Permutation

def first : Permutation xlen → Nat
  | vslideup rs1 => rs1.toNat
  | vslidedown _ | vrgather _ | vrgatherVv _ | vrgatherei16 _ => 0

/-- The element of `vs2` that comes to an element, or zero. -/
def source (u : VectorUnit xlen) (i : Nat) : Permutation xlen → Option Nat
  | vslideup rs1 => some (i - rs1.toNat)
  | vslidedown rs1 => if i + rs1.toNat < u.vlmax.toNat then some (i + rs1.toNat) else none
  | vrgather imm => if imm.toNat < u.vlmax.toNat then some imm.toNat else none
  | vrgatherVv vs1 =>
    if (u.element u.eew vs1 i).toNat < u.vlmax.toNat then some (u.element u.eew vs1 i).toNat
    else none
  | vrgatherei16 vs1 =>
    if (u.element 16 vs1 i).toNat < u.vlmax.toNat then some (u.element 16 vs1 i).toNat
    else none

end Permutation

/-- Every active element is the one that is asked for, and everything else stays. -/
structure Moves (op : Permutation xlen) (u : VectorUnit xlen) (masked : Bool) (vd vs2 : Nat)
    (u' : VectorUnit xlen) : Prop where
  active : ∀ i, op.first ≤ i → i < u.vl.toNat → u.isElementActive masked u.vr i = true →
    u'.element u.eew vd i = match op.source u i with
      | some idx => u.element u.eew vs2 idx
      | none => 0
  others : ∀ a, (∀ i, op.first ≤ i → i < u.vl.toNat → u.isElementActive masked u.vr i = true →
    ¬Cell u.eew (u.cell u.eew vd i) a) → u'.vr a = u.vr a
  frame : { u' with vr := u.vr } = u

/-- No turn reads an element of `vs2` behind `VLMAX`. -/
def ReadsBelow (op : Permutation xlen) (u : VectorUnit xlen) : Prop :=
  ∀ t ∈ op.turns u, ∀ ei, t.low ≤ ei → ei < t.high → ∀ m idx, t.index ei m = some idx →
    idx < u.vlmax.toNat

def setBelow (u : VectorUnit xlen) (vs1 i : Nat) : Nat := (range i).countP (u.bit vs1)

/-- The selected elements stand one behind the other, and everything else stays. -/
structure Packs (u : VectorUnit xlen) (vd vs2 vs1 : Nat) (u' : VectorUnit xlen) : Prop where
  selected : ∀ i < u.vl.toNat, u.bit vs1 i = true →
    u'.element u.eew vd (setBelow u vs1 i) = u.element u.eew vs2 i
  others : ∀ a, (∀ k < setBelow u vs1 u.vl.toNat, ¬Cell u.eew (u.cell u.eew vd k) a) →
    u'.vr a = u.vr a
  frame : { u' with vr := u.vr } = u

/-! ### Register numbers -/

def Aligned (u : VectorUnit xlen) (x : Nat) : Prop := x % groupSize u.vlmul = 0

instance (u : VectorUnit xlen) (x : Nat) : Decidable (Aligned u x) :=
  inferInstanceAs (Decidable (_ = _))

/-- The operands that are not reserved; `vslidedown` may work in place. -/
def Permutation.LegalOperands (u : VectorUnit xlen) (masked : Bool) (vd vs2 : Nat) :
    Permutation xlen → Prop
  | vslidedown _ => Aligned u vd ∧ Aligned u vs2 ∧ (masked = true → vd ≠ 0)
  | vslideup _ | vrgather _ => Aligned u vd ∧ Aligned u vs2 ∧ (masked = true → vd ≠ 0) ∧ vd ≠ vs2
  | vrgatherVv vs1 =>
    Aligned u vd ∧ Aligned u vs2 ∧ (masked = true → vd ≠ 0) ∧ vd ≠ vs2 ∧ Aligned u vs1 ∧ vd ≠ vs1
  | vrgatherei16 vs1 =>
    Aligned u vd ∧ Aligned u vs2 ∧ (masked = true → vd ≠ 0) ∧ vd ≠ vs2 ∧ u.emulLog 1 ≤ 3 ∧
      vs1 % 2 ^ (u.emulLog 1).toNat = 0 ∧
      (vd + groupSize u.vlmul ≤ vs1 ∨ vs1 + 2 ^ (u.emulLog 1).toNat ≤ vd)

instance (u : VectorUnit xlen) (masked : Bool) (vd vs2 : Nat) (op : Permutation xlen) :
    Decidable (op.LegalOperands u masked vd vs2) :=
  match op with
  | .vslidedown _ => inferInstanceAs (Decidable (_ ∧ _ ∧ (_ → _)))
  | .vslideup _ | .vrgather _ => inferInstanceAs (Decidable (_ ∧ _ ∧ (_ → _) ∧ _ ≠ _))
  | .vrgatherVv _ =>
    inferInstanceAs (Decidable (_ ∧ _ ∧ (_ → _) ∧ _ ≠ _ ∧ Aligned _ _ ∧ _ ≠ _))
  | .vrgatherei16 _ =>
    inferInstanceAs (Decidable (_ ∧ _ ∧ (_ → _) ∧ _ ≠ _ ∧ _ ≤ _ ∧ _ = _ ∧ (_ ∨ _)))

/-- The operands of `vcompress` that are not reserved. -/
def CompressOperands (u : VectorUnit xlen) (vd vs2 vs1 : Nat) : Prop :=
  Aligned u vd ∧ Aligned u vs2 ∧ vd ≠ vs2 ∧ Outside u vd vs1

instance (u : VectorUnit xlen) (vd vs2 vs1 : Nat) : Decidable (CompressOperands u vd vs2 vs1) :=
  inferInstanceAs (Decidable (_ ∧ _ ∧ _ ∧ _))

section

variable {u : VectorUnit xlen} {vd vs2 vs1 x y : Nat}

theorem idxInvalidEmul_iff (x : Nat) (emul : BitVec 3) :
    idxInvalidEmul x emul = true ↔ x % groupSize emul ≠ 0 := by
  unfold idxInvalidEmul groupSize
  rw [one_shiftLeft, and_two_pow_sub_one_eq_mod]
  by_cases whole : emul.toNat < 4
  · rw [if_pos whole, decide_eq_true whole, Bool.true_and, decide_eq_true_eq]
  · rw [if_neg whole, decide_eq_false whole, Bool.false_and, mod_one]
    simp

theorem idxInvalid_eq_false_iff : u.idxInvalid x = false ↔ Aligned u x := by
  unfold VectorUnit.idxInvalid Aligned
  rw [← Bool.not_eq_true, idxInvalidEmul_iff, not_not]

theorem Aligned.apart (first : Aligned u x) (second : Aligned u y) (differ : x ≠ y) :
    x + groupSize u.vlmul ≤ y ∨ y + groupSize u.vlmul ≤ x := by
  obtain ⟨i, rfl⟩ := dvd_of_mod_eq_zero first
  obtain ⟨j, rfl⟩ := dvd_of_mod_eq_zero second
  rcases Nat.lt_or_gt_of_ne (fun same => differ (by rw [same]) : i ≠ j) with less | greater
  · have product := Nat.mul_le_mul_left (groupSize u.vlmul) less
    exact inl product
  · have product := Nat.mul_le_mul_left (groupSize u.vlmul) greater
    exact inr product

theorem not_both_before {first size a : Nat} (before : x + first ≤ y)
    (below : a < (x + first) * size) (above : y * size ≤ a) : False := by
  have product : (x + first) * size ≤ y * size := Nat.mul_le_mul_right size before
  omega

theorem Aligned.groups_apart (first : Aligned u x) (second : Aligned u y) (differ : x ≠ y)
    {a : Nat} (inside : InGroup u x a) : ¬InGroup u y a := by
  rintro ⟨above, below⟩
  rcases first.apart second differ with before | behind
  · exact not_both_before before inside.2 above
  · exact not_both_before behind below inside.1

theorem Shaped.index_inGroup (shaped : Shaped u) {i : Nat} (less : i < u.vlmax.toNat) {a : Nat}
    (inside : Cell 16 (u.cell 16 x i) a) :
    x * u.vlenb.toNat ≤ a ∧ a < (x + 2 ^ (u.emulLog 1).toNat) * u.vlenb.toNat := by
  have fits := shaped.elements 1
  unfold Cell VectorUnit.cell at inside
  rw [Nat.add_mul]
  omega

theorem emul_sixteen : ∀ vlmul vsew : BitVec 3,
    -3 ≤ vlmul.toInt - vsew.toNat → vlmul.toInt - vsew.toNat ≤ 2 →
      groupSize (vlmul + 16 - vsew) = 2 ^ (vlmul.toInt - vsew.toNat).toNat := by
  decide

theorem index_accepted (least : -3 ≤ u.emulLog 0) (most : u.emulLog 1 ≤ 3)
    (aligned : vs1 % 2 ^ (u.emulLog 1).toNat = 0) : idxInvalidEmul vs1 (u.emul 16) = false := by
  have size : groupSize (u.emul 16) = 2 ^ (u.emulLog 0).toNat := by
    unfold VectorUnit.emulLog at least most
    have sized := emul_sixteen u.vlmul (getVtypeVsew u.vtype) (by omega) (by omega)
    unfold VectorUnit.emulLog
    exact sized.trans (by congr 2; omega)
  have larger : (u.emulLog 0).toNat ≤ (u.emulLog 1).toNat := by
    unfold VectorUnit.emulLog
    omega
  rw [← Bool.not_eq_true, idxInvalidEmul_iff, not_not, size]
  exact mod_eq_zero_of_dvd ((Nat.pow_dvd_pow 2 larger).trans (dvd_of_mod_eq_zero aligned))

end

theorem Legal.narrow (xlen_eq : xlen = 32 ∨ xlen = 64) {u : VectorUnit xlen} (legal : Legal u) :
    -3 ≤ u.emulLog 0 := by
  induction legal with
  | @vsetvl u configured newVtypeValue supported rd rs1 rs1Value isRs1Imm =>
    obtain ⟨vlenLog, elenLog, sizes⟩ := sizes_of_configured xlen_eq configured
    have fits : ¬min (lmulLog newVtypeValue) 0 + elenLog < sewLog newVtypeValue := fun narrow =>
      supported (inr (inl ((narrow_iff sizes newVtypeValue).mpr narrow)))
    have most := sizes.most
    have vtype : (helperVsetvl u rd rs1 rs1Value newVtypeValue isRs1Imm).vtype = newVtypeValue :=
      if_neg fun set => supported ((isVill_iff xlen_eq sizes newVtypeValue).mp set)
    unfold VectorUnit.emulLog
    rw [vtype]
    change -3 ≤ lmulLog newVtypeValue + _ - _
    unfold sewLog at fits
    omega
  | other before vlenb vsew vtype vlmul vlmax vl ih =>
    unfold VectorUnit.emulLog at ih ⊢
    rwa [vlmul, vtype]

/-! ### One loop for each instruction -/

/-- The element of `vs2` that a turn reads, over the numbers. -/
def Permutation.index (u : VectorUnit xlen) : Permutation xlen → Nat → Memory → Option Nat
  | vslideup rs1 => fun ei _ => some (ei - rs1.toNat)
  | vslidedown rs1 => fun ei _ =>
    if ei + rs1.toNat < u.vlmax.toNat then some (ei + rs1.toNat) else none
  | vrgather imm => fun _ _ => u.gathered imm.toNat
  | vrgatherVv vs1 => fun ei m => u.gathered (load u.eew m (u.cell u.eew vs1 ei)).toNat
  | vrgatherei16 vs1 => fun ei m => u.gathered (load 16 m (u.cell 16 vs1 ei)).toNat

section

variable {u : VectorUnit xlen} {masked : Bool} {vd vs2 : Nat}

theorem VectorUnit.loop_eq (sew : HasCase u.eew) {σ : Type} (L : StoreLoop u.eew σ)
    (low high : Nat) (s : σ) :
    u.loop L low high s = some { u with vr := (L.run low high u.vr s).1 } :=
  if_pos sew

theorem moveLoop_congr {n : Nat} {index index' : Nat → Memory → Option Nat} {low high : Nat}
    (same : ∀ i, low ≤ i → i < high → index' i = index i) (m : Memory) :
    (moveLoop u masked vd vs2 n index').run low high m () =
      (moveLoop u masked vd vs2 n index).run low high m () := by
  apply StoreLoop.run_congr
  intro i above below m s
  refine ⟨rfl, rfl, ?_, rfl⟩
  unfold moveLoop
  simp [same i above below]

theorem run_empty {n : Nat} {σ : Type} (L : StoreLoop n σ) {low high : Nat}
    (empty : high ≤ low) (m : Memory) (s : σ) : L.run low high m s = (m, s) := by
  unfold StoreLoop.run
  rw [Nat.sub_eq_zero_of_le empty]
  rfl

theorem toNat_ofNat_sub {ei : Nat} {rs1 : BitVec xlen} (le : rs1.toNat ≤ ei) (less : ei < 2 ^ xlen) :
    (BitVec.ofNat xlen ei - rs1).toNat = ei - rs1.toNat := by
  have number : (BitVec.ofNat xlen ei).toNat = ei := by
    rw [toNat_ofNat, mod_eq_of_lt less]
  rw [toNat_sub_of_le (by rwa [le_def, number]), number]

theorem toNat_ofNat_add {ei : Nat} {rs1 : BitVec xlen} (less : ei + rs1.toNat < 2 ^ xlen) :
    (BitVec.ofNat xlen ei + rs1).toNat = ei + rs1.toNat := by
  rw [toNat_add, toNat_ofNat, mod_add_mod, mod_eq_of_lt less]

theorem slideStart_toNat (start : u.vstart = 0) (rs1 : BitVec xlen) :
    (Permutation.slideStart u rs1).toNat = min rs1.toNat u.vlmax.toNat := by
  have zero : (0 : BitVec xlen).toNat = 0 := toNat_zero
  unfold Permutation.slideStart
  simp only [start, lt_def, zero]
  split
  · omega
  · split
    · omega
    · omega

theorem sourceMax_toNat (rs1 : BitVec xlen) :
    (Permutation.sourceMax u rs1).toNat = min u.vl.toNat (u.vlmax.toNat - rs1.toNat) := by
  have zero : (0 : BitVec xlen).toNat = 0 := toNat_zero
  unfold Permutation.sourceMax
  simp only [lt_def]
  split
  · omega
  · have less : (u.vlmax - rs1).toNat = u.vlmax.toNat - rs1.toNat :=
      toNat_sub_of_le (by rw [le_def]; omega)
    split
    · omega
    · omega

def runTurns (u : VectorUnit xlen) (masked : Bool) (vd vs2 : Nat) (ts : List Turns) (m : Memory) :
    Memory :=
  ts.foldl (fun m t => ((moveLoop u masked vd vs2 u.eew t.index).run t.low t.high m ()).1) m

theorem foldlM_loop (sew : HasCase u.eew) (ts : List Turns) (m : Memory) :
    ts.foldlM (fun u t => u.loop (moveLoop u masked vd vs2 u.eew t.index) t.low t.high ())
        { u with vr := m } =
      some { u with vr := runTurns u masked vd vs2 ts m } := by
  induction ts generalizing m with
  | nil => rfl
  | cons t rest ih =>
    rw [foldlM_cons, VectorUnit.loop_eq (u := { u with vr := m }) sew]
    exact ih _

theorem slidedown_run (start : u.vstart = 0) (rs1 : BitVec xlen) (m : Memory) :
    runTurns u masked vd vs2 ((Permutation.vslidedown rs1).turns u) m =
      ((moveLoop u masked vd vs2 u.eew ((Permutation.vslidedown rs1).index u)).run 0 u.vl.toNat
        m ()).1 := by
  have sourced := sourceMax_toNat (u := u) rs1
  have begins : u.vstart.toNat = 0 := by
    rw [start]
    exact toNat_zero
  have middle : (Permutation.sourceMax u rs1).toNat ≤ u.vl.toNat := by omega
  have two : (Permutation.vslidedown rs1).turns u = [⟨0, (Permutation.sourceMax u rs1).toNat,
          fun ei _ => some (BitVec.ofNat xlen ei + rs1).toNat⟩,
        ⟨(Permutation.sourceMax u rs1).toNat, u.vl.toNat, fun _ _ => none⟩] := by
    simp [Permutation.turns, begins]
  have slid : ∀ i, 0 ≤ i → i < (Permutation.sourceMax u rs1).toNat →
      (fun _ => some (BitVec.ofNat xlen i + rs1).toNat : Memory → Option Nat) =
        (Permutation.vslidedown rs1).index u i := by
    intro i _ below
    funext _
    change some _ = if _ then _ else _
    rw [if_pos (by omega), toNat_ofNat_add (by omega)]
  have behind : ∀ i, (Permutation.sourceMax u rs1).toNat ≤ i → i < u.vl.toNat →
      (fun _ => none : Memory → Option Nat) = (Permutation.vslidedown rs1).index u i := by
    intro i above below
    funext _
    exact (if_neg (by omega)).symm
  rw [StoreLoop.run_split _ (Nat.zero_le _) middle, two, ← moveLoop_congr slid,
    ← moveLoop_congr behind]
  rfl

theorem run_turns (shaped : Shaped u) (start : u.vstart = 0) (op : Permutation xlen) (m : Memory) :
    runTurns u masked vd vs2 (op.turns u) m =
      ((moveLoop u masked vd vs2 u.eew (op.index u)).run op.first u.vl.toNat m ()).1 := by
  have begins : u.vstart.toNat = 0 := by
    rw [start]
    exact toNat_zero
  have most := shaped.vl_le
  cases op with
  | vslideup rs1 =>
    change ((moveLoop u masked vd vs2 u.eew _).run (Permutation.slideStart u rs1).toNat _ m ()).1 = _
    rw [slideStart_toNat start]
    by_cases inside : rs1.toNat ≤ u.vlmax.toNat
    · have slid : ∀ i, rs1.toNat ≤ i → i < u.vl.toNat →
          (fun _ => some (BitVec.ofNat xlen i - rs1).toNat : Memory → Option Nat) =
            (Permutation.vslideup rs1).index u i := by
        intro i above below
        funext _
        exact congrArg some (toNat_ofNat_sub above (by omega))
      rw [Nat.min_eq_left inside]
      exact congrArg Prod.fst (moveLoop_congr slid m)
    · rw [Nat.min_eq_right (by omega), run_empty _ most, run_empty]
      change u.vl.toNat ≤ rs1.toNat
      omega
  | vslidedown rs1 => exact slidedown_run start rs1 m
  | vrgather imm =>
    unfold runTurns Permutation.turns
    rw [begins]
    rfl
  | vrgatherVv vs1 =>
    unfold runTurns Permutation.turns
    rw [begins]
    rfl
  | vrgatherei16 vs1 =>
    unfold runTurns Permutation.turns
    rw [begins]
    rfl

def moveReads (u : VectorUnit xlen) (masked : Bool) (vs2 n : Nat)
    (index : Nat → Memory → Option Nat) (indexCell : Nat → Nat → Prop) (i : Nat) : Set Nat :=
  fun a => (masked = true ∧ a = u.place 0 (i / 8)) ∨ indexCell i a ∨
    ∃ m idx, index i m = some idx ∧ Cell n (u.cell n vs2 idx) a

theorem moveLoop_reads {n : Nat} (whole : 8 ∣ n) {index : Nat → Memory → Option Nat}
    {indexCell : Nat → Nat → Prop}
    (depends : ∀ i m m', (∀ a, indexCell i a → m' a = m a) → index i m' = index i m) :
    (moveLoop u masked vd vs2 n index).Reads (moveReads u masked vs2 n index indexCell) where
  active {i m m'} same := isElementActive_congr fun yes => same _ (inl ⟨yes, rfl⟩)
  value {i m m'} s same := by
    have index_eq := depends i m m' fun a inside => same a (inr (inl inside))
    unfold moveLoop
    simp only [index_eq]
    cases read : index i m with
    | none => rfl
    | some idx =>
      exact load_congr whole fun b inside => same b (inr (inr ⟨m, idx, read, inside⟩))
  next _ _ := rfl

def Permutation.indexCell (u : VectorUnit xlen) : Permutation xlen → Nat → Nat → Prop
  | vslideup _ | vslidedown _ | vrgather _ => fun _ _ => False
  | vrgatherVv vs1 => fun i a => Cell u.eew (u.cell u.eew vs1 i) a
  | vrgatherei16 vs1 => fun i a => Cell 16 (u.cell 16 vs1 i) a

theorem Permutation.index_congr (whole : 8 ∣ u.eew) (op : Permutation xlen) (i : Nat)
    (m m' : Memory) (same : ∀ a, op.indexCell u i a → m' a = m a) :
    op.index u i m' = op.index u i m := by
  cases op with
  | vslideup _ => rfl
  | vslidedown _ => rfl
  | vrgather _ => rfl
  | vrgatherVv vs1 =>
    change u.gathered (load _ m' _).toNat = u.gathered (load _ m _).toNat
    rw [load_congr whole same]
  | vrgatherei16 vs1 =>
    change u.gathered (load _ m' _).toNat = u.gathered (load _ m _).toNat
    rw [load_congr (by decide) same]

theorem VectorUnit.gathered_eq_some {idx k : Nat} (read : u.gathered idx = some k) :
    k = idx ∧ idx < u.vlmax.toNat := by
  unfold VectorUnit.gathered at read
  split at read
  · cases read
  next inside =>
    cases read
    exact ⟨rfl, by omega⟩

theorem Permutation.index_lt (op : Permutation xlen) {i idx : Nat} {m : Memory}
    (less : i < u.vlmax.toNat) (read : op.index u i m = some idx) : idx < u.vlmax.toNat := by
  cases op with
  | vslideup rs1 =>
    cases read
    omega
  | vslidedown rs1 =>
    by_cases inside : i + rs1.toNat < u.vlmax.toNat
    · have same : some (i + rs1.toNat) = some idx := (if_pos inside).symm.trans read
      cases same
      exact inside
    · have absent : none = some idx := (if_neg inside).symm.trans read
      cases absent
  | vrgather imm =>
    obtain ⟨rfl, inside⟩ := VectorUnit.gathered_eq_some read
    exact inside
  | vrgatherVv vs1 =>
    obtain ⟨rfl, inside⟩ := VectorUnit.gathered_eq_some read
    exact inside
  | vrgatherei16 vs1 =>
    obtain ⟨rfl, inside⟩ := VectorUnit.gathered_eq_some read
    exact inside

namespace Permutation

variable {op : Permutation xlen}

section

variable (operands : op.LegalOperands u masked vd vs2)

include operands

theorem LegalOperands.aligned : Aligned u vd ∧ Aligned u vs2 ∧ (masked = true → vd ≠ 0) := by
  cases op with
  | vslideup _ => exact ⟨operands.1, operands.2.1, operands.2.2.1⟩
  | vslidedown _ => exact operands
  | vrgather _ => exact ⟨operands.1, operands.2.1, operands.2.2.1⟩
  | vrgatherVv _ => exact ⟨operands.1, operands.2.1, operands.2.2.1⟩
  | vrgatherei16 _ => exact ⟨operands.1, operands.2.1, operands.2.2.1⟩

theorem LegalOperands.accepted
    (least : -3 ≤ u.emulLog 0) : op.refused u vd vs2 = false := by
  have vdValid := idxInvalid_eq_false_iff.mpr operands.aligned.1
  have vs2Valid := idxInvalid_eq_false_iff.mpr operands.aligned.2.1
  unfold refused
  cases op with
  | vslideup _ => simp [vdValid, vs2Valid]
  | vslidedown _ => simp [vdValid, vs2Valid]
  | vrgather _ => simp [vdValid, vs2Valid]
  | vrgatherVv vs1 =>
    have vs1Valid : u.idxInvalid vs1 = false := idxInvalid_eq_false_iff.mpr operands.2.2.2.2.1
    simp [vdValid, vs2Valid, vs1Valid]
  | vrgatherei16 vs1 =>
    obtain ⟨-, -, -, -, most, whole, -⟩ := operands
    simp [vdValid, vs2Valid, index_accepted least most whole]

theorem LegalOperands.index_apart (shaped : Shaped u)
    {j a : Nat} (less : j < u.vlmax.toNat) (inside : op.indexCell u j a) : ¬InGroup u vd a := by
  intro group
  cases op with
  | vslideup _ => exact inside
  | vslidedown _ => exact inside
  | vrgather _ => exact inside
  | vrgatherVv vs1 =>
    obtain ⟨vdAligned, -, -, -, vs1Aligned, differ⟩ := operands
    exact vdAligned.groups_apart vs1Aligned differ group (shaped.cell_inGroup less inside)
  | vrgatherei16 vs1 =>
    obtain ⟨-, -, -, -, -, -, apart⟩ := operands
    obtain ⟨above, below⟩ := shaped.index_inGroup less inside
    rcases apart with before | behind
    · exact not_both_before before group.2 above
    · exact not_both_before behind below group.1

theorem LegalOperands.element_apart
    (shaped : Shaped u) {i j idx a : Nat} {m : Memory} (earlier : i < j) (less : j < u.vlmax.toNat)
    (read : op.index u j m = some idx) (stored : Cell u.eew (u.cell u.eew vd i) a) :
    ¬Cell u.eew (u.cell u.eew vs2 idx) a := by
  intro inside
  have group := shaped.cell_inGroup (show i < u.vlmax.toNat by omega) stored
  have source := shaped.cell_inGroup (op.index_lt less read) inside
  have aligned := operands.aligned
  by_cases same : vd = vs2
  · cases op with
    | vslidedown rs1 =>
      by_cases below : j + rs1.toNat < u.vlmax.toNat
      · have index_eq : some (j + rs1.toNat) = some idx := (if_pos below).symm.trans read
        cases index_eq
        rw [← same] at inside
        exact cell_separate (by omega) stored inside
      · have absent : none = some idx := (if_neg below).symm.trans read
        cases absent
    | vslideup _ => exact operands.2.2.2 same
    | vrgather _ => exact operands.2.2.2 same
    | vrgatherVv _ => exact operands.2.2.2.1 same
    | vrgatherei16 _ => exact operands.2.2.2.1 same
  · exact aligned.1.groups_apart aligned.2.1 same group source

theorem LegalOperands.undisturbed (shaped : Shaped u)
    (m : Memory) :
    (moveLoop u masked vd vs2 u.eew (op.index u)).Undisturbed
      (moveReads u masked vs2 u.eew (op.index u) (op.indexCell u)) op.first u.vl.toNat m () := by
  have most := shaped.vl_le
  intro i j _ less below _ a read stored
  have group := shaped.cell_inGroup (show i < u.vlmax.toNat by omega) stored
  rcases read with ⟨yes, rfl⟩ | index | ⟨m', idx, read, inside⟩
  · have outside : Outside u vd 0 := inl (Nat.pos_of_ne_zero (operands.aligned.2.2 yes))
    exact outside.place (shaped.bit_lt below) group
  · exact operands.index_apart shaped (by omega) index group
  · exact operands.element_apart shaped less (by omega) read stored inside

end

theorem index_eq_source (op : Permutation xlen) (i : Nat) : op.index u i u.vr = op.source u i := by
  have gathered (idx : Nat) : u.gathered idx = if idx < u.vlmax.toNat then some idx else none := by
    unfold VectorUnit.gathered
    split
    · rw [if_neg (by omega)]
    · rw [if_pos (by omega)]
  cases op with
  | vslideup _ => rfl
  | vslidedown _ => rfl
  | vrgather _ => exact gathered _
  | vrgatherVv _ => exact gathered _
  | vrgatherei16 _ => exact gathered _

theorem LegalOperands.moves (operands : op.LegalOperands u masked vd vs2) (shaped : Shaped u)
    (start : u.vstart = 0) (least : -3 ≤ u.emulLog 0) :
    ∃ u', op.run u masked vd vs2 = some u' ∧ Moves op u masked vd vs2 u' := by
  have result : op.run u masked vd vs2 = some { u with vr :=
      ((moveLoop u masked vd vs2 u.eew (op.index u)).run op.first u.vl.toNat u.vr ()).1 } := by
    unfold run
    rw [operands.accepted least, if_neg Bool.false_ne_true, ← run_turns shaped start]
    exact foldlM_loop shaped.sew _ u.vr
  have depends := @moveLoop_reads _ u masked vd vs2 _ shaped.sew.whole _ _
    (op.index_congr shaped.sew.whole)
  have undisturbed := operands.undisturbed shaped u.vr
  refine ⟨_, result, ?_, ?_, rfl⟩
  · intro i above below active
    have separate : (moveLoop u masked vd vs2 u.eew (op.index u)).Separate op.first u.vl.toNat
        u.vr () := by
      intro i j _ less _ _ _ a inside
      exact cell_separate (by omega) inside
    have stored := depends.load_run undisturbed shaped.sew.whole separate above below active
    refine stored.trans ?_
    rw [← index_eq_source]
    rfl
  · intro a absent
    exact depends.run_untouched undisturbed absent

end Permutation

theorem readsBelow (shaped : Shaped u) (start : u.vstart = 0) (op : Permutation xlen) :
    ReadsBelow op u := by
  have most := shaped.vl_le
  have gathered {k idx : Nat} (read : u.gathered k = some idx) : idx < u.vlmax.toNat := by
    obtain ⟨rfl, inside⟩ := VectorUnit.gathered_eq_some read
    exact inside
  intro t member ei above below m idx read
  cases op with
  | vslideup rs1 =>
    cases mem_singleton.mp member
    change (Permutation.slideStart u rs1).toNat ≤ ei at above
    change ei < u.vl.toNat at below
    rw [slideStart_toNat start] at above
    have read' : (BitVec.ofNat xlen ei - rs1).toNat = idx := Option.some.inj read
    rw [toNat_ofNat_sub (by omega) (by omega)] at read'
    omega
  | vslidedown rs1 =>
    rcases mem_cons.mp member with rfl | member
    · change ei < (Permutation.sourceMax u rs1).toNat at below
      rw [sourceMax_toNat] at below
      have read' : (BitVec.ofNat xlen ei + rs1).toNat = idx := Option.some.inj read
      rw [toNat_ofNat_add (by omega)] at read'
      omega
    · cases mem_singleton.mp member
      cases read
  | vrgather imm =>
    cases mem_singleton.mp member
    exact gathered read
  | vrgatherVv vs1 =>
    cases mem_singleton.mp member
    exact gathered read
  | vrgatherei16 vs1 =>
    cases mem_singleton.mp member
    exact gathered read

/-! ### The result of `vcompress` -/

theorem setBelow_succ (u : VectorUnit xlen) (vs1 i : Nat) :
    setBelow u vs1 (i + 1) = setBelow u vs1 i + if u.bit vs1 i then 1 else 0 := by
  unfold setBelow
  rw [range_succ, countP_append, countP_singleton]

theorem setBelow_le (u : VectorUnit xlen) (vs1 i : Nat) : setBelow u vs1 i ≤ i :=
  countP_le_length.trans (Nat.le_of_eq length_range)

theorem setBelow_mono (u : VectorUnit xlen) (vs1 : Nat) {i j : Nat} (le : i ≤ j) :
    setBelow u vs1 i ≤ setBelow u vs1 j := by
  induction le with
  | refl => exact Nat.le_refl _
  | step _ ih =>
    rw [setBelow_succ]
    omega

theorem setBelow_lt {vs1 i j : Nat} (less : i < j) (set : u.bit vs1 i = true) :
    setBelow u vs1 i < setBelow u vs1 j := by
  have after := setBelow_mono u vs1 less
  rw [setBelow_succ, if_pos set] at after
  exact after

def compressReads (u : VectorUnit xlen) (vs2 vs1 n i : Nat) : Set Nat :=
  fun a => a = u.place vs1 (i / 8) ∨ Cell n (u.cell n vs2 i) a

theorem compressLoop_reads {n vs1 : Nat} (whole : 8 ∣ n) :
    (compressLoop u vd vs2 vs1 n).Reads (compressReads u vs2 vs1 n) where
  active {i m m'} same := by
    have byte := same (u.place vs1 (i / 8)) (inl rfl)
    unfold compressLoop VectorUnit.bitIn
    simp [byte]
  value _ same := load_congr whole fun b inside => same b (inr inside)
  next _ _ := rfl

theorem compressLoop_stateAt (u : VectorUnit xlen) (vd vs2 vs1 n i : Nat) :
    (compressLoop u vd vs2 vs1 n).stateAt 0 u.vr 0 i = setBelow u vs1 i := by
  unfold StoreLoop.stateAt
  rw [Nat.sub_zero, ← range_eq_range']
  induction i with
  | zero => rfl
  | succ i ih =>
    unfold Tlib.Library.SequentialWrites.Loop.states at ih ⊢
    rw [range_succ, foldl_append, ih, setBelow_succ]
    change (if u.bit vs1 i then setBelow u vs1 i + 1 else setBelow u vs1 i) = _
    split
    · rfl
    · rfl

theorem CompressOperands.undisturbed {vs1 : Nat} (operands : CompressOperands u vd vs2 vs1)
    (shaped : Shaped u) :
    (compressLoop u vd vs2 vs1 u.eew).Undisturbed (compressReads u vs2 vs1 u.eew) 0 u.vl.toNat
      u.vr 0 := by
  obtain ⟨vdAligned, vs2Aligned, differ, outside⟩ := operands
  have most := shaped.vl_le
  intro i j _ less below _ a read stored
  rw [compressLoop_stateAt] at stored
  have place := setBelow_le u vs1 i
  have group : InGroup u vd a :=
    shaped.cell_inGroup (show setBelow u vs1 i < u.vlmax.toNat by omega) stored
  rcases read with rfl | inside
  · exact outside.place (shaped.bit_lt below) group
  · exact vdAligned.groups_apart vs2Aligned differ group
      (shaped.cell_inGroup (show j < u.vlmax.toNat by omega) inside)

theorem CompressOperands.packs_iff {vs1 : Nat} (operands : CompressOperands u vd vs2 vs1)
    (shaped : Shaped u) (start : u.vstart = 0) :
    (∃ u', helperVcompressMvv u vd vs2 vs1 = some u' ∧ Packs u vd vs2 vs1 u') ↔ Aligned u vs1 := by
  have vdValid := idxInvalid_eq_false_iff.mpr operands.1
  have vs2Valid := idxInvalid_eq_false_iff.mpr operands.2.1
  rw [← idxInvalid_eq_false_iff]
  constructor
  · rintro ⟨u', result, -⟩
    rw [← Bool.not_eq_true]
    intro invalid
    unfold helperVcompressMvv at result
    rw [invalid, Bool.or_true, if_pos rfl] at result
    cases result
  · intro vs1Valid
    have result : helperVcompressMvv u vd vs2 vs1 = some { u with vr :=
        ((compressLoop u vd vs2 vs1 u.eew).run 0 u.vl.toNat u.vr 0).1 } := by
      have zero : decide (u.vstart ≠ 0) = false := decide_eq_false (not_not_intro start)
      unfold helperVcompressMvv
      rw [vdValid, vs2Valid, vs1Valid, zero]
      exact VectorUnit.loop_eq shaped.sew _ _ _ _
    have depends := @compressLoop_reads _ u vd vs2 _ vs1 shaped.sew.whole
    have undisturbed := operands.undisturbed shaped
    refine ⟨_, result, ?_, ?_, rfl⟩
    · intro i less set
      have separate : (compressLoop u vd vs2 vs1 u.eew).Separate 0 u.vl.toNat u.vr 0 := by
        intro i j _ earlier _ active _ a inside
        rw [compressLoop_stateAt] at inside ⊢
        exact cell_separate (setBelow_lt earlier active).ne inside
      have stored := depends.load_run undisturbed shaped.sew.whole separate (Nat.zero_le i) less set
      rw [compressLoop_stateAt] at stored
      exact stored
    · intro a absent
      apply depends.run_untouched undisturbed
      intro i _ less active
      rw [compressLoop_stateAt]
      exact absent _ (setBelow_lt less active)

end

/-- The permutations move the elements that are asked for, for every `vl`, mask and scalar, and
read none behind `VLMAX`; `vcompress` does exactly when the number of its mask register is
aligned to a group. -/
theorem permutations_follow (xlen_eq : xlen = 32 ∨ xlen = 64) {u : VectorUnit xlen} (legal : Legal u)
    (start : u.vstart = 0) (vd vs2 : Nat) :
    (∀ (op : Permutation xlen) (masked : Bool), ReadsBelow op u ∧
        (op.LegalOperands u masked vd vs2 →
          ∃ u', op.run u masked vd vs2 = some u' ∧ Moves op u masked vd vs2 u')) ∧
      (∀ i < u.vl.toNat, i < u.vlmax.toNat) ∧
      ∀ vs1, CompressOperands u vd vs2 vs1 →
        ((∃ u', helperVcompressMvv u vd vs2 vs1 = some u' ∧ Packs u vd vs2 vs1 u') ↔
          Aligned u vs1) := by
  have shaped := shaped_of_legal xlen_eq legal
  refine ⟨?_, ?_, ?_⟩
  · intro op masked
    exact ⟨readsBelow shaped start op,
      fun operands => operands.moves shaped start (legal.narrow xlen_eq)⟩
  · intro i less
    exact Nat.lt_of_lt_of_le less shaped.vl_le
  · intro vs1 operands
    exact operands.packs_iff shaped start

/-! ### A unit with groups of two registers -/

/-- `e8, m2` with `vl` of 2, and registers of the given bytes. -/
def m2Unit (vr : Nat → BitVec 8) : VectorUnit 64 :=
  { resetUnit 64 with vsew := 8, vtype := 1, vlmul := 1, vlmax := 128, vl := 2, vr := vr }

theorem m2Unit_legal (vr : Nat → BitVec 8) : Legal (m2Unit vr) := by
  have sizes : Sizes (resetUnit 64) 9 6 := ⟨rfl, rfl, by decide, by decide, by decide, by decide⟩
  have supported : ¬Unsupported (resetUnit 64) 1 := by
    rintro (reserved | narrow | ⟨i, above, set⟩)
    · exact absurd reserved (by decide)
    · exact absurd ((narrow_iff sizes 1).mp narrow) (by decide)
    · rw [ofNat_eq_ofNat, getLsbD_one, decide_eq_true (by decide : 0 < 64),
        Bool.true_and, decide_eq_true_eq] at set
      omega
  have vlmax : (helperVsetvl (resetUnit 64) 1 2 2 1 false).vlmax.toNat = 128 := by
    rw [(helperVsetvl_vlmax (.inr rfl) sizes).1 supported,
      vlmaxOf_eq sizes (fitting_of_supported sizes supported)]
    decide
  have vtype : (m2Unit vr).vtype = (helperVsetvl (resetUnit 64) 1 2 2 1 false).vtype :=
    (if_neg fun set => supported ((isVill_iff (.inr rfl) sizes 1).mp set)).symm
  have vl : (helperVsetvl (resetUnit 64) 1 2 2 1 false).vl.toNat = 2 := by
    rw [helperVsetvl_vl, vlmax]
    decide
  refine .other (.vsetvl (.reset rfl rfl) supported 1 2 2 false) rfl ?_ vtype rfl ?_ ?_
  · change (8 : BitVec 64) = (1 : BitVec 64) <<< ((getVtypeVsew (1 : BitVec 64)).toNat + 3)
    decide
  · exact eq_of_toNat_eq vlmax.symm
  · rw [le_def, vl]
    exact Nat.le_refl 2

/-- A slide by one down in place, and a mask in `v8` for groups of two registers. -/
theorem permutations_follow_m2 :
    (∃ u', (Permutation.vslidedown 1).run (m2Unit fun _ => 3) true 2 2 = some u' ∧
        Moves (.vslidedown 1) (m2Unit fun _ => 3) true 2 2 u') ∧
      ∃ u', helperVcompressMvv (m2Unit fun _ => 3) 2 4 8 = some u' ∧
        Packs (m2Unit fun _ => 3) 2 4 8 u' :=
  ⟨((permutations_follow (.inr rfl) (m2Unit_legal _) rfl 2 2).1 (.vslidedown 1) true).2
      (by decide),
    ((permutations_follow (.inr rfl) (m2Unit_legal _) rfl 2 4).2.2 8 (by decide)).mpr (by decide)⟩

/-- A mask in `v1` is refused as if it were a group of two registers. -/
theorem vcompress_refuses_mask :
    ¬∀ (u : VectorUnit 64), Legal u → u.vstart = 0 → ∀ vd vs2 vs1 : Nat,
      CompressOperands u vd vs2 vs1 →
        ∃ u', helperVcompressMvv u vd vs2 vs1 = some u' ∧ Packs u vd vs2 vs1 u' := by
  intro claim
  obtain ⟨u', result, -⟩ := claim (m2Unit fun _ => 3) (m2Unit_legal _) rfl 2 4 1 (by decide)
  cases result

end Tlib.Riscv.Vector
