import Tlib.Riscv.VectorElements
import Tlib.Riscv.VectorSetFirst

/-!
Contract: counts of set mask bits as elements, and the mask instructions as a whole.

Owns: `helper_viota` and its result element by element, also where the mask lies in the destination.
-/

namespace Tlib.Riscv.Vector

open Tlib.Library.ByteElements BitVec List

variable {xlen : Nat}

/-- One turn of the loop; the source bit is read after the store. -/
def iotaLoop (u : VectorUnit xlen) (masked : Bool) (vd vs2 n : Nat) : StoreLoop n (BitVec 64) where
  active ei m := u.isElementActive masked m ei
  cell ei _ := u.cell n vd ei
  value _ _ cnt := cnt.setWidth n
  next ei m cnt :=
    cnt + if u.bitIn ((store (u.cell n vd ei) (cnt.setWidth n)).apply m) vs2 ei then 1 else 0

/-- `helper_viota` and `helper_viota_m` -/
def helperViota (u : VectorUnit xlen) (masked : Bool) (vd vs2 : Nat) : Option (VectorUnit xlen) :=
  if u.idxInvalid vd || u.vstart ≠ 0 then none
  else u.loop (iotaLoop u masked vd vs2 u.eew) 0 u.vl.toNat 0

def activeBit (u : VectorUnit xlen) (masked : Bool) (vs2 i : Nat) : Bool :=
  u.isElementActive masked u.vr i && u.bit vs2 i

def activeSet (u : VectorUnit xlen) (masked : Bool) (vs2 i : Nat) : Nat :=
  (range i).countP (activeBit u masked vs2)

/-- The elements are the counts, and everything else stays. -/
structure FollowsIota (u : VectorUnit xlen) (masked : Bool) (vd vs2 : Nat)
    (u' : VectorUnit xlen) : Prop where
  active : ∀ i < u.vl.toNat, u.isElementActive masked u.vr i = true →
    u'.element u.eew vd i = BitVec.ofNat u.eew (activeSet u masked vs2 i)
  others : ∀ a, (∀ i < u.vl.toNat, u.isElementActive masked u.vr i = true →
    ¬Cell u.eew (u.cell u.eew vd i) a) → u'.vr a = u.vr a
  frame : { u' with vr := u.vr } = u

section

variable {u : VectorUnit xlen} {masked : Bool} {vd vs2 : Nat}

def iotaReads (u : VectorUnit xlen) (masked : Bool) (vs2 i : Nat) : Set Nat :=
  fun a => masked = true ∧ a = u.place 0 (i / 8) ∨ a = u.place vs2 (i / 8)

theorem iotaLoop_reads (n : Nat) : (iotaLoop u masked vd vs2 n).Reads (iotaReads u masked vs2) where
  active {i m m'} same := isElementActive_congr fun yes => same _ (Or.inl ⟨yes, rfl⟩)
  value _ _ := rfl
  next {i m m'} s same := by
    have bit := same (u.place vs2 (i / 8)) (Or.inr rfl)
    unfold iotaLoop VectorUnit.bitIn Tlib.Library.SequentialWrites.Patch.apply
    simp [bit]

structure MasksOutside (u : VectorUnit xlen) (masked : Bool) (vd vs2 : Nat) : Prop where
  source : Outside u vd vs2
  mask : masked = true → Outside u vd 0

theorem MasksOutside.read (outside : MasksOutside u masked vd vs2) (shaped : Shaped u) {i j : Nat}
    (first : i < u.vl.toNat) (later : j < u.vl.toNat) {a : Nat} (read : a ∈ iotaReads u masked vs2 j) :
    ¬Cell u.eew (u.cell u.eew vd i) a := by
  intro inside
  have most := shaped.vl_le
  have group := shaped.cell_inGroup (show i < u.vlmax.toNat by omega) inside
  have byte := shaped.bit_lt later
  rcases read with ⟨yes, rfl⟩ | rfl
  · exact (outside.mask yes).place byte group
  · exact outside.source.place byte group

theorem iotaLoop_stateAt (outside : MasksOutside u masked vd vs2) (shaped : Shaped u) {i : Nat}
    (le : i ≤ u.vl.toNat) :
    (iotaLoop u masked vd vs2 u.eew).stateAt 0 u.vr 0 i =
      BitVec.ofNat 64 (activeSet u masked vs2 i) := by
  unfold StoreLoop.stateAt
  rw [Nat.sub_zero, ← range_eq_range']
  induction i with
  | zero => rfl
  | succ i ih =>
    have untouched (cnt : BitVec 64) :
        u.bitIn ((store (u.cell u.eew vd i) (cnt.setWidth u.eew)).apply u.vr) vs2 i =
          u.bit vs2 i := by
      have absent := outside.read shaped (i := i) (j := i) (by omega) (by omega)
        (a := u.place vs2 (i / 8)) (Or.inr rfl)
      have kept : (store (u.cell u.eew vd i) (cnt.setWidth u.eew)).apply u.vr
          (u.place vs2 (i / 8)) = u.vr (u.place vs2 (i / 8)) := by
        unfold Tlib.Library.SequentialWrites.Patch.apply
        rw [show store (u.cell u.eew vd i) (cnt.setWidth u.eew) (u.place vs2 (i / 8)) = none from
          if_neg absent, Option.getD_none]
      unfold VectorUnit.bitIn
      rw [kept]
      rfl
    have before := ih (by omega)
    unfold Tlib.Library.SequentialWrites.Loop.states at before ⊢
    rw [range_succ, foldl_append, before]
    unfold activeSet
    rw [range_succ, countP_append, ofNat_add]
    change (if u.isElementActive masked u.vr i then _ + _ else _) = _
    by_cases active : u.isElementActive masked u.vr i = true
    · rw [if_pos active, untouched]
      cases set : u.bit vs2 i <;> simp [activeBit, active, set]
    · rw [if_neg active]
      simp [activeBit, active]

theorem helperViota_follows (shaped : Shaped u) (outside : MasksOutside u masked vd vs2) :
    if u.idxInvalid vd = true ∨ u.vstart ≠ 0 then helperViota u masked vd vs2 = none
    else ∃ u', helperViota u masked vd vs2 = some u' ∧ FollowsIota u masked vd vs2 u' := by
  unfold helperViota VectorUnit.loop
  split
  next refused => rw [if_pos (by simpa using refused)]
  next accepted =>
    rw [if_neg (by simpa using accepted), if_pos shaped.sew]
    refine ⟨_, rfl, ?_⟩
    have undisturbed : (iotaLoop u masked vd vs2 u.eew).Undisturbed (iotaReads u masked vs2) 0
        u.vl.toNat u.vr 0 := by
      intro i j _ less below _ a read
      exact outside.read shaped (by omega) below read
    have separate : (iotaLoop u masked vd vs2 u.eew).Separate 0 u.vl.toNat u.vr 0 := by
      intro i j _ less _ _ _ a inside
      exact cell_separate (by omega) inside
    constructor
    · intro i less active
      have stored := (iotaLoop_reads u.eew).load_run undisturbed shaped.sew.whole separate
        (Nat.zero_le i) less active
      refine stored.trans ?_
      rw [iotaLoop_stateAt outside shaped less.le]
      apply setWidth_ofNat_of_le
      rcases shaped.sew with width | width | width | width <;> rw [width] <;> decide
    · intro a absent
      apply (iotaLoop_reads u.eew).run_untouched undisturbed
      intro i _ less active
      exact absent i less active
    · rfl

theorem bit_and (u : VectorUnit xlen) (vs2 i : Nat) :
    maskBit (fun i => u.byte 0 i &&& u.byte vs2 i) i = activeBit u true vs2 i :=
  getLsbD_and

theorem bit_plain (u : VectorUnit xlen) (vs2 i : Nat) :
    maskBit (u.byte vs2) i = activeBit u false vs2 i := rfl

def vpopc (u : VectorUnit xlen) (masked : Bool) (vs2 : Nat) : Option (BitVec xlen) :=
  if masked then helperVpopcM u vs2 else helperVpopc u vs2

def vfirst (u : VectorUnit xlen) (masked : Bool) (vs2 : Nat) : Option Int :=
  if masked then helperVfirstM u vs2 else helperVfirst u vs2

def vmsbf (u : VectorUnit xlen) (masked : Bool) (vd vs2 : Nat) : Option (VectorUnit xlen) :=
  if masked then helperVmsbfM u vd vs2 else helperVmsbf u vd vs2

def vmsif (u : VectorUnit xlen) (masked : Bool) (vd vs2 : Nat) : Option (VectorUnit xlen) :=
  if masked then helperVmsifM u vd vs2 else helperVmsif u vd vs2

def vmsof (u : VectorUnit xlen) (masked : Bool) (vd vs2 : Nat) : Option (VectorUnit xlen) :=
  if masked then helperVmsofM u vd vs2 else helperVmsof u vd vs2

structure MasksFollow (u : VectorUnit xlen) (masked : Bool) (vd vs2 : Nat) : Prop where
  vpopc : ∃ cnt, vpopc u masked vs2 = some cnt ∧ cnt.toNat = activeSet u masked vs2 u.vl.toNat
  vfirst : ∃ found, vfirst u masked vs2 = some found ∧
    ((found = -1 ∧ ∀ i < u.vl.toNat, activeBit u masked vs2 i = false) ∨
      ∃ i : Nat, found = i ∧ i < u.vl.toNat ∧ activeBit u masked vs2 i = true ∧
        ∀ j < i, activeBit u masked vs2 j = false)
  vmsbf : ∃ u', vmsbf u masked vd vs2 = some u' ∧
    FollowsRule beforeFirst (u.isElementActive masked u.vr) (activeBit u masked vs2) vd u u'
  vmsif : ∃ u', vmsif u masked vd vs2 = some u' ∧
    FollowsRule upToFirst (u.isElementActive masked u.vr) (activeBit u masked vs2) vd u u'
  vmsof : ∃ u', vmsof u masked vd vs2 = some u' ∧
    FollowsRule onlyFirst (u.isElementActive masked u.vr) (activeBit u masked vs2) vd u u'
  viota : u.idxInvalid vd = false → MasksOutside u masked vd vs2 →
    ∃ u', helperViota u masked vd vs2 = some u' ∧ FollowsIota u masked vd vs2 u'

structure MasksRefused (u : VectorUnit xlen) (masked : Bool) (vd vs2 : Nat) : Prop where
  vpopc : vpopc u masked vs2 = none
  vfirst : vfirst u masked vs2 = none
  vmsbf : vmsbf u masked vd vs2 = none
  vmsif : vmsif u masked vd vs2 = none
  vmsof : vmsof u masked vd vs2 = none
  viota : helperViota u masked vd vs2 = none

theorem maskBits_eq_active (u : VectorUnit xlen) (i : Nat) :
    maskBit (fun _ => (0xff : BitVec 8)) i = u.isElementActive false u.vr i := by
  have ones : ∀ k < 8, (0xff : BitVec 8).getLsbD k = true := by decide
  exact ones (i % 8) (Nat.mod_lt i (by decide))

theorem firstRule_follows (shaped : Shaped u) (start : u.vstart = 0) {p : FirstRule}
    {rule : BitRule} (follows : p.Follows rule) (masked : Bool) (vd vs2 : Nat) :
    ∃ u', (if masked then (p.masked vd vs2).run u else (p.plain vd vs2).run u) = some u' ∧
      FollowsRule rule (u.isElementActive masked u.vr) (activeBit u masked vs2) vd u u' := by
  have fits : u.vl.toNat ≤ 8 * u.vlenb.toNat := shaped.vl_le.trans shaped.bits
  cases masked with
  | false =>
    have result := (plain_merges p vd vs2).followsRule follows fits
    rw [if_pos start] at result
    have bits : maskBit (fun i => 0xff &&& u.byte vs2 i) = activeBit u false vs2 := by
      funext i
      simp only [ones_and]
      exact bit_plain u vs2 i
    have active : maskBit (fun _ => (0xff : BitVec 8)) = u.isElementActive false u.vr := by
      funext i
      exact maskBits_eq_active u i
    rw [bits, active] at result
    exact result
  | true =>
    have result := (masked_merges p vd vs2).followsRule follows fits
    rw [if_pos start] at result
    have bits : maskBit (fun i => u.byte 0 i &&& u.byte vs2 i) = activeBit u true vs2 := by
      funext i
      exact bit_and u vs2 i
    have active : maskBit (fun i => u.byte 0 i) = u.isElementActive true u.vr := rfl
    rw [bits, active] at result
    exact result

theorem countBits_follows (start : u.vstart = 0) (masked : Bool) (vs2 : Nat) :
    ∃ cnt, vpopc u masked vs2 = some cnt ∧ cnt.toNat = activeSet u masked vs2 u.vl.toNat := by
  have counted : vpopc u masked vs2 =
      some (BitVec.ofNat xlen (activeSet u masked vs2 u.vl.toNat)) := by
    cases masked with
    | false => exact (countBits_eq u _).trans (if_pos start)
    | true =>
      refine (countBits_eq u _).trans ((if_pos start).trans ?_)
      have bits : maskBit (fun i => u.byte 0 i &&& u.byte vs2 i) = activeBit u true vs2 := by
        funext i
        exact bit_and u vs2 i
      rw [bits]
      rfl
  refine ⟨_, counted, ?_⟩
  have most : activeSet u masked vs2 u.vl.toNat ≤ u.vl.toNat :=
    countP_le_length.trans (Nat.le_of_eq length_range)
  exact Nat.mod_eq_of_lt (Nat.lt_of_le_of_lt most u.vl.isLt)

theorem findFirst_follows (start : u.vstart = 0) (masked : Bool) (vs2 : Nat) :
    ∃ found, vfirst u masked vs2 = some found ∧
      ((found = -1 ∧ ∀ i < u.vl.toNat, activeBit u masked vs2 i = false) ∨
        ∃ i : Nat, found = i ∧ i < u.vl.toNat ∧ activeBit u masked vs2 i = true ∧
          ∀ j < i, activeBit u masked vs2 j = false) := by
  have clean {source : Nat → BitVec 8} {found : Int}
      (bits : maskBit source = activeBit u masked vs2)
      (first : IsFirst source 0 u.vl.toNat found) :
      (found = -1 ∧ ∀ i < u.vl.toNat, activeBit u masked vs2 i = false) ∨
        ∃ i : Nat, found = i ∧ i < u.vl.toNat ∧ activeBit u masked vs2 i = true ∧
          ∀ j < i, activeBit u masked vs2 j = false := by
    unfold IsFirst at first
    rw [bits] at first
    rcases first with ⟨absent, clear⟩ | ⟨i, same, -, below, set, before⟩
    · exact Or.inl ⟨absent, fun i less => clear i (Nat.zero_le i) less⟩
    · exact Or.inr ⟨i, same, below, set, fun j less => before j (Nat.zero_le j) less⟩
  cases masked with
  | false =>
    have result := findFirst_isFirst u (u.byte vs2)
    rw [if_pos start] at result
    obtain ⟨found, same, first⟩ := result
    exact ⟨found, same, clean rfl first⟩
  | true =>
    have result := findFirst_isFirst u fun i => u.byte 0 i &&& u.byte vs2 i
    rw [if_pos start] at result
    obtain ⟨found, same, first⟩ := result
    refine ⟨found, same, clean ?_ first⟩
    funext i
    exact bit_and u vs2 i

end

/-- The instructions on masks follow their definitions for every `vl`, mask and register, and
`viota` does when the masks it reads are not in the group it writes; with `vstart` all are
refused. -/
theorem masks_follow (xlen_eq : xlen = 32 ∨ xlen = 64) {u : VectorUnit xlen} (legal : Legal u)
    (masked : Bool) (vd vs2 : Nat) :
    (u.vstart = 0 → MasksFollow u masked vd vs2) ∧
      (u.vstart ≠ 0 → MasksRefused u masked vd vs2) := by
  have shaped := shaped_of_legal xlen_eq legal
  constructor
  · intro start
    exact
      { vpopc := countBits_follows start masked vs2
        vfirst := findFirst_follows start masked vs2
        vmsbf := firstRule_follows shaped start vmsbf_follows masked vd vs2
        vmsif := firstRule_follows shaped start vmsif_follows masked vd vs2
        vmsof := firstRule_follows shaped start vmsof_follows masked vd vs2
        viota := by
          intro aligned outside
          have result := helperViota_follows shaped outside
          rw [if_neg (by simp [aligned, start])] at result
          exact result }
  · intro start
    exact
      { vpopc := by cases masked <;> exact if_pos start
        vfirst := by cases masked <;> exact if_pos start
        vmsbf := by cases masked <;> exact if_pos start
        vmsif := by cases masked <;> exact if_pos start
        vmsof := by cases masked <;> exact if_pos start
        viota := if_pos (Bool.or_eq_true_iff.mpr (Or.inr (decide_eq_true start))) }

/-- `e8, m1` with `vl` of 2, and registers of the given bytes. -/
def e8Unit (vr : Nat → BitVec 8) : VectorUnit 64 :=
  { resetUnit 64 with vsew := 8, vlmax := 64, vl := 2, vr := vr }

theorem e8Unit_legal (vr : Nat → BitVec 8) : Legal (e8Unit vr) := by
  have sizes : Sizes (resetUnit 64) 9 6 := ⟨rfl, rfl, by decide, by decide, by decide, by decide⟩
  have supported : ¬Unsupported (resetUnit 64) 0 := by
    rintro (reserved | narrow | ⟨i, -, set⟩)
    · exact absurd reserved (by decide)
    · exact absurd ((narrow_iff sizes 0).mp narrow) (by decide)
    · rw [ofNat_eq_ofNat, getLsbD_zero] at set
      cases set
  have vlmax : (helperVsetvl (resetUnit 64) 1 2 2 0 false).vlmax.toNat = 64 := by
    rw [(helperVsetvl_vlmax (.inr rfl) sizes).1 supported,
      vlmaxOf_eq sizes (fitting_of_supported sizes supported)]
    decide
  have vtype : (e8Unit vr).vtype = (helperVsetvl (resetUnit 64) 1 2 2 0 false).vtype :=
    (if_neg fun set => supported ((isVill_iff (.inr rfl) sizes 0).mp set)).symm
  have vl : (helperVsetvl (resetUnit 64) 1 2 2 0 false).vl.toNat = 2 := by
    rw [helperVsetvl_vl, vlmax]
    decide
  refine .other (.vsetvl (.reset rfl rfl) supported 1 2 2 false) rfl ?_ vtype rfl ?_ ?_
  · change (8 : BitVec 64) = (1 : BitVec 64) <<< ((getVtypeVsew (0 : BitVec 64)).toNat + 3)
    decide
  · exact eq_of_toNat_eq vlmax.symm
  · rw [le_def, vl]
    exact Nat.le_refl 2

/-- The masked instructions on a mask in `v2`, with `v1` for the results. -/
theorem masks_follow_e8 : MasksFollow (e8Unit fun _ => 3) true 1 2 :=
  (masks_follow (.inr rfl) (e8Unit_legal _) true 1 2).1 rfl

/-- The first element that `viota` stores overwrites the source bit that it counts next, when
the source is its destination. -/
theorem viota_overwrites_source :
    ¬∀ (u : VectorUnit 64), Legal u → u.vstart = 0 → ∀ (masked : Bool) (vd vs2 : Nat),
      u.idxInvalid vd = false →
        ∃ u', helperViota u masked vd vs2 = some u' ∧ FollowsIota u masked vd vs2 u' := by
  intro claim
  obtain ⟨u', result, follows⟩ := claim (e8Unit fun _ => 3) (e8Unit_legal _) rfl false 1 1 (by decide)
  have element : (helperViota (e8Unit fun _ => 3) false 1 1).map (fun u' => u'.element 8 1 1) =
      some 0 := by decide
  rw [result] at element
  have counted := follows.active 1 (by decide) rfl
  have one : BitVec.ofNat 8 (activeSet (e8Unit fun _ => 3) false 1 1) = 1 := by decide
  have zero : u'.element 8 1 1 = 0 := Option.some.inj element
  exact absurd (zero.symm.trans (counted.trans one)) (by decide)

end Tlib.Riscv.Vector
