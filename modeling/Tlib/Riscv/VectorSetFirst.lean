import Tlib.Riscv.VectorMasks

/-!
Contract: the instructions that set the bits of a mask before, up to and at its first bit.

Owns: `helper_vmsbf`, `helper_vmsif` and `helper_vmsof` with their masked forms, byte by byte and as
rules on bits.
-/

namespace Tlib.Riscv.Vector

open Function BitVec Nat

variable {xlen : Nat}

/-- `V(x)[i] = v` -/
def VectorUnit.setByte (u : VectorUnit xlen) (x i : Nat) (v : BitVec 8) : VectorUnit xlen :=
  { u with vr := update u.vr (u.place x i) v }

/-- `0xffu << count` -/
def highBits (count : Nat) : BitVec 8 := (0xff : BitVec 8) <<< count

def setBeforeFirstBit (a : BitVec 8) : BitVec 8 := (a &&& -a) - 1

/-! ### Control flow -/

structure ByteStores (xlen : Nat) where
  source : VectorUnit xlen → Nat → BitVec 8
  before : VectorUnit xlen → Nat → VectorUnit xlen
  first : VectorUnit xlen → Nat → BitVec 8 → VectorUnit xlen
  behind : VectorUnit xlen → Nat → VectorUnit xlen
  lastBefore : VectorUnit xlen → Nat → Nat → VectorUnit xlen
  lastFirst : VectorUnit xlen → Nat → Nat → BitVec 8 → VectorUnit xlen
  lastBehind : VectorUnit xlen → Nat → Nat → VectorUnit xlen

def ByteStores.scan (ops : ByteStores xlen) :
    Nat → Nat → VectorUnit xlen → VectorUnit xlen × Nat × BitVec 8
  | 0, i, u => (u, i, 0xff)
  | turns + 1, i, u =>
    let tmp := setBeforeFirstBit (ops.source u i)
    if tmp ≠ 0xff then (u, i, tmp) else ops.scan turns (i + 1) (ops.before u i)

/-- The loop over the whole bytes that are left. -/
def ByteStores.clear (ops : ByteStores xlen) : Nat → Nat → VectorUnit xlen → VectorUnit xlen
  | 0, _, u => u
  | turns + 1, i, u => ops.clear turns (i + 1) (ops.behind u i)

def ByteStores.run (ops : ByteStores xlen) (u : VectorUnit xlen) : Option (VectorUnit xlen) :=
  if u.vstart ≠ 0 then none
  else
    let full := u.fullBytes
    let rest := u.restBits
    match ops.scan full 0 u with
    | (u, i, tmp) =>
      if tmp = 0xff ∧ rest ≠ 0 then
        let tmp := setBeforeFirstBit (lowBits rest &&& ops.source u i)
        some (if tmp ≠ 0xff then ops.lastFirst u i rest tmp else ops.lastBefore u i rest)
      else
        let u := if i < full then ops.first u i tmp else u
        let u := ops.clear (full - (i + 1)) (i + 1) u
        some (if rest ≠ 0 then ops.lastBehind u full rest else u)

/-! ### Stores -/

/-- How an instruction makes a byte, before its first bit and behind it. -/
structure FirstRule where
  ones : Bool
  shape : BitVec 8 → BitVec 8

def FirstRule.byte (p : FirstRule) : BitVec 8 := if p.ones then 0xff else 0

def FirstRule.plain (p : FirstRule) (vd vs2 : Nat) : ByteStores xlen where
  source u i := u.byte vs2 i
  before u i := u.setByte vd i p.byte
  first u i tmp := u.setByte vd i (p.shape tmp)
  behind u i := u.setByte vd i 0
  lastBefore u i rest :=
    u.setByte vd i (if p.ones then u.byte vd i ||| lowBits rest else u.byte vd i &&& highBits rest)
  lastFirst u i rest tmp :=
    let u := u.setByte vd i (u.byte vd i ||| lowBits rest &&& p.shape tmp)
    u.setByte vd i (u.byte vd i &&& (highBits rest ||| p.shape tmp))
  lastBehind u i rest := u.setByte vd i (u.byte vd i &&& highBits rest)

def FirstRule.masked (p : FirstRule) (vd vs2 : Nat) : ByteStores xlen where
  source u i := u.byte 0 i &&& u.byte vs2 i
  before u i :=
    u.setByte vd i (if p.ones then u.byte vd i ||| u.byte 0 i else u.byte vd i &&& ~~~u.byte 0 i)
  first u i tmp :=
    let u := u.setByte vd i (u.byte vd i ||| u.byte 0 i &&& p.shape tmp)
    u.setByte vd i (u.byte vd i &&& (~~~u.byte 0 i ||| p.shape tmp))
  behind u i := u.setByte vd i (u.byte vd i &&& ~~~u.byte 0 i)
  lastBefore u i rest :=
    u.setByte vd i (if p.ones then u.byte vd i ||| lowBits rest &&& u.byte 0 i
      else u.byte vd i &&& (highBits rest ||| ~~~u.byte 0 i))
  lastFirst u i rest tmp :=
    let u := u.setByte vd i (u.byte vd i ||| lowBits rest &&& u.byte 0 i &&& p.shape tmp)
    u.setByte vd i (u.byte vd i &&& (highBits rest ||| ~~~u.byte 0 i ||| p.shape tmp))
  lastBehind u i rest := u.setByte vd i (u.byte vd i &&& (highBits rest ||| ~~~u.byte 0 i))

/-! ### Instructions -/

def vmsbfRule : FirstRule := ⟨true, fun tmp => tmp⟩

def vmsifRule : FirstRule := ⟨true, fun tmp => tmp <<< 1 ||| 0b1⟩

def vmsofRule : FirstRule := ⟨false, fun tmp => (tmp <<< 1 ||| 0b1) ^^^ tmp⟩

section

variable (u : VectorUnit xlen) (vd vs2 : Nat)

def helperVmsbf : Option (VectorUnit xlen) := (vmsbfRule.plain vd vs2).run u

def helperVmsbfM : Option (VectorUnit xlen) := (vmsbfRule.masked vd vs2).run u

def helperVmsif : Option (VectorUnit xlen) := (vmsifRule.plain vd vs2).run u

def helperVmsifM : Option (VectorUnit xlen) := (vmsifRule.masked vd vs2).run u

def helperVmsof : Option (VectorUnit xlen) := (vmsofRule.plain vd vs2).run u

def helperVmsofM : Option (VectorUnit xlen) := (vmsofRule.masked vd vs2).run u

end

/-! ### Bit by bit -/

abbrev BitRule := Bool → Bool → Bool

def beforeFirst : BitRule := fun none_ here => none_ && !here

def upToFirst : BitRule := fun none_ _ => none_

def onlyFirst : BitRule := fun none_ here => none_ && here

def noneBefore (source : Nat → Bool) (i : Nat) : Bool := decide (∀ j < i, source j = false)

/-- The active bits below `vl` follow the rule, and everything else stays. -/
structure FollowsRule (rule : BitRule) (active source : Nat → Bool) (vd : Nat)
    (u u' : VectorUnit xlen) : Prop where
  set : ∀ i < u.vl.toNat, active i = true → u'.bit vd i = rule (noneBefore source i) (source i)
  inactive : ∀ i < u.vl.toNat, active i = false → u'.bit vd i = u.bit vd i
  tail : ∀ i, u.vl.toNat ≤ i → u'.bit vd i = u.bit vd i
  others : ∀ a, (∀ i, 8 * i < u.vl.toNat → a ≠ u.place vd i) → u'.vr a = u.vr a
  frame : { u' with vr := u.vr } = u

/-! ### Stores as merges -/

def merge (old mask new : BitVec 8) : BitVec 8 := old &&& ~~~mask ||| new &&& mask

structure Merges (ops : ByteStores xlen) (p : FirstRule) (vd vs2 : Nat)
    (active : VectorUnit xlen → Nat → BitVec 8) : Prop where
  stable : ∀ {u u' : VectorUnit xlen} {i : Nat}, (∀ x, u'.byte x i = u.byte x i) →
    active u' i = active u i
  source : ∀ u i, ops.source u i = active u i &&& u.byte vs2 i
  before : ∀ u i, ops.before u i = u.setByte vd i (merge (u.byte vd i) (active u i) p.byte)
  first : ∀ u i tmp,
    ops.first u i tmp = u.setByte vd i (merge (u.byte vd i) (active u i) (p.shape tmp))
  behind : ∀ u i, ops.behind u i = u.setByte vd i (merge (u.byte vd i) (active u i) 0)
  lastBefore : ∀ u i rest, ops.lastBefore u i rest =
    u.setByte vd i (merge (u.byte vd i) (active u i &&& lowBits rest) p.byte)
  lastFirst : ∀ u i rest tmp, ops.lastFirst u i rest tmp =
    u.setByte vd i (merge (u.byte vd i) (active u i &&& lowBits rest) (p.shape tmp))
  lastBehind : ∀ u i rest, ops.lastBehind u i rest =
    u.setByte vd i (merge (u.byte vd i) (active u i &&& lowBits rest) 0)

section

variable {u : VectorUnit xlen} {x y i j : Nat} {v w : BitVec 8}

theorem byte_setByte_self : (u.setByte x i v).byte x i = v := update_self ..

theorem byte_setByte (y j : Nat) :
    (u.setByte x i v).byte y j = if u.place y j = u.place x i then v else u.byte y j :=
  update_apply u.vr (u.place x i) v (u.place y j)

theorem setByte_setByte : (u.setByte x i v).setByte x i w = u.setByte x i w := by
  have same : update (update u.vr (u.place x i) v) (u.place x i) w =
      update u.vr (u.place x i) w := update_idem ..
  exact congrArg (fun vr => { u with vr := vr }) same

theorem highBits_eq (count : Nat) : highBits count = ~~~lowBits count := by
  unfold highBits lowBits
  rw [BitVec.not_not]

theorem getLsbD_merge (old mask new : BitVec 8) (k : Nat) :
    (merge old mask new).getLsbD k = if mask.getLsbD k then new.getLsbD k else old.getLsbD k := by
  unfold merge
  by_cases less : k < 8
  · simp only [getLsbD_or, getLsbD_and, getLsbD_not, less, decide_true,
      Bool.true_and]
    cases mask.getLsbD k <;> cases old.getLsbD k <;> cases new.getLsbD k <;> rfl
  · have far := Nat.le_of_not_lt less
    simp [getLsbD_of_ge _ k far]

theorem getLsbD_byte (p : FirstRule) {k : Nat} (less : k < 8) : p.byte.getLsbD k = p.ones := by
  have ones : ∀ k < 8, (0xff : BitVec 8).getLsbD k = true := by decide
  unfold FirstRule.byte
  cases p.ones with
  | false => simp
  | true => exact ones k less

theorem byte_ext {a b : BitVec 8} (same : ∀ k < 8, a.getLsbD k = b.getLsbD k) : a = b :=
  eq_of_getLsbD_eq same

theorem merge_ones (old new : BitVec 8) : merge old 0xff new = new := by
  apply byte_ext
  intro k less
  have ones : ∀ k < 8, (0xff : BitVec 8).getLsbD k = true := by decide
  rw [getLsbD_merge, if_pos (ones k less)]

theorem ones_and (a : BitVec 8) : 0xff &&& a = a := allOnes_and

theorem set_then_clear (old mask new : BitVec 8) :
    (old ||| mask &&& new) &&& (~~~mask ||| new) = merge old mask new := by
  apply byte_ext
  intro k less
  rw [getLsbD_merge]
  simp only [getLsbD_or, getLsbD_and, getLsbD_not, less, decide_true,
    Bool.true_and]
  cases mask.getLsbD k <;> cases old.getLsbD k <;> cases new.getLsbD k <;> rfl

theorem setOrClear_eq (p : FirstRule) (old mask : BitVec 8) :
    (if p.ones then old ||| mask else old &&& ~~~mask) = merge old mask p.byte := by
  apply byte_ext
  intro k less
  rw [getLsbD_merge, getLsbD_byte p less]
  cases p.ones with
  | false =>
    simp only [Bool.false_eq_true, if_false, getLsbD_and, getLsbD_not, less,
      decide_true, Bool.true_and]
    cases mask.getLsbD k <;> cases old.getLsbD k <;> rfl
  | true =>
    simp only [if_true, getLsbD_or]
    cases mask.getLsbD k <;> cases old.getLsbD k <;> rfl

theorem clear_eq (old mask : BitVec 8) : old &&& ~~~mask = merge old mask 0 := by
  unfold merge
  simp

theorem plain_merges (p : FirstRule) (vd vs2 : Nat) :
    Merges (@FirstRule.plain xlen p vd vs2) p vd vs2 fun _ _ => 0xff where
  stable _ := rfl
  source u i := (ones_and _).symm
  before u i := by
    rw [merge_ones]
    rfl
  first u i tmp := by
    rw [merge_ones]
    rfl
  behind u i := by
    rw [merge_ones]
    rfl
  lastBefore u i rest := by
    rw [ones_and, ← setOrClear_eq, ← highBits_eq]
    rfl
  lastFirst u i rest tmp := by
    rw [ones_and, ← set_then_clear, ← highBits_eq]
    refine setByte_setByte.trans ?_
    rw [byte_setByte_self]
  lastBehind u i rest := by
    rw [ones_and, ← clear_eq, ← highBits_eq]
    rfl

theorem masked_set_then_clear (vd i : Nat) (mask : BitVec 8) (new : BitVec 8) :
    let u' := u.setByte vd i (u.byte vd i ||| mask &&& u.byte 0 i &&& new)
    u'.setByte vd i (u'.byte vd i &&& (~~~mask ||| ~~~u'.byte 0 i ||| new)) =
      u.setByte vd i (merge (u.byte vd i) (u.byte 0 i &&& mask) new) := by
  refine setByte_setByte.trans ?_
  congr 1
  rw [byte_setByte_self, byte_setByte]
  by_cases own : u.place 0 i = u.place vd i
  · have same : u.byte 0 i = u.byte vd i := congrArg u.vr own
    rw [if_pos own, same]
    apply byte_ext
    intro k less
    rw [getLsbD_merge]
    simp only [getLsbD_or, getLsbD_and, getLsbD_not, less, decide_true,
      Bool.true_and]
    cases mask.getLsbD k <;> cases (u.byte vd i).getLsbD k <;> cases new.getLsbD k <;> rfl
  · rw [if_neg own]
    apply byte_ext
    intro k less
    rw [getLsbD_merge]
    simp only [getLsbD_or, getLsbD_and, getLsbD_not, less, decide_true,
      Bool.true_and]
    cases mask.getLsbD k <;> cases (u.byte vd i).getLsbD k <;> cases (u.byte 0 i).getLsbD k <;>
      cases new.getLsbD k <;> rfl

theorem not_ones : ~~~(0xff : BitVec 8) = 0#8 := by decide

theorem not_active (active : BitVec 8) (rest : Nat) :
    ~~~(active &&& lowBits rest) = highBits rest ||| ~~~active := by
  rw [highBits_eq, BitVec.not_and, BitVec.or_comm]

theorem masked_merges (p : FirstRule) (vd vs2 : Nat) :
    Merges (@FirstRule.masked xlen p vd vs2) p vd vs2 fun u i => u.byte 0 i where
  stable same := same 0
  source u i := rfl
  before u i := by
    rw [← setOrClear_eq]
    rfl
  first u i tmp := by
    have stores := masked_set_then_clear (u := u) vd i 0xff (p.shape tmp)
    simp only [ones_and, not_ones, BitVec.zero_or, BitVec.and_comm (x := u.byte 0 i)] at stores
    rw [BitVec.and_comm] at stores
    exact stores
  behind u i := by
    rw [← clear_eq]
    rfl
  lastBefore u i rest := by
    rw [← setOrClear_eq, not_active, BitVec.and_comm (u.byte 0 i)]
    rfl
  lastFirst u i rest tmp := by
    rw [← masked_set_then_clear, ← highBits_eq]
    rfl
  lastBehind u i rest := by
    rw [← clear_eq, not_active]
    rfl

end

/-! ### Bytes replaced from the start -/

/-- The first `count` bytes of a register are replaced. -/
def replaced (u : VectorUnit xlen) (vd count : Nat) (new : Nat → BitVec 8) : VectorUnit xlen :=
  { u with vr := fun a =>
      if u.place vd 0 ≤ a ∧ a < u.place vd count then new (a - u.place vd 0) else u.vr a }

section

variable {u : VectorUnit xlen} {vd count : Nat} {new : Nat → BitVec 8}

theorem replaced_zero (u : VectorUnit xlen) (vd : Nat) (new : Nat → BitVec 8) :
    replaced u vd 0 new = u := by
  have same : (fun a => if u.place vd 0 ≤ a ∧ a < u.place vd 0 then new (a - u.place vd 0)
      else u.vr a) = u.vr := by
    funext a
    rw [if_neg (by omega)]
  exact congrArg (fun vr => { u with vr := vr }) same

theorem setByte_replaced (u : VectorUnit xlen) (vd i : Nat) (new : Nat → BitVec 8) :
    (replaced u vd i new).setByte vd i (new i) = replaced u vd (i + 1) new := by
  have next : u.place vd (i + 1) = u.place vd i + 1 := rfl
  have start : u.place vd i = u.place vd 0 + i := rfl
  have same : update (replaced u vd i new).vr (u.place vd i) (new i) =
      (replaced u vd (i + 1) new).vr := by
    funext a
    rw [update_apply]
    change (if a = u.place vd i then new i else
      if u.place vd 0 ≤ a ∧ a < u.place vd i then new (a - u.place vd 0) else u.vr a) =
        if u.place vd 0 ≤ a ∧ a < u.place vd (i + 1) then new (a - u.place vd 0) else u.vr a
    by_cases here : a = u.place vd i
    · rw [if_pos here, if_pos (by omega)]
      congr 1
      omega
    · rw [if_neg here]
      by_cases below : u.place vd 0 ≤ a ∧ a < u.place vd i
      · rw [if_pos below, if_pos (by omega)]
      · rw [if_neg below, if_neg (by omega)]
  exact congrArg (fun vr => { u with vr := vr }) same

theorem byte_replaced {x i : Nat} (inside : i < u.vlenb.toNat) (le : count ≤ i) :
    (replaced u vd count new).byte x i = u.byte x i := by
  refine if_neg ?_
  rintro ⟨above, below⟩
  change u.place vd 0 ≤ u.place x i at above
  change u.place x i < u.place vd count at below
  unfold VectorUnit.place at above below
  generalize u.vlenb.toNat = b at inside above below
  rcases Nat.lt_trichotomy x vd with less | rfl | greater
  · have product : (x + 1) * b ≤ vd * b := Nat.mul_le_mul_right b less
    rw [Nat.succ_mul] at product
    omega
  · omega
  · have product : (vd + 1) * b ≤ x * b := Nat.mul_le_mul_right b greater
    rw [Nat.succ_mul] at product
    omega

theorem byte_replaced_of_lt {i : Nat} (less : i < count) :
    (replaced u vd count new).byte vd i = new i := by
  refine (if_pos ?_).trans ?_
  · change u.place vd 0 ≤ u.place vd i ∧ u.place vd i < u.place vd count
    unfold VectorUnit.place
    omega
  · change new (u.place vd i - u.place vd 0) = new i
    congr 1
    unfold VectorUnit.place
    omega

end

/-! ### The bytes of the result -/

section

variable (u : VectorUnit xlen) (p : FirstRule) (vd : Nat) (active source : Nat → BitVec 8)

/-- The bits of a byte that are below `vl`. -/
def bodyBits (i : Nat) : BitVec 8 := if i < u.fullBytes then 0xff else lowBits u.restBits

def NoneIn (i : Nat) : Prop := ∀ j < i, source j = 0

instance (i : Nat) : Decidable (NoneIn source i) := inferInstanceAs (Decidable (∀ j < i, _))

def newBits (i : Nat) : BitVec 8 :=
  if ¬NoneIn source i then 0
  else if bodyBits u i &&& source i = 0 then p.byte
  else p.shape (setBeforeFirstBit (bodyBits u i &&& source i))

def newByte (i : Nat) : BitVec 8 :=
  merge (u.byte vd i) (active i &&& bodyBits u i) (newBits u p source i)

/-- The number of bytes with bits below `vl`. -/
def bodyBytes : Nat := u.fullBytes + if u.restBits ≠ 0 then 1 else 0

end

theorem setBeforeFirstBit_eq_ones : ∀ a : BitVec 8, setBeforeFirstBit a = 0xff ↔ a = 0 := by
  decide +kernel

section

variable {u : VectorUnit xlen} {p : FirstRule} {vd vs2 : Nat} {ops : ByteStores xlen}
  {active : VectorUnit xlen → Nat → BitVec 8}

abbrev Merges.part (_ : Merges ops p vd vs2 active) (u : VectorUnit xlen) (count : Nat) :
    VectorUnit xlen :=
  replaced u vd count (newByte u p vd (active u) fun i => active u i &&& u.byte vs2 i)

theorem fits_bytes (fits : u.vl.toNat ≤ 8 * u.vlenb.toNat) {i : Nat} (less : i < bodyBytes u) :
    i < u.vlenb.toNat := by
  unfold bodyBytes VectorUnit.fullBytes VectorUnit.restBits at less
  split at less <;> omega

variable (merges : Merges ops p vd vs2 active) (fits : u.vl.toNat ≤ 8 * u.vlenb.toNat)

include fits

theorem Merges.part_byte {i : Nat} (less : i < bodyBytes u) (x : Nat) :
    (merges.part u i).byte x i = u.byte x i :=
  byte_replaced (fits_bytes fits less) (Nat.le_refl i)

theorem Merges.part_active {i : Nat} (less : i < bodyBytes u) :
    active (merges.part u i) i = active u i :=
  merges.stable fun x => merges.part_byte fits less x

theorem Merges.part_source {i : Nat} (less : i < bodyBytes u) :
    ops.source (merges.part u i) i = active u i &&& u.byte vs2 i := by
  rw [merges.source, merges.part_active fits less, merges.part_byte fits less]

theorem Merges.part_store {i : Nat} (less : i < bodyBytes u) {mask new : BitVec 8}
    (body : mask = active u i &&& bodyBits u i)
    (bits : new = newBits u p (fun i => active u i &&& u.byte vs2 i) i) :
    (merges.part u i).setByte vd i (merge ((merges.part u i).byte vd i) mask new) =
      merges.part u (i + 1) := by
  rw [merges.part_byte fits less, body, bits]
  exact setByte_replaced u vd i _

omit fits in
theorem lt_bodyBytes {i : Nat} (less : i < u.fullBytes) : i < bodyBytes u :=
  Nat.lt_of_lt_of_le less (Nat.le_add_right _ _)

omit fits in
theorem whole_bodyBits {i : Nat} (less : i < u.fullBytes) (a : BitVec 8) :
    bodyBits u i &&& a = a := by
  unfold bodyBits
  rw [if_pos less, ones_and]

omit fits in
theorem whole_mask {i : Nat} (less : i < u.fullBytes) (a : BitVec 8) : a = a &&& bodyBits u i := by
  rw [BitVec.and_comm, whole_bodyBits less]

omit fits in
theorem NoneIn.succ {source : Nat → BitVec 8} {i : Nat} (none_ : NoneIn source i)
    (clear : source i = 0) : NoneIn source (i + 1) := by
  intro j less
  rcases Nat.lt_succ_iff_lt_or_eq.mp less with before | rfl
  · exact none_ j before
  · exact clear

theorem Merges.scan_eq {turns i : Nat} (total : i + turns = u.fullBytes)
    (none_ : NoneIn (fun i => active u i &&& u.byte vs2 i) i) :
    ∃ k tmp, ops.scan turns i (merges.part u i) = (merges.part u k, k, tmp) ∧ k ≤ u.fullBytes ∧
      NoneIn (fun i => active u i &&& u.byte vs2 i) k ∧
        (k < u.fullBytes ∧ active u k &&& u.byte vs2 k ≠ 0 ∧
            tmp = setBeforeFirstBit (active u k &&& u.byte vs2 k) ∨
          k = u.fullBytes ∧ tmp = 0xff) := by
  induction turns generalizing i with
  | zero => exact ⟨i, 0xff, rfl, by omega, none_, Or.inr ⟨by omega, rfl⟩⟩
  | succ turns ih =>
    have less : i < u.fullBytes := by omega
    have inside := lt_bodyBytes less
    unfold ByteStores.scan
    rw [merges.part_source fits inside]
    by_cases clear : active u i &&& u.byte vs2 i = 0
    · have ones := (setBeforeFirstBit_eq_ones (active u i &&& u.byte vs2 i)).mpr clear
      have bits : p.byte = newBits u p (fun i => active u i &&& u.byte vs2 i) i := by
        unfold newBits
        rw [if_neg (not_not.mpr none_), if_pos (by rw [whole_bodyBits less]; exact clear)]
      have store := merges.part_store fits inside (whole_mask less (active u i)) bits
      rw [← merges.part_active fits inside, ← merges.before] at store
      simp only [ones, ne_eq, not_true_eq_false, if_false]
      rw [store]
      exact ih (by omega) (none_.succ clear)
    · have found : setBeforeFirstBit (active u i &&& u.byte vs2 i) ≠ 0xff := fun ones =>
        clear ((setBeforeFirstBit_eq_ones _).mp ones)
      simp only [found, ne_eq, not_false_eq_true, if_true]
      exact ⟨i, _, rfl, less.le, none_, Or.inl ⟨less, clear, rfl⟩⟩

theorem Merges.clear_eq {turns i : Nat} (total : i + turns = u.fullBytes)
    (some_ : ¬NoneIn (fun i => active u i &&& u.byte vs2 i) i) :
    ops.clear turns i (merges.part u i) = merges.part u u.fullBytes := by
  induction turns generalizing i with
  | zero =>
    have done : i = u.fullBytes := by omega
    rw [← done]
    rfl
  | succ turns ih =>
    have less : i < u.fullBytes := by omega
    have inside := lt_bodyBytes less
    have bits : 0 = newBits u p (fun i => active u i &&& u.byte vs2 i) i := by
      unfold newBits
      rw [if_pos some_]
    have store := merges.part_store fits inside (whole_mask less (active u i)) bits
    rw [← merges.part_active fits inside, ← merges.behind] at store
    unfold ByteStores.clear
    rw [store]
    exact ih (by omega) fun none_ => some_ fun j before => none_ j (by omega)

omit fits in
theorem last_lt (rest : u.restBits ≠ 0) : u.fullBytes < bodyBytes u := by
  unfold bodyBytes
  rw [if_pos rest]
  exact lt_succ_self _

omit fits in
theorem last_bodyBits : bodyBits u u.fullBytes = lowBits u.restBits := if_neg (Nat.lt_irrefl _)

omit fits in
theorem part_bodyBytes (rest : u.restBits ≠ 0) :
    merges.part u (bodyBytes u) = merges.part u (u.fullBytes + 1) := by
  unfold bodyBytes
  rw [if_pos rest]

theorem Merges.last_eq (rest : u.restBits ≠ 0)
    (none_ : NoneIn (fun i => active u i &&& u.byte vs2 i) u.fullBytes) :
    (if setBeforeFirstBit (lowBits u.restBits &&& ops.source (merges.part u u.fullBytes)
          u.fullBytes) ≠ 0xff then
        ops.lastFirst (merges.part u u.fullBytes) u.fullBytes u.restBits
          (setBeforeFirstBit (lowBits u.restBits &&& ops.source (merges.part u u.fullBytes)
            u.fullBytes))
      else ops.lastBefore (merges.part u u.fullBytes) u.fullBytes u.restBits) =
      merges.part u (bodyBytes u) := by
  have inside := last_lt rest
  have mask : active u u.fullBytes &&& lowBits u.restBits =
      active u u.fullBytes &&& bodyBits u u.fullBytes := by rw [last_bodyBits]
  rw [merges.part_source fits inside, part_bodyBytes merges rest, ← last_bodyBits]
  by_cases clear : bodyBits u u.fullBytes &&& (active u u.fullBytes &&& u.byte vs2 u.fullBytes) = 0
  · have bits : p.byte = newBits u p (fun i => active u i &&& u.byte vs2 i) u.fullBytes := by
      unfold newBits
      rw [if_neg (not_not.mpr none_), if_pos clear]
    rw [(setBeforeFirstBit_eq_ones _).mpr clear, if_neg (not_not.mpr rfl), merges.lastBefore,
      merges.part_active fits inside]
    exact merges.part_store fits inside mask bits
  · have found : setBeforeFirstBit (bodyBits u u.fullBytes &&&
        (active u u.fullBytes &&& u.byte vs2 u.fullBytes)) ≠ 0xff := fun ones =>
      clear ((setBeforeFirstBit_eq_ones _).mp ones)
    have bits : p.shape (setBeforeFirstBit (bodyBits u u.fullBytes &&&
        (active u u.fullBytes &&& u.byte vs2 u.fullBytes))) =
          newBits u p (fun i => active u i &&& u.byte vs2 i) u.fullBytes := by
      unfold newBits
      rw [if_neg (not_not.mpr none_), if_neg clear]
    rw [if_pos found, merges.lastFirst, merges.part_active fits inside]
    exact merges.part_store fits inside mask bits

theorem Merges.rest_eq {k : Nat} (less : k < u.fullBytes)
    (none_ : NoneIn (fun i => active u i &&& u.byte vs2 i) k)
    (found : active u k &&& u.byte vs2 k ≠ 0) :
    ops.clear (u.fullBytes - (k + 1)) (k + 1) (ops.first (merges.part u k) k
      (setBeforeFirstBit (active u k &&& u.byte vs2 k))) = merges.part u u.fullBytes := by
  have inside := lt_bodyBytes less
  have bits : p.shape (setBeforeFirstBit (active u k &&& u.byte vs2 k)) =
      newBits u p (fun i => active u i &&& u.byte vs2 i) k := by
    unfold newBits
    rw [if_neg (not_not.mpr none_), whole_bodyBits less, if_neg found]
  have store := merges.part_store fits inside (whole_mask less (active u k)) bits
  rw [← merges.part_active fits inside, ← merges.first, merges.part_active fits inside] at store
  rw [store]
  exact merges.clear_eq fits (by omega) fun all => found (all k (lt_succ_self k))

theorem Merges.run_eq : ops.run u =
    if u.vstart = 0 then some (merges.part u (bodyBytes u)) else none := by
  unfold ByteStores.run
  by_cases start : u.vstart = 0
  · rw [if_neg (not_not.mpr start), if_pos start]
    have nothing : NoneIn (fun i => active u i &&& u.byte vs2 i) 0 := fun j less => by omega
    obtain ⟨k, tmp, scanned, le, none_, stop⟩ := merges.scan_eq fits (Nat.zero_add _) nothing
    rw [show merges.part u 0 = u from replaced_zero u vd _] at scanned
    simp only [scanned]
    rcases stop with ⟨less, found, rfl⟩ | ⟨rfl, rfl⟩
    · have broken : setBeforeFirstBit (active u k &&& u.byte vs2 k) ≠ 0xff := fun ones =>
        found ((setBeforeFirstBit_eq_ones _).mp ones)
      rw [if_neg (fun both => broken both.1), if_pos less, merges.rest_eq fits less none_ found]
      by_cases rest : u.restBits ≠ 0
      · have inside := last_lt rest
        have some_ : ¬NoneIn (fun i => active u i &&& u.byte vs2 i) u.fullBytes := fun all =>
          found (all k less)
        have bits : 0 = newBits u p (fun i => active u i &&& u.byte vs2 i) u.fullBytes := by
          unfold newBits
          rw [if_pos some_]
        rw [if_pos rest, merges.lastBehind, merges.part_active fits inside,
          part_bodyBytes merges rest]
        exact congrArg some (merges.part_store fits inside (by rw [last_bodyBits]) bits)
      · unfold bodyBytes
        rw [if_neg rest, if_neg rest]
        rfl
    · by_cases rest : u.restBits ≠ 0
      · rw [if_pos ⟨rfl, rest⟩]
        exact congrArg some (merges.last_eq fits rest none_)
      · unfold bodyBytes
        rw [if_neg (fun both => rest both.2), if_neg (Nat.lt_irrefl _), if_neg rest, if_neg rest,
          Nat.sub_eq_zero_of_le (le_succ _)]
        rfl
  · rw [if_pos start, if_neg start]

end

/-! ### Bits of the result -/

structure FirstRule.Follows (p : FirstRule) (rule : BitRule) : Prop where
  behind : ∀ here, rule false here = false
  clear : rule true false = p.ones
  first : ∀ a : BitVec 8, a ≠ 0 → ∀ k < 8, (p.shape (setBeforeFirstBit a)).getLsbD k =
    rule (decide (∀ j < k, a.getLsbD j = false)) (a.getLsbD k)

theorem getLsbD_setBeforeFirstBit : ∀ a : BitVec 8, a ≠ 0 → ∀ k < 8,
    (setBeforeFirstBit a).getLsbD k = decide (∀ j < k + 1, a.getLsbD j = false) := by
  decide +kernel

theorem noneBefore_succ (source : Nat → Bool) (k : Nat) :
    decide (∀ j < k + 1, source j = false) = (decide (∀ j < k, source j = false) && !source k) := by
  rw [Bool.eq_iff_iff, Bool.and_eq_true, decide_eq_true_eq, decide_eq_true_eq,
    forall_lt_succ_right, Bool.not_eq_true']

theorem getLsbD_upToFirst {a : BitVec 8} (nonzero : a ≠ 0) {k : Nat} (less : k < 8) :
    (setBeforeFirstBit a <<< 1 ||| 0b1).getLsbD k = decide (∀ j < k, a.getLsbD j = false) := by
  rw [getLsbD_or, getLsbD_shiftLeft]
  cases k with
  | zero => simp
  | succ k =>
    rw [Nat.add_sub_cancel, getLsbD_setBeforeFirstBit a nonzero k (by omega)]
    simp [less]

theorem vmsbf_follows : vmsbfRule.Follows beforeFirst where
  behind _ := rfl
  clear := rfl
  first a nonzero k less := (getLsbD_setBeforeFirstBit a nonzero k less).trans (noneBefore_succ _ k)

theorem vmsif_follows : vmsifRule.Follows upToFirst where
  behind _ := rfl
  clear := rfl
  first _ nonzero _ less := getLsbD_upToFirst nonzero less

theorem vmsof_follows : vmsofRule.Follows onlyFirst where
  behind _ := rfl
  clear := rfl
  first a nonzero k less := by
    show ((setBeforeFirstBit a <<< 1 ||| 0b1) ^^^ setBeforeFirstBit a).getLsbD k = _
    rw [getLsbD_xor, getLsbD_upToFirst nonzero less, getLsbD_setBeforeFirstBit a nonzero k less,
      noneBefore_succ]
    unfold onlyFirst
    cases a.getLsbD k <;> simp

section

variable {u : VectorUnit xlen}

theorem getLsbD_bodyBits {i : Nat} (inside : i / 8 < bodyBytes u) :
    (bodyBits u (i / 8)).getLsbD (i % 8) = decide (i < u.vl.toNat) := by
  have ones : ∀ k < 8, (0xff : BitVec 8).getLsbD k = true := by decide
  have bit := mod_lt i (show 0 < 8 by decide)
  unfold bodyBits
  unfold bodyBytes at inside
  split
  next whole =>
    rw [ones _ bit]
    unfold VectorUnit.fullBytes at whole
    exact (decide_eq_true (by omega)).symm
  next last =>
    rw [getLsbD_lowBits u.restBits (mod_lt _ (by decide)).le _ bit]
    have same : i % 8 < u.restBits ↔ i < u.vl.toNat := by
      unfold VectorUnit.fullBytes at last inside
      unfold VectorUnit.restBits at inside ⊢
      split at inside <;> omega
    simp [same]

theorem lt_vl_bodyBytes {i : Nat} (less : i < u.vl.toNat) : i / 8 < bodyBytes u := by
  unfold bodyBytes VectorUnit.fullBytes VectorUnit.restBits
  split <;> omega

theorem byte_lt_vl {i : Nat} (inside : i < bodyBytes u) : 8 * i < u.vl.toNat := by
  unfold bodyBytes VectorUnit.fullBytes VectorUnit.restBits at inside
  split at inside <;> omega

theorem byte_eq_zero_iff {a : BitVec 8} : a = 0 ↔ ∀ k < 8, a.getLsbD k = false := by
  constructor
  · rintro rfl k -
    exact getLsbD_zero
  · intro clear
    apply byte_ext
    intro k less
    rw [clear k less]
    exact getLsbD_zero.symm

theorem noneBefore_eq (source : Nat → BitVec 8) (i : Nat) : noneBefore (maskBit source) i =
      (decide (NoneIn source (i / 8)) &&
        decide (∀ k < i % 8, (source (i / 8)).getLsbD k = false)) := by
  unfold noneBefore
  rw [Bool.eq_iff_iff, Bool.and_eq_true, decide_eq_true_eq, decide_eq_true_eq, decide_eq_true_eq]
  constructor
  · intro all
    constructor
    · intro j less
      apply byte_eq_zero_iff.mpr
      intro k below
      rw [← maskBit_byte source below]
      exact all _ (by omega)
    · intro k below
      rw [← maskBit_byte source (by omega : k < 8)]
      exact all _ (by omega)
  · rintro ⟨bytes, own⟩ j less
    by_cases same : j / 8 = i / 8
    · unfold maskBit
      rw [same]
      exact own _ (by omega)
    · unfold maskBit
      rw [bytes (j / 8) (by omega)]
      exact getLsbD_zero

theorem getLsbD_newBits {p : FirstRule} {rule : BitRule} (follows : p.Follows rule)
    (source : Nat → BitVec 8) {i : Nat} (less : i < u.vl.toNat) :
    (newBits u p source (i / 8)).getLsbD (i % 8) =
      rule (noneBefore (maskBit source) i) (maskBit source i) := by
  have inside := lt_vl_bodyBytes less
  have bit := mod_lt i (show 0 < 8 by decide)
  have body {k : Nat} (le : k ≤ i % 8) : (bodyBits u (i / 8)).getLsbD k = true := by
    have same := getLsbD_bodyBits (u := u) (i := 8 * (i / 8) + k) (by
      rw [show (8 * (i / 8) + k) / 8 = i / 8 by omega]
      exact inside)
    rw [show (8 * (i / 8) + k) / 8 = i / 8 by omega,
      show (8 * (i / 8) + k) % 8 = k by omega] at same
    rw [same]
    exact decide_eq_true (by omega)
  have kept {k : Nat} (le : k ≤ i % 8) :
      (bodyBits u (i / 8) &&& source (i / 8)).getLsbD k = (source (i / 8)).getLsbD k := by
    rw [getLsbD_and, body le, Bool.true_and]
  rw [noneBefore_eq]
  unfold newBits maskBit
  by_cases none_ : NoneIn source (i / 8)
  · rw [if_neg (not_not.mpr none_), decide_eq_true none_, Bool.true_and]
    by_cases clear : bodyBits u (i / 8) &&& source (i / 8) = 0
    · have zero {k : Nat} (le : k ≤ i % 8) : (source (i / 8)).getLsbD k = false := by
        rw [← kept le, clear]
        exact getLsbD_zero
      have before : ∀ k < i % 8, (source (i / 8)).getLsbD k = false := fun k below =>
        zero below.le
      rw [if_pos clear, getLsbD_byte p bit, decide_eq_true before, zero (Nat.le_refl _),
        follows.clear]
    · have before : (∀ j < i % 8, (bodyBits u (i / 8) &&& source (i / 8)).getLsbD j = false) ↔
          ∀ j < i % 8, (source (i / 8)).getLsbD j = false := by
        constructor
        · intro all j below
          rw [← kept below.le]
          exact all j below
        · intro all j below
          rw [kept below.le]
          exact all j below
      rw [if_neg clear, follows.first _ clear _ bit, kept (Nat.le_refl _)]
      simp only [before]
  · rw [if_pos none_, decide_eq_false none_, Bool.false_and, follows.behind]
    exact getLsbD_zero

variable {p : FirstRule} {rule : BitRule} {vd vs2 : Nat} {ops : ByteStores xlen}
  {active : VectorUnit xlen → Nat → BitVec 8}

theorem Merges.followsRule (merges : Merges ops p vd vs2 active)
    (follows : p.Follows rule) (fits : u.vl.toNat ≤ 8 * u.vlenb.toNat) :
    if u.vstart = 0 then ∃ u', ops.run u = some u' ∧
      FollowsRule rule (maskBit (active u)) (maskBit fun i => active u i &&& u.byte vs2 i) vd u u'
    else ops.run u = none := by
  rw [merges.run_eq fits]
  split
  next start =>
    refine ⟨_, rfl, ?_⟩
    have bit {i : Nat} (inside : i / 8 < bodyBytes u) : (merges.part u (bodyBytes u)).bit vd i =
          if (active u (i / 8) &&& bodyBits u (i / 8)).getLsbD (i % 8) then
            (newBits u p (fun i => active u i &&& u.byte vs2 i) (i / 8)).getLsbD (i % 8)
          else u.bit vd i := by
      change ((merges.part u (bodyBytes u)).byte vd (i / 8)).getLsbD (i % 8) = _
      rw [byte_replaced_of_lt inside]
      exact getLsbD_merge _ _ _ _
    constructor
    · intro i less set
      have inside := lt_vl_bodyBytes less
      rw [bit inside, getLsbD_and, getLsbD_bodyBits inside, decide_eq_true less,
        show (active u (i / 8)).getLsbD (i % 8) = true from set,
        getLsbD_newBits follows _ less]
      rfl
    · intro i less clear
      rw [bit (lt_vl_bodyBytes less), getLsbD_and,
        show (active u (i / 8)).getLsbD (i % 8) = false from clear]
      rfl
    · intro i behind
      by_cases inside : i / 8 < bodyBytes u
      · rw [bit inside, getLsbD_and, getLsbD_bodyBits inside,
          decide_eq_false (by omega), Bool.and_false]
        rfl
      · change ((merges.part u (bodyBytes u)).byte vd (i / 8)).getLsbD (i % 8) = _
        have same : (merges.part u (bodyBytes u)).byte vd (i / 8) = u.byte vd (i / 8) := by
          refine if_neg ?_
          change ¬(u.place vd 0 ≤ u.place vd (i / 8) ∧
            u.place vd (i / 8) < u.place vd (bodyBytes u))
          unfold VectorUnit.place
          omega
        rw [same]
        rfl
    · intro a apart
      refine if_neg ?_
      rintro ⟨above, below⟩
      refine apart (a - u.place vd 0) (byte_lt_vl ?_) ?_
      · unfold VectorUnit.place at above below ⊢
        omega
      · unfold VectorUnit.place at above ⊢
        omega
    · rfl
  next => rfl

end

end Tlib.Riscv.Vector
