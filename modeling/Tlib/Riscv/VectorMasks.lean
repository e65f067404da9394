import Mathlib.Data.List.Basic
import Tlib.Riscv.VectorState

/-!
Contract: the number of set bits of a vector mask, and the first of them.

Owns: the bytes of the vector registers, `helper_vpopc` and `helper_vfirst` with their masked forms.
-/

namespace Tlib.Riscv.Vector

open BitVec List Or

variable {xlen : Nat}

namespace VectorUnit

/-- The place of `V(x)[i]`. -/
def place (u : VectorUnit xlen) (x i : Nat) : Nat := x * u.vlenb.toNat + i

/-- `V(x)[i]` -/
def byte (u : VectorUnit xlen) (x i : Nat) : BitVec 8 := u.vr (u.place x i)

/-- `env->vl >> 3` -/
def fullBytes (u : VectorUnit xlen) : Nat := u.vl.toNat / 8

/-- `env->vl & 0x7` -/
def restBits (u : VectorUnit xlen) : Nat := u.vl.toNat % 8

end VectorUnit

/-- `~(0xffu << count)` -/
def lowBits (count : Nat) : BitVec 8 := ~~~((0xff : BitVec 8) <<< count)

def bitcnt (a : BitVec 8) : BitVec 8 :=
  let a := (a &&& 0x55) + (a >>> 1 &&& 0x55)
  let a := (a &&& 0x33) + (a >>> 2 &&& 0x33)
  (a &&& 0x0f) + (a >>> 4 &&& 0x0f)

/-- The loop over the whole bytes, and the last byte. -/
def countBits (u : VectorUnit xlen) (source : Nat → BitVec 8) : Option (BitVec xlen) :=
  if u.vstart ≠ 0 then none
  else
    let cnt := (range u.fullBytes).foldl
      (fun cnt i => cnt + (bitcnt (source i)).setWidth xlen) 0
    some (if u.restBits ≠ 0 then
      cnt + (bitcnt (lowBits u.restBits &&& source u.fullBytes)).setWidth xlen
    else cnt)

def helperVpopc (u : VectorUnit xlen) (vs2 : Nat) : Option (BitVec xlen) := countBits u (u.byte vs2)

def helperVpopcM (u : VectorUnit xlen) (vs2 : Nat) : Option (BitVec xlen) :=
  countBits u fun i => u.byte 0 i &&& u.byte vs2 i

def firstBit (a : BitVec 8) : Int :=
  if a = 0 then -1
  else
    let idx := if a &&& 0xf ≠ 0 then 0 else 4
    let idx := idx + if a >>> idx &&& 0x3 ≠ 0 then 0 else 2
    (idx + if a >>> idx &&& 0x1 ≠ 0 then 0 else 1 : Nat)

def firstFrom (source : Nat → BitVec 8) : Nat → Nat → Int
  | 0, _ => -1
  | turns + 1, i =>
    let tmp := firstBit (source i)
    if tmp ≠ -1 then i * 8 + tmp else firstFrom source turns (i + 1)

def findFirst (u : VectorUnit xlen) (source : Nat → BitVec 8) : Option Int :=
  if u.vstart ≠ 0 then none
  else
    let found := firstFrom source u.fullBytes 0
    if found ≠ -1 then some found
    else
      let tmp := if u.restBits ≠ 0 then firstBit (lowBits u.restBits &&& source u.fullBytes) else -1
      some (if tmp ≠ -1 then u.fullBytes * 8 + tmp else tmp)

def helperVfirst (u : VectorUnit xlen) (vs2 : Nat) : Option Int := findFirst u (u.byte vs2)

def helperVfirstM (u : VectorUnit xlen) (vs2 : Nat) : Option Int :=
  findFirst u fun i => u.byte 0 i &&& u.byte vs2 i

def maskBit (source : Nat → BitVec 8) (i : Nat) : Bool := (source (i / 8)).getLsbD (i % 8)

def VectorUnit.bit (u : VectorUnit xlen) (x i : Nat) : Bool := maskBit (u.byte x) i

def IsFirst (source : Nat → BitVec 8) (low high : Nat) (found : Int) : Prop :=
  (found = -1 ∧ ∀ i, low ≤ i → i < high → maskBit source i = false) ∨
    ∃ i : Nat, found = i ∧ low ≤ i ∧ i < high ∧ maskBit source i = true ∧
      ∀ j, low ≤ j → j < i → maskBit source j = false

section

variable {source : Nat → BitVec 8} {u : VectorUnit xlen}

theorem maskBit_byte (source : Nat → BitVec 8) {i k : Nat} (less : k < 8) :
    maskBit source (8 * i + k) = (source i).getLsbD k := by
  unfold maskBit
  rw [show (8 * i + k) / 8 = i by omega, show (8 * i + k) % 8 = k by omega]

theorem getLsbD_lowBits : ∀ count ≤ 8, ∀ k < 8, (lowBits count).getLsbD k = decide (k < count) := by
  decide

theorem getLsbD_lowBits_and {count k : Nat} (a : BitVec 8) (le : count ≤ 8) (less : k < 8) :
    (lowBits count &&& a).getLsbD k = (decide (k < count) && a.getLsbD k) := by
  rw [getLsbD_and, getLsbD_lowBits count le k less]

theorem bitcnt_byte : ∀ a : BitVec 8,
    (bitcnt a).toNat = (range 8).countP fun k => a.getLsbD k := by
  decide +kernel

theorem bitcnt_eq {count : Nat} (le : count ≤ 8) (a : BitVec 8) :
    (bitcnt (lowBits count &&& a)).toNat = (range count).countP fun k => a.getLsbD k := by
  have split : range 8 = range count ++ (range (8 - count)).map (count + ·) := by
    rw [← range_add, Nat.add_sub_cancel' le]
  have below : (range count).countP (fun k => (lowBits count &&& a).getLsbD k) =
      (range count).countP fun k => a.getLsbD k := by
    apply countP_congr
    intro k member
    have less := mem_range.mp member
    rw [getLsbD_lowBits_and a le (by omega), decide_eq_true less, Bool.true_and]
  have above : ((range (8 - count)).map (count + ·)).countP
      (fun k => (lowBits count &&& a).getLsbD k) = 0 := by
    rw [countP_eq_zero]
    intro k member
    obtain ⟨i, inside, rfl⟩ := mem_map.mp member
    have less := mem_range.mp inside
    rw [getLsbD_lowBits_and a le (by omega), decide_eq_false (by omega), Bool.false_and]
    exact Bool.false_ne_true
  rw [bitcnt_byte, split, countP_append, below, above, Nat.add_zero]

theorem lowBits_eight (a : BitVec 8) : lowBits 8 &&& a = a := by
  have all : lowBits 8 = allOnes 8 := by decide
  rw [all, allOnes_and]

theorem countP_byte (source : Nat → BitVec 8) (i : Nat) {count : Nat} (le : count ≤ 8) :
    ((range count).map (8 * i + ·)).countP (maskBit source) =
      (bitcnt (lowBits count &&& source i)).toNat := by
  rw [bitcnt_eq le, countP_map]
  apply countP_congr
  intro k member
  have less := mem_range.mp member
  rw [Function.comp_apply, maskBit_byte source (by omega)]

theorem setWidth_eq_ofNat (x : BitVec 8) : x.setWidth xlen = BitVec.ofNat xlen x.toNat := by
  apply eq_of_toNat_eq
  rw [toNat_setWidth, toNat_ofNat]

theorem foldl_bitcnt (source : Nat → BitVec 8) (full : Nat) :
    (range full).foldl (fun cnt i => cnt + (bitcnt (source i)).setWidth xlen) 0 =
      BitVec.ofNat xlen ((range (8 * full)).countP (maskBit source)) := by
  induction full with
  | zero => rfl
  | succ full ih =>
    rw [range_succ, foldl_append, ih, Nat.mul_succ, range_add, countP_append,
      countP_byte source full (Nat.le_refl 8), lowBits_eight, ofNat_add,
      ← setWidth_eq_ofNat]
    rfl

theorem countBits_eq (u : VectorUnit xlen) (source : Nat → BitVec 8) : countBits u source =
      if u.vstart = 0 then
        some (BitVec.ofNat xlen ((range u.vl.toNat).countP (maskBit source)))
      else none := by
  unfold countBits
  by_cases start : u.vstart = 0
  · rw [if_neg (not_not.mpr start), if_pos start]
    have split : u.vl.toNat = 8 * u.fullBytes + u.restBits := (Nat.div_add_mod _ 8).symm
    have less : u.restBits < 8 := Nat.mod_lt _ (by decide)
    rw [split, range_add, countP_append, countP_byte source u.fullBytes less.le,
      ofNat_add, ← foldl_bitcnt, ← setWidth_eq_ofNat]
    split
    next => rfl
    next rest =>
      rw [not_not.mp rest]
      have none_ : bitcnt (lowBits 0 &&& source u.fullBytes) = 0 := by
        apply eq_of_toNat_eq
        rw [bitcnt_eq (Nat.zero_le 8)]
        rfl
      rw [none_]
      simp
  · rw [if_pos start, if_neg start]

theorem firstBit_byte : ∀ a : BitVec 8, (firstBit a = -1 ∧ ∀ k < 8, a.getLsbD k = false) ∨
    ∃ k < (8 : Nat), firstBit a = k ∧ a.getLsbD k = true ∧ ∀ j < k, a.getLsbD j = false := by
  decide +kernel

theorem firstBit_eq {count : Nat} (le : count ≤ 8) (a : BitVec 8) :
    (firstBit (lowBits count &&& a) = -1 ∧ ∀ k < count, a.getLsbD k = false) ∨
      ∃ k < count, firstBit (lowBits count &&& a) = k ∧ a.getLsbD k = true ∧
        ∀ j < k, a.getLsbD j = false := by
  have kept : ∀ k < count, (lowBits count &&& a).getLsbD k = a.getLsbD k := by
    intro k less
    rw [getLsbD_lowBits_and a le (by omega), decide_eq_true less, Bool.true_and]
  rcases firstBit_byte (lowBits count &&& a) with ⟨absent, clear⟩ | ⟨k, inside, found, set, clear⟩
  · refine inl ⟨absent, ?_⟩
    intro k less
    rw [← kept k less]
    exact clear k (by omega)
  · rw [getLsbD_lowBits_and a le inside, Bool.and_eq_true, decide_eq_true_eq] at set
    refine inr ⟨k, set.1, found, set.2, ?_⟩
    intro j before
    rw [← kept j (before.trans set.1)]
    exact clear j before

theorem firstBit_nonneg (a : BitVec 8) (found : firstBit a ≠ -1) : 0 ≤ firstBit a := by
  rcases firstBit_byte a with ⟨absent, -⟩ | ⟨k, -, first, -⟩
  · exact absurd absent found
  · rw [first]
    exact Int.natCast_nonneg k

theorem IsFirst.of_byte (source : Nat → BitVec 8) (i : Nat) {count : Nat} (le : count ≤ 8) :
    IsFirst source (8 * i) (8 * i + count)
      (if firstBit (lowBits count &&& source i) ≠ -1 then
        i * 8 + firstBit (lowBits count &&& source i) else -1) := by
  have bit {k : Nat} (less : k < 8) := maskBit_byte source (i := i) less
  rcases firstBit_eq le (source i) with ⟨absent, clear⟩ | ⟨k, less, found, set, clear⟩
  · rw [absent, if_neg (by decide)]
    refine inl ⟨rfl, ?_⟩
    intro j low high
    have place : j = 8 * i + (j - 8 * i) := by omega
    rw [place, bit (by omega)]
    exact clear _ (by omega)
  · rw [found, if_pos (by omega)]
    refine inr ⟨8 * i + k, by push_cast; omega, by omega, by omega, ?_, ?_⟩
    · rw [bit (by omega)]
      exact set
    · intro j low high
      have place : j = 8 * i + (j - 8 * i) := by omega
      rw [place, bit (by omega)]
      exact clear _ (by omega)

theorem IsFirst.extend {low middle high : Nat} {found : Int}
    (first : IsFirst source low middle (-1)) (rest : IsFirst source middle high found)
    (le : low ≤ middle) : IsFirst source low high found := by
  have clear : ∀ i, low ≤ i → i < middle → maskBit source i = false := by
    rcases first with ⟨-, clear⟩ | ⟨i, impossible, -⟩
    · exact clear
    · omega
  rcases rest with ⟨absent, none_⟩ | ⟨i, same, above, below, set, before⟩
  · refine inl ⟨absent, ?_⟩
    intro i above below
    rcases Nat.lt_or_ge i middle with left | right
    · exact clear i above left
    · exact none_ i right below
  · refine inr ⟨i, same, by omega, below, set, ?_⟩
    intro j low_ less
    rcases Nat.lt_or_ge j middle with left | right
    · exact clear j low_ left
    · exact before j right less

theorem IsFirst.widen {low middle high : Nat} {found : Int} (first : IsFirst source low middle found)
    (set : found ≠ -1) (le : middle ≤ high) : IsFirst source low high found := by
  rcases first with ⟨absent, -⟩ | ⟨i, same, above, below, rest⟩
  · exact absurd absent set
  · exact inr ⟨i, same, above, Nat.lt_of_lt_of_le below le, rest⟩

theorem firstFrom_isFirst (source : Nat → BitVec 8) (turns i : Nat) :
    IsFirst source (8 * i) (8 * (i + turns)) (firstFrom source turns i) := by
  induction turns generalizing i with
  | zero =>
    refine inl ⟨rfl, ?_⟩
    omega
  | succ turns ih =>
    have byte := IsFirst.of_byte source i (Nat.le_refl 8)
    rw [lowBits_eight] at byte
    unfold firstFrom
    by_cases set : firstBit (source i) ≠ -1
    · rw [if_pos set] at byte ⊢
      have nonneg := firstBit_nonneg (source i) set
      exact byte.widen (by omega) (by omega)
    · rw [if_neg set] at byte ⊢
      have later := ih (i + 1)
      rw [Nat.mul_succ, Nat.succ_add_eq_add_succ] at later
      exact byte.extend later (by omega)

theorem findFirst_isFirst (u : VectorUnit xlen) (source : Nat → BitVec 8) : if u.vstart = 0 then
      ∃ found, findFirst u source = some found ∧ IsFirst source 0 u.vl.toNat found
    else findFirst u source = none := by
  unfold findFirst
  by_cases start : u.vstart = 0
  · rw [if_pos start, if_neg (not_not.mpr start)]
    have split : u.vl.toNat = 8 * u.fullBytes + u.restBits := (Nat.div_add_mod _ 8).symm
    have less : u.restBits < 8 := Nat.mod_lt _ (by decide)
    have whole := firstFrom_isFirst source u.fullBytes 0
    rw [Nat.zero_add, Nat.mul_zero] at whole
    by_cases set : firstFrom source u.fullBytes 0 ≠ -1
    · simp only [if_pos set]
      exact ⟨_, rfl, whole.widen set (by omega)⟩
    · simp only [if_neg set]
      rw [not_not.mp set] at whole
      refine ⟨_, rfl, ?_⟩
      rw [split]
      apply whole.extend _ (by omega)
      have byte := IsFirst.of_byte source u.fullBytes less.le
      by_cases rest : u.restBits ≠ 0
      · rw [if_pos rest]
        split at byte
        next found => rwa [if_pos found]
        next absent =>
          rw [if_neg absent, not_not.mp absent]
          exact byte
      · rw [if_neg rest, if_neg (by decide)]
        refine inl ⟨rfl, ?_⟩
        omega
  · rw [if_neg start, if_pos start]

end

end Tlib.Riscv.Vector
