import Mathlib.Data.BitVec
import Tlib.Library.SequentialWrites

/-!
Contract: little-endian elements in byte memory.

Owns: loads and stores of elements, and loops over them that read no byte which an earlier turn has
stored.
-/

namespace Tlib.Library.ByteElements

open Tlib.Library.SequentialWrites BitVec List

abbrev Memory := Nat → BitVec 8

variable {n : Nat} {σ : Type*}

def number (m : Memory) : Nat → Nat → Nat
  | 0, _ => 0
  | count + 1, a => 2 ^ 8 * number m count (a + 1) + (m a).toNat

/-- The element at an address. -/
def load (n : Nat) (m : Memory) (a : Nat) : BitVec n := BitVec.ofNat n (number m (n / 8) a)

/-- The bytes of the element at an address. -/
def Cell (n a b : Nat) : Prop := a ≤ b ∧ b < a + n / 8

instance (n a b : Nat) : Decidable (Cell n a b) := inferInstanceAs (Decidable (_ ∧ _))

def store (a : Nat) (v : BitVec n) : Patch Nat (BitVec 8) := fun b =>
  if Cell n a b then some (v.extractLsb' (8 * (b - a)) 8) else none

theorem testBit_number (m : Memory) (count a i : Nat) (less : i < 8 * count) :
    (number m count a).testBit i = (m (a + i / 8)).getLsbD (i % 8) := by
  induction count generalizing a i with
  | zero => omega
  | succ count ih =>
    unfold number
    rw [Nat.testBit_two_pow_mul_add _ (m a).isLt]
    by_cases low : i < 8
    · rw [if_pos low, show i / 8 = 0 by omega, show i % 8 = i by omega]
      rfl
    · rw [if_neg low, ih _ _ (by omega), show a + 1 + (i - 8) / 8 = a + i / 8 by omega,
        show (i - 8) % 8 = i % 8 by omega]

theorem getLsbD_load (whole : 8 ∣ n) (m : Memory) (a i : Nat) (less : i < n) :
    (load n m a).getLsbD i = (m (a + i / 8)).getLsbD (i % 8) := by
  unfold load
  rw [getLsbD_ofNat, decide_eq_true less, Bool.true_and, testBit_number]
  rwa [Nat.mul_div_cancel' whole]

theorem load_congr (whole : 8 ∣ n) {m m' : Memory} {a : Nat}
    (same : ∀ b, Cell n a b → m' b = m b) : load n m' a = load n m a := by
  apply eq_of_getLsbD_eq
  intro i less
  rw [getLsbD_load whole m' a i less, getLsbD_load whole m a i less, same]
  constructor <;> omega

theorem load_eq (whole : 8 ∣ n) {m : Memory} {a : Nat} {v : BitVec n}
    (stored : ∀ b, Cell n a b → m b = v.extractLsb' (8 * (b - a)) 8) : load n m a = v := by
  apply eq_of_getLsbD_eq
  intro i less
  have inside : Cell n a (a + i / 8) := by
    obtain ⟨size, rfl⟩ := whole
    constructor <;> omega
  rw [getLsbD_load whole m a i less, stored _ inside, getLsbD_extractLsb',
    decide_eq_true (Nat.mod_lt i (by decide)), Bool.true_and]
  congr 1
  omega

theorem load_split (whole : 8 ∣ n) (m : Memory) (a : Nat) {offset : Nat} (less : offset < n / 8) :
    load n m a >>> (offset * 8) ||| load n m (a + n / 8) <<< (n - offset * 8) =
      load n m (a + offset) := by
  have size := Nat.mul_div_cancel' whole
  apply eq_of_getLsbD_eq
  intro i below
  rw [getLsbD_or, getLsbD_ushiftRight, getLsbD_shiftLeft,
    getLsbD_load whole m (a + offset) i below, decide_eq_true below, Bool.true_and]
  by_cases first : offset * 8 + i < n
  · rw [getLsbD_load whole m a _ first, decide_eq_true (by omega : i < n - offset * 8), Bool.not_true,
      Bool.false_and, Bool.or_false, show a + (offset * 8 + i) / 8 = a + offset + i / 8 by omega,
      show (offset * 8 + i) % 8 = i % 8 by omega]
  · rw [getLsbD_of_ge _ _ (by omega), Bool.false_or,
      decide_eq_false (by omega : ¬i < n - offset * 8), Bool.not_false, Bool.true_and,
      getLsbD_load whole m _ _ (by omega),
      show a + n / 8 + (i - (n - offset * 8)) / 8 = a + offset + i / 8 by omega,
      show (i - (n - offset * 8)) % 8 = i % 8 by omega]
structure StoreLoop (n : Nat) (σ : Type*) where
  active : Nat → Memory → Bool
  cell : Nat → σ → Nat
  value : Nat → Memory → σ → BitVec n
  next : Nat → Memory → σ → σ

namespace StoreLoop

variable (L : StoreLoop n σ)

/-- A turn that is not active is skipped. -/
def toLoop : Loop Nat (BitVec 8) Nat σ where
  patch i m s := if L.active i m then store (L.cell i s) (L.value i m s) else fun _ => none
  next i m s := if L.active i m then L.next i m s else s

/-- The turns from `low` on, below `high`. -/
def run (low high : Nat) (m : Memory) (s : σ) : Memory × σ :=
  L.toLoop.run (m, s) (range' low (high - low))

def stateAt (low : Nat) (m : Memory) (s : σ) (i : Nat) : σ :=
  L.toLoop.states m s (range' low (i - low))

structure Reads (reads : Nat → Set Nat) : Prop where
  active : ∀ {i m m'}, (∀ a ∈ reads i, m' a = m a) → L.active i m' = L.active i m
  value : ∀ {i m m'} s, (∀ a ∈ reads i, m' a = m a) → L.value i m' s = L.value i m s
  next : ∀ {i m m'} s, (∀ a ∈ reads i, m' a = m a) → L.next i m' s = L.next i m s

variable {L} {reads : Nat → Set Nat} {low high : Nat} {m : Memory} {s : σ}

theorem Reads.toLoop (depends : L.Reads reads) : L.toLoop.Reads reads where
  patch {i m m'} s same := by
    unfold StoreLoop.toLoop
    simp [depends.active same, depends.value s same]
  next {i m m'} s same := by
    unfold StoreLoop.toLoop
    simp [depends.active same, depends.next s same]

theorem range_split {first rest : List Nat} {i : Nat}
    (split : range' low (high - low) = first ++ i :: rest) :
    first = range' low (i - low) ∧ low ≤ i ∧ i < high ∧
      rest = range' (i + 1) (high - (i + 1)) := by
  obtain ⟨count, le, front, back⟩ := range'_eq_append_iff.mp split
  obtain ⟨same, some_, tail⟩ := range'_eq_cons_iff.mp back.symm
  have position : i - low = count := by omega
  refine ⟨by rw [position, front], by omega, by omega, ?_⟩
  rw [tail]
  congr 1
  omega

theorem range_cut {i : Nat} (above : low ≤ i) (below : i < high) : range' low (high - low) =
      range' low (i - low) ++ i :: range' (i + 1) (high - (i + 1)) := by
  have parts := range'_append_1 (s := low) (m := i - low) (n := high - i)
  rw [show i - low + (high - i) = high - low by omega, show low + (i - low) = i by omega] at parts
  rw [← parts, show high - i = (high - (i + 1)) + 1 by omega, range'_succ]

theorem run_split (L : StoreLoop n σ) {middle : Nat} (first : low ≤ middle) (second : middle ≤ high)
    (m : Memory) (s : σ) :
    L.run low high m s = L.run middle high (L.run low middle m s).1 (L.run low middle m s).2 := by
  have parts := range'_append_1 (s := low) (m := middle - low) (n := high - middle)
  rw [show low + (middle - low) = middle by omega,
    show middle - low + (high - middle) = high - low by omega] at parts
  unfold run
  rw [← parts, Loop.run_append]

theorem run_succ (L : StoreLoop n σ) (le : low ≤ high) (m : Memory) (s : σ) :
    L.run low (high + 1) m s = L.toLoop.turn (L.run low high m s) high := by
  unfold run
  rw [Nat.sub_add_comm le, range'_1_concat, Loop.run_append, Nat.add_sub_cancel' le]
  rfl

theorem run_congr {L L' : StoreLoop n σ} (same : ∀ i, low ≤ i → i < high → ∀ m s,
      L'.active i m = L.active i m ∧ L'.cell i s = L.cell i s ∧
        L'.value i m s = L.value i m s ∧ L'.next i m s = L.next i m s) (m : Memory) (s : σ) :
    L'.run low high m s = L.run low high m s := by
  have members : ∀ i ∈ range' low (high - low), low ≤ i ∧ i < high := by
    intro i member
    have bounds := mem_range'_1.mp member
    omega
  apply foldl_ext
  rintro ⟨m, s⟩ i member
  obtain ⟨active, cell, value, next⟩ := same i (members i member).1 (members i member).2 m s
  unfold Loop.turn StoreLoop.toLoop
  simp [active, cell, value, next]

def Undisturbed (L : StoreLoop n σ) (reads : Nat → Set Nat) (low high : Nat) (m : Memory) (s : σ) :
    Prop :=
  ∀ i j, low ≤ i → i < j → j < high → L.active i m = true → ∀ a ∈ reads j,
    ¬Cell n (L.cell i (L.stateAt low m s i)) a

def Separate (L : StoreLoop n σ) (low high : Nat) (m : Memory) (s : σ) : Prop :=
  ∀ i j, low ≤ i → i < j → j < high → L.active i m = true → L.active j m = true → ∀ a,
    Cell n (L.cell i (L.stateAt low m s i)) a → ¬Cell n (L.cell j (L.stateAt low m s j)) a

theorem patch_eq_none {i a : Nat}
    (absent : L.active i m = true → ¬Cell n (L.cell i s) a) : L.toLoop.patch i m s a = none := by
  change (if L.active i m then store (L.cell i s) (L.value i m s) else fun _ => none) a = none
  by_cases active : L.active i m = true
  · rw [if_pos active]
    exact if_neg (absent active)
  · rw [if_neg active]

theorem Undisturbed.toLoop (undisturbed : L.Undisturbed reads low high m s) :
    L.toLoop.Undisturbed reads m s (range' low (high - low)) := by
  intro first i rest split j member a read
  obtain ⟨rfl, above, below, rfl⟩ := range_split split
  have bounds := mem_range'_1.mp member
  apply patch_eq_none
  intro active
  exact undisturbed i j above (by omega) (by omega) active a read

section

variable (depends : L.Reads reads) (undisturbed : L.Undisturbed reads low high m s)

include depends undisturbed

theorem Reads.load_run (whole : 8 ∣ n) (separate : L.Separate low high m s) {i : Nat}
    (above : low ≤ i) (below : i < high) (active : L.active i m = true) :
    load n (L.run low high m s).1 (L.cell i (L.stateAt low m s i)) =
      L.value i m (L.stateAt low m s i) := by
  apply load_eq whole
  intro b inside
  unfold run
  rw [depends.toLoop.run_eq_frozen undisturbed.toLoop, range_cut above below]
  apply Loop.frozen_stored
  · change (if L.active i m then store _ _ else fun _ => none) b = _
    rw [if_pos active]
    exact if_pos inside
  · intro between j rest split
    obtain ⟨rfl, after, before, rfl⟩ := range_split split
    rw [← range_cut above (show i < j by omega)]
    apply patch_eq_none
    intro activeLater
    exact separate i j above (by omega) before active activeLater b inside

theorem Reads.run_untouched {a : Nat}
    (absent : ∀ i, low ≤ i → i < high → L.active i m = true →
      ¬Cell n (L.cell i (L.stateAt low m s i)) a) :
    (L.run low high m s).1 a = m a := by
  unfold run
  rw [depends.toLoop.run_eq_frozen undisturbed.toLoop]
  apply Loop.frozen_untouched
  intro first i rest split
  obtain ⟨rfl, above, below, rfl⟩ := range_split split
  apply patch_eq_none
  exact absent i above below

end

end StoreLoop

end Tlib.Library.ByteElements
