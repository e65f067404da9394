import Mathlib.Data.BitVec

/-!
Contract: stacks of words in byte memory, growing towards lower addresses.

Owns: loads and stores of words, pushes of lists of words, and which bytes a store leaves alone.
-/

namespace Tlib.Library.WordStack

variable {w : Nat}

abbrev Memory (w : Nat) := BitVec w → BitVec 8

/-- The little-endian word at an address. -/
def load (m : Memory w) (a : BitVec w) : BitVec 32 :=
  m (a + BitVec.ofNat w 3) ++ m (a + BitVec.ofNat w 2) ++ m (a + BitVec.ofNat w 1) ++
    m (a + BitVec.ofNat w 0)

def store (m : Memory w) (a : BitVec w) (v : BitVec 32) : Memory w := fun b =>
  if (b - a).toNat < 4 then v.extractLsb' (8 * (b - a).toNat) 8 else m b

/-- The byte is one of the `n` bytes from `base` on. -/
def Within (base : BitVec w) (n : Nat) (b : BitVec w) : Prop := (b - base).toNat < n

instance (base : BitVec w) (n : Nat) (b : BitVec w) : Decidable (Within base n b) :=
  inferInstanceAs (Decidable (_ < _))

def Holds (m : Memory w) (base : BitVec w) : List (BitVec 32) → Prop
  | [] => True
  | v :: vs => load m base = v ∧ Holds m (base + BitVec.ofNat w 4) vs

def Agree (addresses : BitVec w → Prop) (m m' : Memory w) : Prop := ∀ b, addresses b → m' b = m b

structure Stack (w : Nat) where
  memory : Memory w
  sp : BitVec w

def Stack.push (s : Stack w) (v : BitVec 32) : Stack w :=
  { memory := store s.memory (s.sp - BitVec.ofNat w 4) v, sp := s.sp - BitVec.ofNat w 4 }

def Stack.pushAll (s : Stack w) : List (BitVec 32) → Stack w
  | [] => s
  | v :: vs => (s.push v).pushAll vs

/-- Stores of words at ascending addresses. -/
def storeAll (m : Memory w) (a : BitVec w) : List (BitVec 32) → Memory w
  | [] => m
  | v :: vs => storeAll (store m a v) (a + BitVec.ofNat w 4) vs

variable {m m' : Memory w} {a b base : BitVec w} {v : BitVec 32} {vs us : List (BitVec 32)}
  {n k : Nat}

theorem offset_toNat (inside : k < 2 ^ w) : (a + BitVec.ofNat w k - a).toNat = k := by
  rw [add_sub_cancel_left, BitVec.toNat_ofNat, Nat.mod_eq_of_lt inside]

theorem ofNat_add_ofNat (i j : Nat) :
    BitVec.ofNat w i + BitVec.ofNat w j = BitVec.ofNat w (i + j) :=
  (BitVec.ofNat_add i j).symm

theorem add_add_ofNat (i j : Nat) :
    a + BitVec.ofNat w i + BitVec.ofNat w j = a + BitVec.ofNat w (i + j) := by
  rw [add_assoc, ofNat_add_ofNat]

theorem toNat_sub_add (far : k ≤ (b - base).toNat) :
    (b - (base + BitVec.ofNat w k)).toNat = (b - base).toNat - k := by
  have bounded : k < 2 ^ w := Nat.lt_of_le_of_lt far (b - base).isLt
  have small : (BitVec.ofNat w k).toNat = k := by
    rw [BitVec.toNat_ofNat, Nat.mod_eq_of_lt bounded]
  rw [sub_add_eq_sub_sub, BitVec.toNat_sub_of_le, small]
  rw [BitVec.le_def, small]
  exact far

theorem toNat_sub_add_of_lt (near : (b - base).toNat < k) (bounded : k < 2 ^ w) :
    (b - (base + BitVec.ofNat w k)).toNat = 2 ^ w - (k - (b - base).toNat) := by
  have small : (BitVec.ofNat w k).toNat = k := by
    rw [BitVec.toNat_ofNat, Nat.mod_eq_of_lt bounded]
  rw [sub_add_eq_sub_sub, BitVec.toNat_sub, small, Nat.mod_eq_of_lt]
  · omega
  · omega

theorem Within.mono {n' : Nat} (within : Within base n b) (le : n ≤ n') : Within base n' b :=
  Nat.lt_of_lt_of_le within le

theorem Within.shift {n' : Nat} (within : Within (base + BitVec.ofNat w k) n b)
    (fits : k + n ≤ n') : Within base n' b := by
  unfold Within at within ⊢
  rcases Nat.lt_or_ge (b - base).toNat k with near | far
  · omega
  · rw [toNat_sub_add far] at within
    omega

theorem not_within_shift {n' : Nat} (within : Within base k b) (fits : k + n ≤ n')
    (bounded : n' ≤ 2 ^ w) : ¬ Within (base + BitVec.ofNat w k) n b := by
  unfold Within at within ⊢
  rcases Nat.eq_zero_or_pos n with none | some
  · omega
  · rw [toNat_sub_add_of_lt within (by omega)]
    omega

theorem Agree.refl (addresses : BitVec w → Prop) (m : Memory w) : Agree addresses m m :=
  fun _ _ => rfl

theorem Agree.trans {addresses : BitVec w → Prop} {m m' m'' : Memory w}
    (first : Agree addresses m m') (second : Agree addresses m' m'') : Agree addresses m m'' :=
  fun b inside => (second b inside).trans (first b inside)

theorem Agree.mono {addresses fewer : BitVec w → Prop} {m m' : Memory w}
    (agree : Agree addresses m m') (inside : ∀ b, fewer b → addresses b) : Agree fewer m m' :=
  fun b few => agree b (inside b few)

theorem load_congr (agree : ∀ b, Within a 4 b → m' b = m b) (wide : 2 ≤ w) :
    load m' a = load m a := by
  have room : 2 ^ 2 ≤ 2 ^ w := Nat.pow_le_pow_right Nat.two_pos wide
  have byte (k : Nat) (small : k < 4) : m' (a + BitVec.ofNat w k) = m (a + BitVec.ofNat w k) := by
    apply agree
    unfold Within
    rw [offset_toNat (by omega)]
    exact small
  unfold load
  rw [byte 3 (by decide), byte 2 (by decide), byte 1 (by decide), byte 0 (by decide)]

theorem store_outside (outside : ¬ Within a 4 b) : store m a v b = m b := if_neg outside

theorem load_store (wide : 2 ≤ w) : load (store m a v) a = v := by
  have room : 2 ^ 2 ≤ 2 ^ w := Nat.pow_le_pow_right Nat.two_pos wide
  have byte (k : Nat) (small : k < 4) :
      store m a v (a + BitVec.ofNat w k) = v.extractLsb' (8 * k) 8 := by
    unfold store
    rw [offset_toNat (by omega), if_pos small]
  unfold load
  rw [byte 3 (by decide), byte 2 (by decide), byte 1 (by decide), byte 0 (by decide)]
  apply BitVec.eq_of_getLsbD_eq
  intro i inside
  simp only [BitVec.getLsbD_append, BitVec.getLsbD_extractLsb']
  split
  · simp
    omega
  · split
    · rw [show 8 * 1 + (i - 8) = i by omega]
      simp
      omega
    · split
      · rw [show 8 * 2 + (i - 8 - 8) = i by omega]
        simp
        omega
      · rw [show 8 * 3 + (i - 8 - 8 - 8) = i by omega]
        simp
        omega

theorem Holds.of_agree (holds : Holds m base vs)
    (agree : ∀ b, Within base (4 * vs.length) b → m' b = m b)
    (fits : 4 * vs.length ≤ 2 ^ w) (wide : 2 ≤ w) : Holds m' base vs := by
  induction vs generalizing base with
  | nil => trivial
  | cons v vs ih =>
    rw [List.length_cons] at agree fits
    constructor
    · rw [← holds.1]
      apply load_congr _ wide
      intro b within
      exact agree b (within.mono (by omega))
    · apply ih holds.2 _ (by omega)
      intro b within
      exact agree b (within.shift (by omega))

theorem holds_cons :
    Holds m base (v :: vs) ↔ load m base = v ∧ Holds m (base + BitVec.ofNat w 4) vs := Iff.rfl

theorem holds_append : Holds m base (us ++ vs) ↔
      Holds m base us ∧ Holds m (base + BitVec.ofNat w (4 * us.length)) vs := by
  induction us generalizing base with
  | nil => simp [Holds]
  | cons u us ih =>
    rw [List.cons_append, List.length_cons, holds_cons, holds_cons, ih, add_add_ofNat, and_assoc]
    rw [show 4 + 4 * us.length = 4 * (us.length + 1) by omega]

theorem Holds.load_eq (holds : Holds m base vs) (i : Nat) (inside : i < vs.length) :
    load m (base + BitVec.ofNat w (4 * i)) = vs[i] := by
  induction vs generalizing base i with
  | nil => exact absurd inside (Nat.not_lt_zero i)
  | cons v vs ih =>
    cases i with
    | zero =>
      rw [Nat.mul_zero, show BitVec.ofNat w 0 = 0 from rfl, add_zero]
      exact holds.1
    | succ i =>
      have rest := ih holds.2 i (Nat.lt_of_succ_lt_succ inside)
      rw [add_add_ofNat, show 4 + 4 * i = 4 * (i + 1) by omega] at rest
      exact rest

theorem holds_of_loads
    (loads : ∀ i (inside : i < vs.length), load m (base + BitVec.ofNat w (4 * i)) = vs[i]) :
    Holds m base vs := by
  induction vs generalizing base with
  | nil => trivial
  | cons v vs ih =>
    constructor
    · have first := loads 0 (Nat.succ_pos _)
      rw [Nat.mul_zero, show BitVec.ofNat w 0 = 0 from rfl, add_zero] at first
      exact first
    · apply ih
      intro i inside
      have next := loads (i + 1) (Nat.succ_lt_succ inside)
      rw [add_add_ofNat, show 4 + 4 * i = 4 * (i + 1) by omega]
      exact next

theorem holds_ofFn {n : Nat} {get : Fin n → BitVec 32} :
    Holds m base (List.ofFn get) ↔ ∀ i, load m (base + BitVec.ofNat w (4 * i.val)) = get i := by
  constructor
  · intro holds i
    have word := holds.load_eq i (by rw [List.length_ofFn]; exact i.isLt)
    simpa using word
  · intro loads
    apply holds_of_loads
    intro i inside
    rw [List.length_ofFn] at inside
    rw [List.getElem_ofFn]
    exact loads ⟨i, inside⟩

theorem load_byte {k : Nat} (small : k < 4) :
    (load m a).extractLsb' (8 * k) 8 = m (a + BitVec.ofNat w k) := by
  have cases : k = 0 ∨ k = 1 ∨ k = 2 ∨ k = 3 := by omega
  unfold load
  apply BitVec.eq_of_getLsbD_eq
  intro i inside
  rw [BitVec.getLsbD_extractLsb', decide_eq_true inside, Bool.true_and]
  simp only [BitVec.getLsbD_append]
  rcases cases with rfl | rfl | rfl | rfl
  · rw [if_pos (by omega), Nat.mul_zero, Nat.zero_add]
  · rw [if_neg (by omega), if_pos (by omega), show 8 * 1 + i - 8 = i by omega]
  · rw [if_neg (by omega), if_neg (by omega), if_pos (by omega),
      show 8 * 2 + i - 8 - 8 = i by omega]
  · rw [if_neg (by omega), if_neg (by omega), if_neg (by omega),
      show 8 * 3 + i - 8 - 8 - 8 = i by omega]

theorem Holds.agree (holds : Holds m base vs) (holds' : Holds m' base vs) :
    Agree (Within base (4 * vs.length)) m m' := by
  intro b within
  unfold Within at within
  have word : (b - base).toNat / 4 < vs.length := by omega
  have small := Nat.mod_lt (b - base).toNat (by decide : 0 < 4)
  have place : b = base + BitVec.ofNat w (4 * ((b - base).toNat / 4)) +
      BitVec.ofNat w ((b - base).toNat % 4) := by
    rw [add_add_ofNat, Nat.div_add_mod, BitVec.ofNat_toNat, BitVec.setWidth_eq, add_sub_cancel]
  have byte (n : Memory w) (words : Holds n base vs) :
      n b = (vs[(b - base).toNat / 4]).extractLsb' (8 * ((b - base).toNat % 4)) 8 := by
    rw [← words.load_eq _ word, load_byte small, ← place]
  rw [byte m holds, byte m' holds']

variable {s : Stack w}

theorem pushAll_append : s.pushAll (us ++ vs) = (s.pushAll us).pushAll vs := by
  induction us generalizing s with
  | nil => rfl
  | cons u us ih => exact ih

theorem pushAll_sp : (s.pushAll vs).sp = s.sp - BitVec.ofNat w (4 * vs.length) := by
  induction vs generalizing s with
  | nil => exact (sub_zero s.sp).symm
  | cons v vs ih =>
    unfold Stack.pushAll
    rw [ih, List.length_cons]
    simp only [Stack.push]
    rw [← sub_add_eq_sub_sub, ofNat_add_ofNat]
    rw [show 4 + 4 * vs.length = 4 * (vs.length + 1) by omega]

theorem sub_add_ofNat {i j : Nat} (le : j ≤ i) :
    a - BitVec.ofNat w i + BitVec.ofNat w j = a - BitVec.ofNat w (i - j) := by
  have split : BitVec.ofNat w i = BitVec.ofNat w (i - j) + BitVec.ofNat w j := by
    rw [ofNat_add_ofNat, Nat.sub_add_cancel le]
  rw [split, sub_add_eq_sub_sub, sub_add_cancel]

theorem pushAll_outside
    (outside : ¬ Within (s.sp - BitVec.ofNat w (4 * vs.length)) (4 * vs.length) b)
    (fits : 4 * vs.length ≤ 2 ^ w) : (s.pushAll vs).memory b = s.memory b := by
  induction vs generalizing s with
  | nil => rfl
  | cons v vs ih =>
    rw [List.length_cons] at outside fits
    have top : s.sp - BitVec.ofNat w 4 =
        s.sp - BitVec.ofNat w (4 * (vs.length + 1)) + BitVec.ofNat w (4 * vs.length) := by
      rw [sub_add_ofNat (by omega), show 4 * (vs.length + 1) - 4 * vs.length = 4 by omega]
    have bottom : (s.push v).sp - BitVec.ofNat w (4 * vs.length) =
        s.sp - BitVec.ofNat w (4 * (vs.length + 1)) := by
      simp only [Stack.push]
      rw [← sub_add_eq_sub_sub, ofNat_add_ofNat]
      rw [show 4 + 4 * vs.length = 4 * (vs.length + 1) by omega]
    unfold Stack.pushAll
    rw [ih _ (by omega)]
    · apply store_outside
      rw [top]
      intro within
      exact outside (within.shift (by omega))
    · rw [bottom]
      intro within
      exact outside (within.mono (by omega))

theorem pushAll_holds (fits : 4 * vs.length ≤ 2 ^ w) (wide : 2 ≤ w) :
    Holds (s.pushAll vs).memory (s.pushAll vs).sp vs.reverse := by
  induction vs generalizing s with
  | nil => trivial
  | cons v vs ih =>
    rw [List.length_cons] at fits
    unfold Stack.pushAll
    rw [List.reverse_cons, holds_append]
    apply And.intro (ih (by omega))
    have top : ((s.push v).pushAll vs).sp + BitVec.ofNat w (4 * vs.reverse.length) =
        s.sp - BitVec.ofNat w 4 := by
      rw [List.length_reverse, pushAll_sp, sub_add_cancel]
      rfl
    rw [top]
    apply And.intro _ trivial
    have pushed : load (s.push v).memory (s.sp - BitVec.ofNat w 4) = v := load_store wide
    apply Eq.trans _ pushed
    apply load_congr _ wide
    intro b within
    apply pushAll_outside _ (by omega)
    intro below
    have placed : (s.push v).sp =
        (s.push v).sp - BitVec.ofNat w (4 * vs.length) + BitVec.ofNat w (4 * vs.length) := by
      rw [sub_add_cancel]
    have above : ¬ Within (s.push v).sp 4 b := by
      rw [placed]
      exact not_within_shift below (Nat.le_refl _) (by omega)
    exact above within

theorem storeAll_outside (outside : ¬ Within a (4 * vs.length) b)
    (fits : 4 * vs.length ≤ 2 ^ w) : storeAll m a vs b = m b := by
  induction vs generalizing m a with
  | nil => rfl
  | cons v vs ih =>
    rw [List.length_cons] at outside fits
    unfold storeAll
    rw [ih _ (by omega)]
    · apply store_outside
      intro within
      exact outside (within.mono (by omega))
    · intro within
      exact outside (within.shift (by omega))

theorem storeAll_holds (fits : 4 * vs.length ≤ 2 ^ w) (wide : 2 ≤ w) :
    Holds (storeAll m a vs) a vs := by
  induction vs generalizing m a with
  | nil => trivial
  | cons v vs ih =>
    rw [List.length_cons] at fits
    unfold storeAll
    apply And.intro _ (ih (by omega))
    have stored : load (store m a v) a = v := load_store wide
    apply Eq.trans _ stored
    apply load_congr _ wide
    intro b within
    apply storeAll_outside _ (by omega)
    exact not_within_shift within (Nat.le_refl _) (by omega)

end Tlib.Library.WordStack
