import Tlib.CortexM.State

/-!
Contract: the words of `CCR`, `FPCCR` and `CONTROL` through the views of both Security states.

Owns: the reads and writes of the three registers, the fields that are shared, Secure only or
banked, and the writes after which they are kept apart.
-/

namespace Tlib.CortexM

open BitVec hiding and_comm

def bfhfnmign : Word := 1#32 <<< 8

def trd : Word := 1#32 <<< 20

/-- `V7M_CCR_NOT_BANKED_FIELDS` -/
def ccrNotBanked : Word := bfhfnmign ||| trd

/-- `LOB`, `BP` and `IC` -/
def ccrUnsupported (v81m : Bool) : Word :=
  (if v81m then 1#32 <<< 19 else 0#32) ||| 1#32 <<< 18 ||| 1#32 <<< 17

/-- `ARM_FPCCR_LSPEN_MASK` and `ARM_FPCCR_LSPENS_MASK`, then those of `CLRONRET`. -/
def lspenMask : Word := 1#32 <<< 30

def lspensMask : Word := 1#32 <<< 29

def clronretMask : Word := 1#32 <<< 28

def clronretsMask : Word := 1#32 <<< 27

/-- `TS`, `S`, `LSPENS` and `CLRONRETS` -/
def fpccrSecure : Word := 1#32 <<< 26 ||| 1#32 <<< 2 ||| lspensMask ||| clronretsMask

def fpccrRes0 : Word := 0x3FFF800#32

/-- `HFRDY`, `BFRDY`, `SFRDY` and `MONRDY`, which are not banked. -/
def fpccrReady : Word := 0x1D0#32

def fpcaMask : Word := 1#32 <<< 2

def sfpaMask : Word := 1#32 <<< 3

inductive BankedRegister where
  | ccr
  | fpccr
  | control
  deriving DecidableEq, Repr

/-- The banks, by whether they are the Secure one, which is `M_REG_COMMON`. -/
structure BankedWords where
  (v81m nsacrCp10 : Bool)
  (ccr fpccr control : Bool → Word)

def ccrRead (s : BankedWords) (isSecure : Bool) : Word :=
  let value := (s.ccr true &&& ccrNotBanked) ||| (s.ccr isSecure &&& ~~~ccrNotBanked)
  if !isSecure then value &&& ~~~trd else value

def ccrWrite (s : BankedWords) (value : Word) (isSecure : Bool) : BankedWords :=
  let value := value &&& ~~~ccrUnsupported s.v81m
  let value := if !isSecure then value &&& ~~~trd else value
  { s with
    ccr := setBank (setBank s.ccr true (value &&& ccrNotBanked)) isSecure
      (value &&& ~~~ccrNotBanked) }

def fpccrRead (s : BankedWords) (isSecure : Bool) : Word :=
  let readMask := if !isSecure then ~~~fpccrRes0 ^^^ fpccrSecure else ~~~fpccrRes0
  (s.fpccr isSecure &&& readMask) ||| (s.fpccr true &&& lspenMask) |||
    (s.fpccr true &&& clronretMask)

/-- `deposit32` of the field under a mask, unless a Secure-only bit is set. -/
def depositUnless (common guard mask value : Word) : Word :=
  if common &&& guard = 0#32 then (common &&& ~~~mask) ||| (value &&& mask) else common

def fpccrWrite (s : BankedWords) (value : Word) (isSecure : Bool) : BankedWords :=
  if !isSecure then
    let common := depositUnless (depositUnless (s.fpccr true) lspensMask lspenMask value)
      clronretsMask clronretMask value
    { s with
      fpccr := setBank (setBank s.fpccr true common) false
        (value &&& ~~~(fpccrSecure ||| lspenMask ||| clronretMask)) }
  else { s with fpccr := setBank s.fpccr true value }

/-- `Control_32` of `tlib_get_register_value_32_with_security` -/
def controlWordRead (s : BankedWords) (isSecure : Bool) : Word :=
  s.control isSecure ||| (s.control true &&& (fpcaMask ||| if isSecure then sfpaMask else 0#32))

/-- `Control_32` of `tlib_set_register_value_32_with_security` -/
def controlWordWrite (s : BankedWords) (value : Word) (isSecure : Bool) : BankedWords :=
  if !isSecure then
    let common :=
      if s.nsacrCp10 then (s.control true &&& fpcaMask) ||| (value &&& fpcaMask)
      else s.control true
    { s with
      control := setBank (setBank s.control true common) false
        (value &&& ~~~(sfpaMask ||| fpcaMask)) }
  else { s with control := setBank s.control true value }

def BankedWords.read (s : BankedWords) : BankedRegister → Bool → Word
  | .ccr => ccrRead s
  | .fpccr => fpccrRead s
  | .control => controlWordRead s

def BankedWords.write (s : BankedWords) : BankedRegister → Bool → Word → BankedWords
  | .ccr, view, value => ccrWrite s value view
  | .fpccr, view, value => fpccrWrite s value view
  | .control, view, value => controlWordWrite s value view

/-- The fields that both views read. -/
def BankedRegister.shared : BankedRegister → Word
  | .ccr => bfhfnmign
  | .fpccr => fpccrReady ||| lspenMask ||| clronretMask
  | .control => fpcaMask

def BankedRegister.secureOnly : BankedRegister → Word
  | .ccr => trd
  | .fpccr => fpccrSecure
  | .control => sfpaMask

def BankedRegister.unsupported (v81m : Bool) : BankedRegister → Word
  | .ccr => ccrUnsupported v81m
  | .fpccr => fpccrRes0
  | .control => 0#32

/-- The shared fields that the Non-secure view must not write now. -/
def BankedWords.closed (s : BankedWords) : BankedRegister → Word
  | .ccr => 0#32
  | .fpccr =>
    (if s.fpccr true &&& lspensMask = 0#32 then 0#32 else lspenMask) |||
      if s.fpccr true &&& clronretsMask = 0#32 then 0#32 else clronretMask
  | .control => if s.nsacrCp10 then 0#32 else fpcaMask

def BankedWords.specified (s : BankedWords) (register : BankedRegister) (view : Bool)
    (value : Word) (reader : Bool) : Word :=
  let value := value &&& ~~~register.unsupported s.v81m
  let opened := register.shared &&& ~~~(if view then 0#32 else s.closed register)
  let own := if reader = view then value else s.read register reader
  (value &&& opened) ||| (s.read register true &&& register.shared &&& ~~~opened) |||
    (own &&& ~~~register.shared &&& ~~~(if reader then 0#32 else register.secureOnly))

/-- The bits at which a write goes wrong: shared fields, and those of the other bank. -/
def BankedWords.conflict (s : BankedWords) (register : BankedRegister) (view : Bool)
    (value : Word) : Word :=
  match register, view with
  | .ccr, true => value &&& ccrNotBanked
  | .ccr, false => s.read .ccr true &&& ~~~bfhfnmign
  | .fpccr, view => (value ^^^ s.read .fpccr !view) &&& fpccrReady
  | .control, true => 0#32
  | .control, false =>
    if s.nsacrCp10 then s.control true &&& ~~~(value &&& fpcaMask) else 0#32

/-- The Non-secure banks hold no field that is kept in the common one. -/
structure BankedWords.Clean (s : BankedWords) : Prop where
  fpccr : s.fpccr false &&& (fpccrSecure ||| lspenMask ||| clronretMask) = 0#32
  control : s.control false &&& (sfpaMask ||| fpcaMask) = 0#32

/-- The states that sequences of writes reach from banks that are clean, as those of a reset are. -/
inductive BankedWords.Reached : BankedWords → Prop
  | start {s : BankedWords} (clean : s.Clean) : Reached s
  | write {s : BankedWords} (before : Reached s) (register : BankedRegister) (view : Bool)
      (value : Word) : Reached (s.write register view value)

variable {s : BankedWords}

theorem views_iff {secure secure' nonSecure nonSecure' conflict : Word}
    (bits : ∀ (i : Nat) (inside : i < 32), (secure[i] = secure'[i] ∧ nonSecure[i] = nonSecure'[i]) ↔
      conflict[i] = false) :
    (secure = secure' ∧ nonSecure = nonSecure') ↔ conflict = 0#32 := by
  constructor
  · rintro ⟨rfl, rfl⟩
    ext i inside
    rw [getElem_zero]
    exact (bits i inside).mp ⟨rfl, rfl⟩
  · intro none
    have clear (i : Nat) (inside : i < 32) : conflict[i] = false := by
      rw [none, getElem_zero]
    constructor
    · ext i inside
      exact ((bits i inside).mpr (clear i inside)).1
    · ext i inside
      exact ((bits i inside).mpr (clear i inside)).2

theorem apart_bit {mask other : Word} (apart : mask &&& other = 0#32) (i : Nat) (inside : i < 32) :
    (mask[i] && other[i]) = false := by
  rw [← getElem_and, apart, getElem_zero]

theorem write_clean (clean : s.Clean) (register : BankedRegister) (view : Bool) (value : Word) :
    (s.write register view value).Clean := by
  have masked (mask : Word) : value &&& ~~~mask &&& mask = 0#32 := by
    ext i inside
    simp only [getElem_and, getElem_not, getElem_zero]
    cases value[i] <;> cases mask[i] <;> rfl
  cases register with
  | ccr => exact ⟨clean.fpccr, clean.control⟩
  | fpccr =>
    cases view with
    | false => exact ⟨masked _, clean.control⟩
    | true => exact ⟨clean.fpccr, clean.control⟩
  | control =>
    cases view with
    | false => exact ⟨clean.fpccr, masked _⟩
    | true => exact ⟨clean.fpccr, clean.control⟩

theorem reached_clean (reached : s.Reached) : s.Clean := by
  induction reached with
  | start clean => exact clean
  | write _ register view value ih =>
    exact write_clean ih register view value

theorem depositUnless_guard (common value : Word) :
    depositUnless (depositUnless common lspensMask lspenMask value) clronretsMask clronretMask
        value =
      if common &&& clronretsMask = 0#32 then
        (depositUnless common lspensMask lspenMask value &&& ~~~clronretMask) |||
          (value &&& clronretMask)
      else depositUnless common lspensMask lspenMask value := by
  have kept : depositUnless common lspensMask lspenMask value &&& clronretsMask =
      common &&& clronretsMask := by
    unfold depositUnless
    split
    · ext i inside
      have apart := apart_bit (show lspenMask &&& clronretsMask = 0#32 by decide) i inside
      simp only [getElem_or, getElem_and, getElem_not]
      revert apart
      cases lspenMask[i] <;> cases clronretsMask[i] <;> simp
    · rfl
  rw [depositUnless, kept]

theorem fpccr_apart (i : Nat) (inside : i < 32) :
    (fpccrRes0[i] && (fpccrReady[i] || lspenMask[i] || clronretMask[i] || fpccrSecure[i])) = false ∧
      (fpccrReady[i] && (lspenMask[i] || clronretMask[i] || fpccrSecure[i])) = false ∧
      (lspenMask[i] && (clronretMask[i] || fpccrSecure[i])) = false ∧
      (clronretMask[i] && fpccrSecure[i]) = false := by
  simp only [← getElem_or, ← getElem_and]
  refine ⟨?_, ?_, ?_, ?_⟩
  all_goals exact (getElem_zero inside)

theorem views_specified (clean : s.Clean) (register : BankedRegister) (view : Bool) (value : Word) :
    ((s.write register view value).read register true = s.specified register view value true ∧
      (s.write register view value).read register false = s.specified register view value false) ↔
      s.conflict register view value = 0#32 := by
  cases register <;> cases view <;> refine views_iff fun i inside => ?_ <;>
    simp only [BankedWords.read, BankedWords.write, BankedWords.specified, BankedWords.conflict,
      BankedWords.closed, BankedRegister.shared, BankedRegister.secureOnly,
      BankedRegister.unsupported, ccrRead, ccrWrite, ccrNotBanked, fpccrRead, fpccrWrite,
      controlWordRead, controlWordWrite, setBank, Bool.not_true, Bool.not_false,
      Bool.false_eq_true, Bool.true_eq_false, if_false, if_true, getElem_or,
      getElem_and, getElem_not, getElem_xor, getElem_zero]
  case ccr.false | ccr.true =>
    have apart := apart_bit (show bfhfnmign &&& trd = 0#32 by decide) i inside
    have supported := apart_bit (show (bfhfnmign ||| trd) &&& ccrUnsupported s.v81m = 0#32 by
      cases s.v81m <;> decide) i inside
    rw [getElem_or] at supported
    revert apart supported
    generalize (s.ccr true)[i] = a, (s.ccr false)[i] = b, value[i] = v, bfhfnmign[i] = shared,
      trd[i] = only, (ccrUnsupported s.v81m)[i] = unsupported
    revert a b v shared only unsupported
    decide
  case fpccr.false =>
    have apart := fpccr_apart i inside
    simp only [depositUnless_guard]
    simp only [depositUnless]
    revert apart
    by_cases lspens : s.fpccr true &&& lspensMask = 0#32 <;>
      by_cases clronrets : s.fpccr true &&& clronretsMask = 0#32 <;>
      simp only [if_pos, if_neg, lspens, clronrets, not_false_eq_true, getElem_or,
        getElem_and, getElem_not, getElem_zero] <;>
      generalize (s.fpccr true)[i] = a, (s.fpccr false)[i] = b, value[i] = v, fpccrRes0[i] = res0,
        fpccrReady[i] = ready, lspenMask[i] = lspen, clronretMask[i] = clronret,
        fpccrSecure[i] = only <;>
      revert a b v res0 ready lspen clronret only <;> decide
  case fpccr.true =>
    have clear := congrArg (fun x : Word => x[i]) clean.fpccr
    have apart := fpccr_apart i inside
    simp only [getElem_or, getElem_and, getElem_zero] at clear
    revert apart clear
    generalize (s.fpccr true)[i] = a, (s.fpccr false)[i] = b, value[i] = v, fpccrRes0[i] = res0,
      fpccrReady[i] = ready, lspenMask[i] = lspen, clronretMask[i] = clronret,
      fpccrSecure[i] = only
    revert a b v res0 ready lspen clronret only
    decide
  case control.false =>
    by_cases opened : s.nsacrCp10 = true <;>
      simp only [if_pos, if_neg, opened, Bool.false_eq_true, not_false_eq_true, getElem_or,
        getElem_and, getElem_not, getElem_zero] <;>
      generalize (s.control true)[i] = a, (s.control false)[i] = b, value[i] = v,
        fpcaMask[i] = shared, sfpaMask[i] = only <;>
      revert a b v shared only <;> decide
  case control.true =>
    have clear := congrArg (fun x : Word => x[i]) clean.control
    simp only [getElem_or, getElem_and, getElem_zero] at clear
    have apart := apart_bit (show fpcaMask &&& sfpaMask = 0#32 by decide) i inside
    revert apart clear
    generalize (s.control true)[i] = a, (s.control false)[i] = b, value[i] = v,
      fpcaMask[i] = shared, sfpaMask[i] = only
    revert a b v shared only
    decide

/-- In every reached state, a write keeps the fields apart exactly when no bit is in conflict. -/
theorem writes_apart_iff (reached : s.Reached) (register : BankedRegister) (view : Bool)
    (value : Word) :
    (∀ reader, (s.write register view value).read register reader =
        s.specified register view value reader) ↔
      s.conflict register view value = 0#32 := by
  rw [Bool.forall_bool, and_comm]
  exact views_specified (reached_clean reached) register view value

def BankedWords.reset : BankedWords := ⟨false, true, fun _ => 0, fun _ => 0, fun _ => 0⟩

theorem writes_apart_iff_sample :
    (∀ reader, (BankedWords.reset.write .ccr true 0x10#32).read .ccr reader =
        BankedWords.reset.specified .ccr true 0x10#32 reader) ↔
      BankedWords.reset.conflict .ccr true 0x10#32 = 0#32 :=
  writes_apart_iff (.start ⟨by decide, by decide⟩) .ccr true 0x10#32

/-- A Non-secure write of `CCR` clears the fields of the Secure bank. -/
theorem secure_ccr_lost : ¬∀ s : BankedWords, s.Reached → ∀ register view value reader,
    (s.write register view value).read register reader =
      s.specified register view value reader := by
  intro claimed
  have kept := claimed (BankedWords.reset.write .ccr true 0x10#32)
    (.write (.start ⟨by decide, by decide⟩) .ccr true 0x10#32) .ccr false 0 true
  revert kept
  decide

end Tlib.CortexM
