import Tlib.Riscv.PendingInterrupts

/-!
Contract: the supervisor's views `sip` and `sie` of the machine words `mip` and `mie`.

Owns: the writer and the reader of the two registers, and the sequences of writes that keep to the
delegated bits.
-/

namespace Tlib.Riscv.Supervisor

open BitVec

open Tlib.Riscv.Pending (Hart userAndSupervisorInts)

variable {xlen : Nat}

inductive SupervisorCsr where
  | sip
  | sie
  deriving DecidableEq, Repr

structure Words (xlen : Nat) where
  (mip mie : BitVec xlen)
  deriving DecidableEq, Repr

def Words.word (words : Words xlen) : SupervisorCsr → BitVec xlen
  | .sip => words.mip
  | .sie => words.mie

/-- The `mask` of the writer. -/
def writeMask (H : Hart xlen) : SupervisorCsr → BitVec xlen
  | .sip => H.mask .sip
  | .sie => userAndSupervisorInts ||| H.customInterrupts

/-- The `mask` of the reader. -/
def readMask (H : Hart xlen) : SupervisorCsr → BitVec xlen
  | .sip => userAndSupervisorInts ||| H.customInterrupts
  | .sie => userAndSupervisorInts ||| H.customInterrupts

def writeSie (H : Hart xlen) (s valToWrite : BitVec xlen) : BitVec xlen :=
  (s &&& ~~~writeMask H .sie) ||| ((valToWrite &&& H.mideleg) &&& writeMask H .sie)

def csrWriteHelper (H : Hart xlen) (words : Words xlen) (csr : SupervisorCsr)
    (valToWrite : BitVec xlen) : Words xlen :=
  if H.cpuInClicMode then words
  else
    match csr with
    | .sip => { words with mip := Pending.writeSip H words.mip valToWrite }
    | .sie => { words with mie := writeSie H words.mie valToWrite }

def csrReadHelper (H : Hart xlen) (words : Words xlen) (csr : SupervisorCsr) : BitVec xlen :=
  if H.cpuInClicMode then 0 else words.word csr &&& H.mideleg &&& readMask H csr

structure Write (xlen : Nat) where
  csr : SupervisorCsr
  value : BitVec xlen
  deriving DecidableEq, Repr

def Write.execute (H : Hart xlen) (words : Words xlen) (w : Write xlen) : Words xlen :=
  csrWriteHelper H words w.csr w.value

def Writable (H : Hart xlen) (csr : SupervisorCsr) (n : Nat) : Prop :=
  H.cpuInClicMode = false ∧ (writeMask H csr).getLsbD n = true ∧ H.mideleg.getLsbD n = true

def Hides (H : Hart xlen) (words : Words xlen) : Prop :=
  ∀ csr n, H.mideleg.getLsbD n = false → (csrReadHelper H words csr).getLsbD n = false

structure Follows (H : Hart xlen) (words : Words xlen) (w : Write xlen) : Prop where
  keeps : ∀ csr n, H.mideleg.getLsbD n = false →
    ((w.execute H words).word csr).getLsbD n = (words.word csr).getLsbD n
  takes : ∀ n, Writable H w.csr n → ((w.execute H words).word w.csr).getLsbD n = w.value.getLsbD n
  shows : ∀ n, Writable H w.csr n →
    (csrReadHelper H (w.execute H words) w.csr).getLsbD n = w.value.getLsbD n

def AllFollow (H : Hart xlen) : Words xlen → List (Write xlen) → Prop
  | words, [] => Hides H words
  | words, w :: rest => Hides H words ∧ Follows H words w ∧ AllFollow H (w.execute H words) rest

def Confined (H : Hart xlen) (words : Words xlen) (csr : SupervisorCsr) : Prop :=
  words.word csr &&& writeMask H csr &&& ~~~H.mideleg = 0

instance (H : Hart xlen) (words : Words xlen) (csr : SupervisorCsr) :
    Decidable (Confined H words csr) :=
  inferInstanceAs (Decidable (_ = _))

variable {H : Hart xlen} {words : Words xlen} {w : Write xlen} {csr : SupervisorCsr} {n : Nat}

theorem confined_iff : Confined H words csr ↔
      ∀ n, H.mideleg.getLsbD n = false → (writeMask H csr).getLsbD n = true →
        (words.word csr).getLsbD n = false := by
  constructor
  · intro confined n undelegated masked
    have bit := congrArg (getLsbD · n) confined
    have inside := lt_of_getLsbD masked
    simp only [getLsbD_and, getLsbD_not, masked, undelegated, inside] at bit
    simpa using bit
  · intro clear
    apply eq_of_getLsbD_eq
    intro n inside
    have bit := clear n
    cases undelegated : H.mideleg.getLsbD n <;> cases masked : (writeMask H csr).getLsbD n <;>
      simp_all

theorem execute_clic (clic : H.cpuInClicMode = true) : w.execute H words = words := by
  simp [Write.execute, csrWriteHelper, clic]

theorem execute_word (classic : H.cpuInClicMode = false) : (w.execute H words).word w.csr =
      (words.word w.csr &&& ~~~writeMask H w.csr) |||
        ((w.value &&& H.mideleg) &&& writeMask H w.csr) := by
  obtain ⟨csr, value⟩ := w
  cases csr <;> simp [Write.execute, csrWriteHelper, classic, Words.word, writeSie,
    Pending.writeSip, writeMask]

theorem execute_word_other (other : csr ≠ w.csr) :
    (w.execute H words).word csr = words.word csr := by
  obtain ⟨written, value⟩ := w
  cases csr <;> cases written <;>
    simp_all [Write.execute, csrWriteHelper, Words.word] <;> split <;> rfl

theorem execute_bit (classic : H.cpuInClicMode = false) :
    ((w.execute H words).word w.csr).getLsbD n =
      if (writeMask H w.csr).getLsbD n then w.value.getLsbD n && H.mideleg.getLsbD n
      else (words.word w.csr).getLsbD n := by
  rw [execute_word classic]
  by_cases inside : n < xlen
  · simp only [getLsbD_or, getLsbD_and, getLsbD_not, inside]
    cases masked : (writeMask H w.csr).getLsbD n <;> simp
  · simp [getLsbD_of_ge _ _ (Nat.le_of_not_lt inside)]

theorem writeMask_le_readMask (masked : (writeMask H csr).getLsbD n = true) :
    (readMask H csr).getLsbD n = true := by
  cases csr with
  | sie => exact masked
  | sip =>
    simp only [writeMask, Hart.mask, readMask, getLsbD_or, getLsbD_and,
      Bool.or_eq_true, Bool.and_eq_true] at masked ⊢
    exact masked.imp_right And.left

theorem hides (H : Hart xlen) (words : Words xlen) : Hides H words := by
  intro csr n undelegated
  unfold csrReadHelper
  split <;> simp [undelegated]

theorem write_follows_iff :
    Follows H words w ↔ (H.cpuInClicMode = false → Confined H words w.csr) := by
  constructor
  · intro follows classic
    rw [confined_iff]
    intro n undelegated masked
    have kept := follows.keeps w.csr n undelegated
    rw [execute_bit classic, if_pos masked, undelegated, Bool.and_false] at kept
    exact kept.symm
  · intro confined
    have takes : ∀ n, Writable H w.csr n →
        ((w.execute H words).word w.csr).getLsbD n = w.value.getLsbD n := by
      rintro n ⟨classic, masked, delegated⟩
      rw [execute_bit classic, if_pos masked, delegated, Bool.and_true]
    apply Follows.mk
    · intro csr n undelegated
      cases clic : H.cpuInClicMode with
      | true => rw [execute_clic clic]
      | false =>
        by_cases same : csr = w.csr
        · subst same
          rw [execute_bit clic]
          split
          · rename_i masked
            rw [confined_iff.mp (confined clic) n undelegated masked, undelegated, Bool.and_false]
          · rfl
        · rw [execute_word_other same]
    · exact takes
    · rintro n ⟨classic, masked, delegated⟩
      have taken := takes n ⟨classic, masked, delegated⟩
      simp [csrReadHelper, classic, taken, delegated, writeMask_le_readMask masked]

theorem confined_execute_iff (classic : H.cpuInClicMode = false)
    (confined : Confined H words w.csr) :
    Confined H (w.execute H words) csr ↔ Confined H words csr := by
  by_cases same : csr = w.csr
  · subst same
    apply iff_of_true _ confined
    rw [confined_iff]
    intro n undelegated masked
    rw [execute_bit classic, if_pos masked, undelegated, Bool.and_false]
  · unfold Confined
    rw [execute_word_other same]

/-- Every sequence of writes of `sip` and `sie` keeps to the delegated bits exactly if each
word that is written has, at the start, no bit under the writer's mask that is set and not
delegated, or the hart is in CLIC mode. -/
theorem allFollow_iff (H : Hart xlen) (words : Words xlen) (writes : List (Write xlen)) :
    AllFollow H words writes ↔
      (H.cpuInClicMode = false → ∀ w ∈ writes, Confined H words w.csr) := by
  induction writes generalizing words with
  | nil => simp [AllFollow, hides H words]
  | cons w rest ih =>
    simp only [AllFollow, hides H words, true_and, write_follows_iff, ih,
      List.mem_cons, forall_eq_or_imp]
    constructor
    · rintro ⟨first, others⟩ classic
      have later := others classic
      exact ⟨first classic, fun w' member =>
        (confined_execute_iff classic (first classic)).mp (later w' member)⟩
    · intro both
      apply And.intro (fun classic => (both classic).1)
      intro classic w' member
      obtain ⟨first, others⟩ := both classic
      exact (confined_execute_iff classic first).mpr (others w' member)

/-- A pending software interrupt of the machine's own is lost when the supervisor writes
zero to `sip`. -/
theorem undelegated_cleared : ¬ AllFollow
      ⟨Or.inl (rfl : 32 = 32), 0x20#32, 0#32, 0#32, 0#32, false⟩
      ⟨0x2#32, 0#32⟩ [⟨.sip, 0#32⟩] := by
  rw [allFollow_iff]
  decide

end Tlib.Riscv.Supervisor
