import Mathlib.Tactic.ByContra
import Tlib.Riscv.TrapReturn

/-!
Contract: the interrupt that a hart takes next.

Owns: `riscv_cpu_hw_interrupts_pending` with its CLIC part, the documented order of interrupts, and
the words for which both agree.
-/

namespace Tlib.Riscv.Trap

open Tlib.Library.BitFields List
open BitVec hiding and_comm
open Bool hiding and_comm or_false or_true true_and true_or

variable {xlen : Nat}

/-- `MINTTHRESH_TH` and `SINTTHRESH_TH` -/
def threshTh : Field := ⟨0, 8⟩

structure InterruptState (xlen : Nat) where
  trap : State xlen
  (mip mie sideleg customInterrupts mintthresh sintthresh : BitVec xlen)
  clicInterruptPending : BitVec 32
  /-- `interrupt_request & RISCV_CPU_INTERRUPT_CLIC` -/
  clicRequest : Bool
  deriving DecidableEq, Repr

/-- `IRQ_SS | IRQ_ST | IRQ_SE` -/
def supervisorIrqs : BitVec xlen := BitVec.ofNat xlen 0x222

/-- `IRQ_US | IRQ_UT | IRQ_UE` -/
def userIrqs : BitVec xlen := BitVec.ofNat xlen 0x111

def ctz64 (word : BitVec xlen) : Nat := (word.setWidth 64).ctz.toNat

def probe (pendingInterrupts : BitVec xlen) (i : Nat) : Option Nat :=
  [i + 8, i, i + 4].find? pendingInterrupts.getLsbD

/-- The loop from `PRV_M` down, with the value that `bit` has before it. -/
def probeLoop (pendingInterrupts : BitVec xlen) : List Nat → Nat → Nat
  | [], bit => bit
  | i :: rest, _ =>
    match probe pendingInterrupts i with
    | some bit => bit
    | none => probeLoop pendingInterrupts rest (i + 4)

/-- The values of the counter. -/
def privilegesFrom (priv : BitVec xlen) : List Nat := [3, 2, 1, 0].filter (priv.toNat ≤ ·)

/-- `EXCP_NONE` if no interrupt should be taken. -/
def getInterruptsInOrder (pendingInterrupts priv : BitVec xlen) : BitVec 32 :=
  if pendingInterrupts &&& 0b1111 ≠ 0 then
    match privilegesFrom priv with
    | [] => excpNone
    | i :: rest => BitVec.ofNat 32 (probeLoop pendingInterrupts (i :: rest) i)
  else
    let bit := ctz64 pendingInterrupts
    if bit ≥ xlen - 1 then excpNone else BitVec.ofNat 32 bit

namespace InterruptState

variable (u : InterruptState xlen)

/-- A level or a threshold, as a `uint32_t`. -/
def fieldOf (reg : BitVec xlen) (f : Field) : BitVec 32 := (getField reg f).setWidth 32

def mlevel : BitVec 32 :=
  let mil := fieldOf u.trap.mintstatus mintstatusMil
  let mintthresh := fieldOf u.mintthresh threshTh
  if u.trap.priv < prvM then 0 else if mintthresh > mil then mintthresh else mil

def slevel : BitVec 32 :=
  let sil := fieldOf u.trap.mintstatus mintstatusSil
  let sintthresh := fieldOf u.sintthresh threshTh
  if u.trap.priv < prvS then 0 else if sintthresh > sil then sintthresh else sil

def modeEnabled (prv : BitVec xlen) (xie : Field) : Bool :=
  (u.trap.priv = prv && getField u.trap.mstatus xie ≠ 0) || u.trap.priv < prv

def riscvClicInterruptPending : BitVec 32 :=
  if !u.trap.cpuInClicMode then excpNone
  else if u.modeEnabled prvS mstatusSie && u.trap.clicInterrupt.priv = 1 && u.clicRequest &&
      u.trap.clicInterrupt.level > u.slevel then u.clicInterruptPending
  else if u.modeEnabled prvM mstatusMie && u.trap.clicInterrupt.priv = 3 && u.clicRequest &&
      u.trap.clicInterrupt.level > u.mlevel then u.clicInterruptPending
  else excpNone

def pendingInterrupts : BitVec xlen :=
  let lower := (userIrqs ||| u.customInterrupts) &&& u.trap.mideleg &&& u.sideleg
  let pending := u.mip &&& u.mie
  if u.trap.priv = prvM then
    pending &&& ~~~((supervisorIrqs ||| u.customInterrupts) &&& u.trap.mideleg) &&& ~~~lower
  else if u.trap.priv = prvS then pending &&& ~~~lower
  else pending

def enabledInterrupts : BitVec xlen :=
  if u.trap.priv = prvM && getField u.trap.mstatus mstatusMie = 0 then 0
  else if u.trap.priv = prvS && getField u.trap.mstatus mstatusSie = 0 then
    ~~~u.trap.mideleg &&& u.pendingInterrupts
  else u.pendingInterrupts

def riscvCpuHwInterruptsPending (H : Hart xlen) : BitVec 32 :=
  if u.trap.cpuInClicMode then u.riscvClicInterruptPending
  else if u.enabledInterrupts = 0 then excpNone
  else if H.privilegeArchitecture.since111 then
    getInterruptsInOrder u.enabledInterrupts u.trap.priv
  else BitVec.ofNat 32 (ctz64 u.enabledInterrupts)

def targetPrivilege (n : Nat) : BitVec xlen :=
  if u.trap.mideleg.getLsbD n then if u.sideleg.getLsbD n then prvU else prvS else prvM

def enableBit (priv : BitVec xlen) : Bool :=
  if priv = prvM then getField u.trap.mstatus mstatusMie ≠ 0
  else if priv = prvS then getField u.trap.mstatus mstatusSie ≠ 0
  else true

structure Enabled (n : Nat) : Prop where
  mip : u.mip.getLsbD n = true
  mie : u.mie.getLsbD n = true
  priv : u.trap.priv < u.targetPrivilege n ∨
    u.trap.priv = u.targetPrivilege n ∧ u.enableBit u.trap.priv = true

end InterruptState

/-- The place of external, software and timer interrupts within their privilege. -/
def kindRank (n : Nat) : Nat := if n / 4 = 2 then 0 else if n / 4 = 0 then 1 else 2

/-- The documented order of the interrupts below 12, whose low two bits are their privilege. -/
def Precedes (a b : Nat) : Prop :=
  a < 12 ∧ b < 12 ∧ (b % 4 < a % 4 ∨ a % 4 = b % 4 ∧ kindRank a < kindRank b)

instance (a b : Nat) : Decidable (Precedes a b) := inferInstanceAs (Decidable (_ ∧ _))

namespace InterruptState

/-- No interrupt is selected if none is enabled, and else the first that is enabled. -/
structure Selects (H : Hart xlen) (u : InterruptState xlen) : Prop where
  none_ : u.riscvCpuHwInterruptsPending H = excpNone ↔ ∀ n, ¬u.Enabled n
  first : (∃ n, u.Enabled n) → ∃ n, u.riscvCpuHwInterruptsPending H = BitVec.ofNat 32 n ∧
    u.Enabled n ∧ ∀ other, u.Enabled other → ¬Precedes other n

def Left (u : InterruptState xlen) (n : Nat) : Prop := u.enabledInterrupts.getLsbD n = true

def SoftwareLeft (u : InterruptState xlen) : Prop := ∃ n < 4, u.Left n

/-- With a software interrupt the first enabled is at the current privilege or above. -/
structure FirstLeft (u : InterruptState xlen) (n : Nat) : Prop where
  enabled : u.Enabled n
  software : u.SoftwareLeft →
    n < 12 ∧ u.trap.priv.toNat ≤ n % 4 ∧ ∀ other, u.Left other → ¬Precedes other n
  others : ¬u.SoftwareLeft → n < xlen - 1 ∧ (∀ other, u.Left other → n ≤ other) ∧
      ∀ other, u.Enabled other → ¬Precedes other n

/-- When the selection is the documented one. -/
def Exact (u : InterruptState xlen) : Prop :=
  (∀ n, ¬u.Enabled n) ∧ (∀ n, u.Left n → n = xlen - 1) ∨ ∃ n, u.FirstLeft n

end InterruptState

variable {H : Hart xlen} {u : InterruptState xlen} {p : BitVec xlen} {n m i b : Nat}

theorem prv_ne (H : Hart xlen) : (prvM : BitVec xlen) ≠ prvS ∧ (prvU : BitVec xlen) ≠ prvS ∧
    (prvU : BitVec xlen) ≠ prvM := by
  rcases H.xlen_eq with rfl | rfl <;> decide

theorem prv_lt (H : Hart xlen) : (prvU : BitVec xlen) < prvS ∧ (prvU : BitVec xlen) < prvM ∧
    (prvS : BitVec xlen) < prvM ∧ ¬(prvM : BitVec xlen) < prvS := by
  rcases H.xlen_eq with rfl | rfl <;> decide

namespace InterruptState

theorem Left.lt (left : u.Left n) : n < xlen := lt_of_getLsbD left

theorem Enabled.lt (enabled : u.Enabled n) : n < xlen := lt_of_getLsbD enabled.mip

theorem pendingInterrupts_bit (less : n < xlen) : u.pendingInterrupts.getLsbD n = true ↔
      (u.mip.getLsbD n = true ∧ u.mie.getLsbD n = true) ∧
      (u.trap.priv = prvM → (supervisorIrqs ||| u.customInterrupts).getLsbD n = true →
        u.trap.mideleg.getLsbD n = false) ∧
      (u.trap.priv = prvM ∨ u.trap.priv = prvS →
        (userIrqs ||| u.customInterrupts).getLsbD n = true →
          u.trap.mideleg.getLsbD n = true → u.sideleg.getLsbD n = false) := by
  unfold pendingInterrupts
  by_cases machine : u.trap.priv = prvM
  · rw [if_pos machine]
    simp only [machine, less, getLsbD_and, getLsbD_not, decide_true, Bool.true_and,
      and_eq_true, not_eq_true', and_eq_false_iff, forall_const, true_or]
    cases (supervisorIrqs ||| u.customInterrupts).getLsbD n <;>
      cases (userIrqs ||| u.customInterrupts).getLsbD n <;>
      cases u.trap.mideleg.getLsbD n <;> simp
  · rw [if_neg machine]
    by_cases supervisor : u.trap.priv = prvS
    · rw [if_pos supervisor]
      rw [supervisor] at machine
      simp only [machine, supervisor, less, getLsbD_and, getLsbD_not, decide_true,
        Bool.true_and, and_eq_true, not_eq_true', and_eq_false_iff, forall_const,
        or_true, false_implies, true_and]
      cases (userIrqs ||| u.customInterrupts).getLsbD n <;>
        cases u.trap.mideleg.getLsbD n <;> simp
    · rw [if_neg supervisor]
      simp [machine, supervisor]

theorem left_iff (less : n < xlen) : u.Left n ↔ u.pendingInterrupts.getLsbD n = true ∧
      ¬(u.trap.priv = prvM ∧ getField u.trap.mstatus mstatusMie = 0) ∧
      (u.trap.priv = prvS ∧ getField u.trap.mstatus mstatusSie = 0 →
        u.trap.mideleg.getLsbD n = false) := by
  unfold Left enabledInterrupts
  simp only [← decide_and, decide_eq_true_eq]
  by_cases machine : u.trap.priv = prvM ∧ getField u.trap.mstatus mstatusMie = 0
  · rw [if_pos machine]
    simp [machine]
  · rw [if_neg machine]
    by_cases supervisor : u.trap.priv = prvS ∧ getField u.trap.mstatus mstatusSie = 0
    · rw [if_pos supervisor, getLsbD_and, getLsbD_not, decide_eq_true less,
        Bool.true_and, and_eq_true, not_eq_true', and_comm]
      exact and_congr_right fun _ => ⟨fun deleg => ⟨machine, fun _ => deleg⟩,
        fun both => both.2 supervisor⟩
    · rw [if_neg supervisor]
      exact ⟨fun pending => ⟨pending, machine, fun off => absurd off supervisor⟩, And.left⟩

theorem Enabled.machine (H : Hart xlen) (enabled : u.Enabled n) (machine : u.trap.priv = prvM) :
    u.trap.mideleg.getLsbD n = false ∧ getField u.trap.mstatus mstatusMie ≠ 0 := by
  obtain ⟨machineNe, _, userNe⟩ := prv_ne H
  obtain ⟨_, userLt, supervisorLt, _⟩ := prv_lt H
  have bit : u.enableBit prvM = true → getField u.trap.mstatus mstatusMie ≠ 0 := by
    unfold enableBit
    simp
  have priv := enabled.priv
  unfold targetPrivilege at priv
  rw [machine] at priv
  cases deleg : u.trap.mideleg.getLsbD n with
  | false =>
    rw [deleg, if_neg (by decide)] at priv
    exact ⟨rfl, bit (priv.resolve_left (BitVec.lt_irrefl _)).2⟩
  | true =>
    rw [deleg, if_pos rfl] at priv
    split at priv
    · rcases priv with above | same
      · exact absurd above (BitVec.not_lt.mpr (BitVec.le_of_lt userLt))
      · exact absurd same.1.symm userNe
    · rcases priv with above | same
      · exact absurd above (BitVec.not_lt.mpr (BitVec.le_of_lt supervisorLt))
      · exact absurd same.1 machineNe

theorem Enabled.supervisor (H : Hart xlen) (enabled : u.Enabled n)
    (supervisor : u.trap.priv = prvS) (deleg : u.trap.mideleg.getLsbD n = true) :
    u.sideleg.getLsbD n = false ∧ getField u.trap.mstatus mstatusSie ≠ 0 := by
  obtain ⟨machineNe, userNe, _⟩ := prv_ne H
  obtain ⟨userLt, _⟩ := prv_lt H
  have bit : u.enableBit prvS = true → getField u.trap.mstatus mstatusSie ≠ 0 := by
    unfold enableBit
    simp [machineNe.symm]
  have priv := enabled.priv
  unfold targetPrivilege at priv
  rw [supervisor, deleg, if_pos rfl] at priv
  split at priv
  · rcases priv with above | same
    · exact absurd above (BitVec.not_lt.mpr (BitVec.le_of_lt userLt))
    · exact absurd same.1.symm userNe
  next sideleg =>
    refine ⟨by simpa using sideleg, bit (priv.resolve_left (BitVec.lt_irrefl _)).2⟩

theorem Enabled.left (H : Hart xlen) (enabled : u.Enabled n) : u.Left n := by
  refine (left_iff enabled.lt).mpr ⟨(pendingInterrupts_bit enabled.lt).mpr
    ⟨⟨enabled.mip, enabled.mie⟩, ?_, ?_⟩, ?_, ?_⟩
  · exact fun machine _ => (enabled.machine H machine).1
  · rintro (machine | supervisor) _ deleg
    · rw [(enabled.machine H machine).1] at deleg
      cases deleg
    · exact (enabled.supervisor H supervisor deleg).1
  · exact fun off => (enabled.machine H off.1).2 off.2
  · intro off
    by_contra deleg
    rw [not_eq_false] at deleg
    exact (enabled.supervisor H off.1 deleg).2 off.2

end InterruptState

theorem kindRank_eq (less : i < 4) :
    kindRank (i + 8) = 0 ∧ kindRank i = 1 ∧ kindRank (i + 4) = 2 := by
  have external : (i + 8) / 4 = 2 := by omega
  have software : i / 4 = 0 := by omega
  have timer : (i + 4) / 4 = 1 := by omega
  unfold kindRank
  rw [external, software, timer]
  decide

theorem eq_of_kindRank_eq (small : n < 12) (small' : m < 12) (same : kindRank n = kindRank m) :
    n / 4 = m / 4 := by
  have kinds : n / 4 = 0 ∨ n / 4 = 1 ∨ n / 4 = 2 := by omega
  have kinds' : m / 4 = 0 ∨ m / 4 = 1 ∨ m / 4 = 2 := by omega
  unfold kindRank at same
  rcases kinds with kind | kind | kind <;> rcases kinds' with kind' | kind' | kind' <;>
    rw [kind, kind'] at same ⊢ <;> exact absurd same (by decide)

theorem eq_of_not_precedes (small : n < 12) (small' : m < 12) (first : ¬Precedes n m)
    (second : ¬Precedes m n) : n = m := by
  unfold Precedes at first second
  have kind : n / 4 = m / 4 := eq_of_kindRank_eq small small' (by omega)
  omega

theorem probe_some (less : i < 4) (found : probe p i = some b) :
    b < 12 ∧ b % 4 = i ∧ p.getLsbD b = true ∧
      ∀ m, m < 12 → m % 4 = i → p.getLsbD m = true → ¬Precedes m b := by
  have set : p.getLsbD b = true := List.find?_some found
  obtain ⟨external, software, timer⟩ := kindRank_eq less
  have three (m : Nat) (small : m < 12) (level : m % 4 = i) : m = i + 8 ∨ m = i ∨ m = i + 4 := by
    omega
  have later {m : Nat} (behind : kindRank b ≤ kindRank m) (level : m % 4 = i) (own : b % 4 = i) :
      ¬Precedes m b := by
    unfold Precedes
    omega
  unfold probe at found
  rw [List.find?_cons] at found
  split at found
  next =>
    cases found
    refine ⟨by omega, by omega, set, fun m _ level _ => later ?_ level (by omega)⟩
    rw [external]
    exact Nat.zero_le _
  next noExternal =>
    rw [List.find?_cons] at found
    split at found
    next =>
      cases found
      refine ⟨by omega, by omega, set, fun m small level pending => later ?_ level (by omega)⟩
      rcases three m small level with rfl | rfl | rfl
      · rw [pending] at noExternal
        cases noExternal
      · exact Nat.le_refl _
      · rw [software, timer]
        decide
    next noSoftware =>
      rw [List.find?_cons] at found
      split at found
      next =>
        cases found
        refine ⟨by omega, by omega, set, fun m small level pending => later ?_ level (by omega)⟩
        rcases three m small level with rfl | rfl | rfl
        · rw [pending] at noExternal
          cases noExternal
        · rw [pending] at noSoftware
          cases noSoftware
        · exact Nat.le_refl _
      next => cases found

theorem probe_none (missed : probe p i = none) (small : m < 12) (level : m % 4 = i) :
    p.getLsbD m = false := by
  unfold probe at missed
  rw [List.find?_eq_none] at missed
  have three : m = i + 8 ∨ m = i ∨ m = i + 4 := by omega
  rw [← not_eq_true]
  apply missed m
  rcases three with rfl | rfl | rfl <;> simp

/-- What the loop over some privileges returns. -/
structure Probed (p : BitVec xlen) (privileges : List Nat) (b : Nat) : Prop where
  small : b < 12
  level : b % 4 ∈ privileges
  first : p.getLsbD b = true → ∀ m, m < 12 → m % 4 ∈ privileges → p.getLsbD m = true → ¬Precedes m b
  missed : p.getLsbD b = false → ∀ m, m < 12 → m % 4 ∈ privileges → p.getLsbD m = false

theorem probeLoop_probed {privileges : List Nat} (descending : privileges.Pairwise (· > ·))
    (bound : ∀ i ∈ privileges, i < 4) (nonempty : privileges ≠ []) (bit : Nat) :
    Probed p privileges (probeLoop p privileges bit) := by
  induction privileges generalizing bit with
  | nil => exact absurd rfl nonempty
  | cons i rest ih =>
    have less : i < 4 := bound i mem_cons_self
    obtain ⟨above, descending⟩ := pairwise_cons.mp descending
    unfold probeLoop
    cases found : probe p i with
    | some b =>
      obtain ⟨small, level, set, first⟩ := probe_some less found
      dsimp only
      refine ⟨small, level ▸ mem_cons_self, fun _ m less' member pending => ?_,
        fun clear => absurd set (by simp [clear])⟩
      rcases mem_cons.mp member with same | lower
      · exact first m less' same pending
      · have below := above _ lower
        unfold Precedes
        omega
    | none =>
      have clear (m : Nat) (small : m < 12) (level : m % 4 = i) : p.getLsbD m = false :=
        probe_none found small level
      by_cases last : rest = []
      · subst last
        have self : p.getLsbD (i + 4) = false := clear (i + 4) (by omega) (by omega)
        refine ⟨show i + 4 < 12 by omega, ?_, fun set => ?_, fun _ m small member => ?_⟩
        · rw [show (probeLoop p [] (i + 4)) % 4 = i from by
            change (i + 4) % 4 = i
            omega]
          exact mem_cons_self
        · rw [show p.getLsbD (probeLoop p [] (i + 4)) = false from self] at set
          cases set
        · exact clear m small (mem_singleton.mp member)
      · have inner := ih descending
          (fun j member => bound j (mem_cons_of_mem i member)) last (i + 4)
        refine ⟨inner.small, mem_cons_of_mem i inner.level,
          fun set m small member pending => ?_, fun unset m small member => ?_⟩
        · rcases mem_cons.mp member with same | lower
          · rw [clear m small same] at pending
            cases pending
          · exact inner.first set m small lower pending
        · rcases mem_cons.mp member with same | lower
          · exact clear m small same
          · exact inner.missed unset m small lower

theorem mem_privilegesFrom {priv : BitVec xlen} :
    i ∈ privilegesFrom priv ↔ i < 4 ∧ priv.toNat ≤ i := by
  unfold privilegesFrom
  rw [mem_filter, decide_eq_true_eq]
  simp only [mem_cons, not_mem_nil, or_false]
  omega

theorem privilegesFrom_descending (priv : BitVec xlen) : (privilegesFrom priv).Pairwise (· > ·) :=
  List.Pairwise.filter _ (by decide)

theorem low_ne_zero_iff (H : Hart xlen) : p &&& 0b1111 ≠ 0 ↔ ∃ n < 4, p.getLsbD n = true := by
  have low (j : Nat) : (0b1111 : BitVec xlen).getLsbD j = decide (j < 4) := by
    rcases H.xlen_eq with rfl | rfl
    · rw [show (0b1111 : BitVec 32) = BitVec.ofNat 32 (2 ^ 4 - 1) from rfl, getLsbD_ofNat,
        Nat.testBit_two_pow_sub_one, ← decide_and]
      exact decide_eq_decide.mpr (by omega)
    · rw [show (0b1111 : BitVec 64) = BitVec.ofNat 64 (2 ^ 4 - 1) from rfl, getLsbD_ofNat,
        Nat.testBit_two_pow_sub_one, ← decide_and]
      exact decide_eq_decide.mpr (by omega)
  have wide := H.le_xlen
  rw [ne_zero_iff]
  refine exists_congr fun j => ?_
  rw [getLsbD_and, low, and_eq_true, decide_eq_true_eq]
  exact ⟨fun both => ⟨both.2.2, both.2.1⟩, fun both => ⟨by omega, both.2, both.1⟩⟩

theorem ctz64_lowest (H : Hart xlen) (ne : p ≠ 0) :
    p.getLsbD (ctz64 p) = true ∧ ∀ m, p.getLsbD m = true → ctz64 p ≤ m := by
  have wide : xlen ≤ 64 := by
    rcases H.xlen_eq with width | width <;> omega
  have bit (j : Nat) : (p.setWidth 64).getLsbD j = p.getLsbD j := by
    rw [getLsbD_setWidth]
    by_cases inside : j < 64
    · simp [inside]
    · rw [getLsbD_of_ge p j (by omega), Bool.and_false]
  have extended : p.setWidth 64 ≠ 0 := by
    intro zero
    obtain ⟨j, _, set⟩ := ne_zero_iff.mp ne
    rw [← bit, zero] at set
    simp at set
  refine ⟨(bit _).symm.trans (getLsbD_true_ctz_of_ne_zero extended), fun m set => ?_⟩
  by_contra above
  have clear := getLsbD_false_of_lt_ctz (Nat.lt_of_not_le above)
  rw [bit, set] at clear
  cases clear

theorem getInterruptsInOrder_software (H : Hart xlen) {priv : BitVec xlen} (mode : Supported priv)
    (software : ∃ n < 4, p.getLsbD n = true) :
    ∃ b, getInterruptsInOrder p priv = BitVec.ofNat 32 b ∧ Probed p (privilegesFrom priv) b := by
  have top : 3 ∈ privilegesFrom priv := by
    rcases mode with rfl | rfl | rfl <;> rcases H.xlen_eq with rfl | rfl <;> decide
  have probed (bit : Nat) : Probed p (privilegesFrom priv) (probeLoop p (privilegesFrom priv) bit) :=
    probeLoop_probed (privilegesFrom_descending priv)
      (fun j member => (mem_privilegesFrom.mp member).1) (ne_nil_of_mem top) bit
  unfold getInterruptsInOrder
  rw [if_pos ((low_ne_zero_iff H).mpr software)]
  cases privileges : privilegesFrom priv with
  | nil =>
    rw [privileges] at top
    cases top
  | cons first rest =>
    rw [privileges] at probed
    exact ⟨_, rfl, probed first⟩

theorem getInterruptsInOrder_lowest (H : Hart xlen) {priv : BitVec xlen}
    (noSoftware : ¬∃ n < 4, p.getLsbD n = true) (ne : p ≠ 0) :
    ∃ b, p.getLsbD b = true ∧ (∀ m, p.getLsbD m = true → b ≤ m) ∧ getInterruptsInOrder p priv =
        if b ≥ xlen - 1 then excpNone else BitVec.ofNat 32 b := by
  obtain ⟨set, least⟩ := ctz64_lowest H ne
  refine ⟨ctz64 p, set, least, ?_⟩
  unfold getInterruptsInOrder
  rw [if_neg (mt (low_ne_zero_iff H).mp noSoftware)]

theorem ofNat_inj_of_lt (H : Hart xlen) (less : n < xlen) (less' : m < xlen)
    (same : BitVec.ofNat 32 n = BitVec.ofNat 32 m) : n = m := by
  have wide : xlen ≤ 64 := by
    rcases H.xlen_eq with width | width <;> omega
  have numbers := congrArg BitVec.toNat same
  rw [toNat_ofNat, toNat_ofNat] at numbers
  omega

theorem ofNat_ne_excpNone (H : Hart xlen) (less : n < xlen) : BitVec.ofNat 32 n ≠ excpNone := by
  have wide : xlen ≤ 64 := by
    rcases H.xlen_eq with width | width <;> omega
  intro same
  have numbers := congrArg BitVec.toNat same
  rw [toNat_ofNat, show excpNone.toNat = 2 ^ 32 - 1 from rfl] at numbers
  omega

namespace InterruptState

theorem selects_iff_software (H : Hart xlen) (mode : Supported u.trap.priv)
    (software : u.SoftwareLeft) (chosen : u.riscvCpuHwInterruptsPending H =
      getInterruptsInOrder u.enabledInterrupts u.trap.priv) : u.Selects H ↔ u.Exact := by
  have wide := H.le_xlen
  obtain ⟨b, result, probed⟩ := getInterruptsInOrder_software H mode software
  rw [← chosen] at result
  have small := probed.small
  have someResult : u.riscvCpuHwInterruptsPending H ≠ excpNone :=
    result ▸ ofNat_ne_excpNone H (by omega)
  have privileged := (mem_privilegesFrom.mp probed.level).2
  constructor
  · intro selects
    have exists_ : ∃ n, u.Enabled n := by
      by_contra none_
      exact someResult (selects.none_.mpr (not_exists.mp none_))
    obtain ⟨n, same, enabled, first⟩ := selects.first exists_
    obtain rfl : b = n := ofNat_inj_of_lt H (by omega) enabled.lt (result.symm.trans same)
    refine .inr ⟨b, enabled, fun _ => ⟨small, privileged, fun other left precedes => ?_⟩,
      fun absent => absurd software absent⟩
    refine probed.first (enabled.left H) other precedes.1 ?_ left precedes
    rw [mem_privilegesFrom]
    obtain ⟨_, _, order⟩ := precedes
    omega
  · rintro (⟨_, top⟩ | ⟨n, firstLeft⟩)
    · obtain ⟨n, low, left⟩ := software
      have := top n left
      omega
    · obtain ⟨less, level, first⟩ := firstLeft.software software
      have left := firstLeft.enabled.left H
      have member : n % 4 ∈ privilegesFrom u.trap.priv :=
        mem_privilegesFrom.mpr ⟨Nat.mod_lt _ (by decide), level⟩
      have found : u.enabledInterrupts.getLsbD b = true := by
        by_contra clear
        rw [not_eq_true] at clear
        have := probed.missed clear n less member
        rw [left] at this
        cases this
      obtain rfl : n = b := eq_of_not_precedes less small (probed.first found n less member left)
        (first b found)
      refine ⟨⟨fun none_ => absurd none_ someResult,
        fun none_ => absurd firstLeft.enabled (none_ n)⟩, fun _ => ⟨n, result,
          firstLeft.enabled, fun other enabled => first other (enabled.left H)⟩⟩

theorem selects_iff_lowest (H : Hart xlen) (noSoftware : ¬u.SoftwareLeft)
    (ne : u.enabledInterrupts ≠ 0) (chosen : u.riscvCpuHwInterruptsPending H =
      getInterruptsInOrder u.enabledInterrupts u.trap.priv) : u.Selects H ↔ u.Exact := by
  obtain ⟨b, set, least, result⟩ := getInterruptsInOrder_lowest H noSoftware ne
  rw [← chosen] at result
  have less : b < xlen := lt_of_getLsbD set
  by_cases top : b ≥ xlen - 1
  · rw [if_pos top] at result
    have only (n : Nat) (left : u.Left n) : n = xlen - 1 := by
      have := least n left
      have := left.lt
      omega
    constructor
    · intro selects
      exact .inl ⟨selects.none_.mp result, only⟩
    · rintro (⟨none_, _⟩ | ⟨n, firstLeft⟩)
      · exact ⟨⟨fun _ => none_, fun _ => result⟩, fun exists_ => absurd exists_
          (not_exists.mpr none_)⟩
      · have := only n (firstLeft.enabled.left H)
        have := (firstLeft.others noSoftware).1
        omega
  · rw [if_neg top] at result
    have someResult : u.riscvCpuHwInterruptsPending H ≠ excpNone :=
      result ▸ ofNat_ne_excpNone H less
    constructor
    · intro selects
      have exists_ : ∃ n, u.Enabled n := by
        by_contra none_
        exact someResult (selects.none_.mpr (not_exists.mp none_))
      obtain ⟨n, same, enabled, first⟩ := selects.first exists_
      obtain rfl : b = n := ofNat_inj_of_lt H less enabled.lt (result.symm.trans same)
      exact .inr ⟨b, enabled, fun software => absurd software noSoftware,
        fun _ => ⟨by omega, least, first⟩⟩
    · rintro (⟨_, only⟩ | ⟨n, firstLeft⟩)
      · have := only b set
        omega
      · obtain ⟨_, lowest, first⟩ := firstLeft.others noSoftware
        obtain rfl : n = b := Nat.le_antisymm (lowest b set) (least n (firstLeft.enabled.left H))
        exact ⟨⟨fun none_ => absurd none_ someResult,
          fun none_ => absurd firstLeft.enabled (none_ n)⟩,
          fun _ => ⟨n, result, firstLeft.enabled, first⟩⟩

/-- Outside CLIC mode and from version 1.11 on, the selection is the documented one exactly
under these conditions. -/
theorem selects_iff_exact (H : Hart xlen) (u : InterruptState xlen) (mode : Supported u.trap.priv)
    (direct : u.trap.cpuInClicMode = false)
    (since : H.privilegeArchitecture.since111 = true) : u.Selects H ↔ u.Exact := by
  by_cases none_ : u.enabledInterrupts = 0
  · have result : u.riscvCpuHwInterruptsPending H = excpNone := by
      unfold riscvCpuHwInterruptsPending
      rw [direct, if_neg (by decide), if_pos none_]
    have noneLeft (n : Nat) : ¬u.Left n := by
      unfold Left
      rw [none_]
      simp
    have noneEnabled (n : Nat) : ¬u.Enabled n := fun enabled => noneLeft n (enabled.left H)
    exact iff_of_true
      ⟨⟨fun _ => noneEnabled, fun _ => result⟩, fun ⟨n, enabled⟩ => absurd enabled (noneEnabled n)⟩
      (.inl ⟨noneEnabled, fun n left => absurd left (noneLeft n)⟩)
  · have chosen : u.riscvCpuHwInterruptsPending H =
        getInterruptsInOrder u.enabledInterrupts u.trap.priv := by
      unfold riscvCpuHwInterruptsPending
      rw [direct, if_neg (by decide), if_neg none_, if_pos since]
    by_cases software : u.SoftwareLeft
    · exact u.selects_iff_software H mode software chosen
    · exact u.selects_iff_lowest H software none_ chosen

def samplePending (pending : BitVec 64) : InterruptState 64 where
  trap := sampleState excpNone 0 0
  mip := pending
  mie := pending
  sideleg := 0
  customInterrupts := 0
  mintthresh := 0
  sintthresh := 0
  clicInterruptPending := excpNone
  clicRequest := false

/-- The external and the software interrupt of M-mode. -/
theorem selects_external : (samplePending 0x808).Selects sampleHart ↔ (samplePending 0x808).Exact :=
  selects_iff_exact sampleHart (samplePending 0x808) (.inl rfl) (by decide) (by decide)

/-- With the external and the timer interrupt of M-mode pending, the timer is selected. -/
theorem timer_before_external : ¬∀ (H : Hart 64) (u : InterruptState 64), Supported u.trap.priv →
      u.trap.cpuInClicMode = false → H.privilegeArchitecture.since111 = true → u.Selects H := by
  intro always
  have selects := always sampleHart (samplePending 0x880) (.inl rfl) (by decide) (by decide)
  have enabled (n : Nat) (set : (0x880 : BitVec 64).getLsbD n = true) :
      (samplePending 0x880).Enabled n := by
    refine ⟨set, set, .inl ?_⟩
    unfold targetPrivilege
    simp [samplePending, sampleState, prvU, prvM]
  have external : (0x880 : BitVec 64).getLsbD 11 = true := by simp
  obtain ⟨n, result, listed, first⟩ := selects.first ⟨11, enabled 11 external⟩
  have selected : (samplePending 0x880).riscvCpuHwInterruptsPending sampleHart = 7 := by
    decide +kernel
  obtain rfl : 7 = n :=
    ofNat_inj_of_lt sampleHart (by decide) listed.lt (selected.symm.trans result)
  exact first 11 (enabled 11 external) (by decide)

end InterruptState

end Tlib.Riscv.Trap
