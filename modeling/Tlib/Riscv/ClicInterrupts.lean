import Tlib.Riscv.CauseMirrors
import Tlib.Riscv.InterruptSelection

/-!
Contract: interrupts of CLIC mode.

Owns: `tlib_set_clic_interrupt_state` and the entry that follows, and what the entry records of the
interrupted level. Does not own: the controller, which is known by its answers.
-/

namespace Tlib.Riscv.Clic

open Tlib.Library.BitFields BitVec
open Tlib.Riscv.Trap

variable {xlen : Nat}

/-! ### The controller -/

/-- A call of `tlib_set_clic_interrupt_state`. -/
structure Call where
  (intno vectored level mode : BitVec 32)
  deriving DecidableEq, Repr

def Call.interrupt (call : Call) : ClicInterrupt where
  priv := call.mode
  level := call.level
  vectored := call.vectored ≠ 0

def tlibSetClicInterruptState (u : InterruptState xlen) (call : Call) : InterruptState xlen :=
  { u with
    trap := { u.trap with clicInterrupt := call.interrupt }
    clicInterruptPending := call.intno
    clicRequest := call.intno ≠ excpNone }

def performed (u : InterruptState xlen) (calls : List Call) : InterruptState xlen :=
  calls.foldl tlibSetClicInterruptState u

def offered (calls : List Call) (clic : ClicInterrupt) : ClicInterrupt :=
  calls.foldl (fun _ call => call.interrupt) clic

structure Callbacks where
  /-- `tlib_on_interrupt_begin` -/
  interruptBegin : List Call
  /-- `tlib_clic_acknowledge_interrupt` -/
  acknowledge : List Call
  /-- `tlib_clic_clear_edge_interrupt` -/
  clearEdge : List Call
  deriving DecidableEq, Repr

namespace Callbacks

variable (calls : Callbacks)

def hart (H : Hart xlen) : Hart xlen :=
  { H with
    clicAcknowledgeInterrupt := offered calls.acknowledge
    clicClearEdgeInterrupt := offered calls.clearEdge }

def entered (clic : ClicInterrupt) : ClicInterrupt :=
  let clic := offered calls.acknowledge (offered calls.interruptBegin clic)
  if clic.vectored then offered calls.clearEdge clic else clic

def acknowledged (u : InterruptState xlen) : InterruptState xlen :=
  if u.trap.cpuInClicMode && u.trap.isInterrupt then
    let u := performed u calls.acknowledge
    if u.trap.clicInterrupt.vectored then performed u calls.clearEdge else u
  else u

end Callbacks

/-! ### The hart -/

section

variable (H : Hart xlen) (calls : Callbacks) (u : InterruptState xlen)

/-- `do_interrupt`, which only calls back if there is a trap that can be masked. -/
def doInterrupt : Option (InterruptState xlen) :=
  if u.trap.nmiPending ≠ 0 || u.trap.exceptionIndex = excpNone then
    (Trap.doInterrupt H u.trap).map fun t => { u with trap := t }
  else
    let u := performed u calls.interruptBegin
    (Trap.doInterrupt (calls.hart H) u.trap).map fun t => { calls.acknowledged u with trap := t }

def withExceptionIndex (exceptionIndex : BitVec 32) : InterruptState xlen :=
  { u with trap := { u.trap with exceptionIndex := exceptionIndex } }

/-- `otherRequest` stands for `CPU_INTERRUPT_HARD` and `RISCV_CPU_INTERRUPT_CUSTOM`. -/
def processInterrupt (debugMode otherRequest : Bool) : Option (InterruptState xlen) :=
  if debugMode then some u
  else if otherRequest || u.clicRequest then
    let interruptno := u.riscvCpuHwInterruptsPending H
    if u.trap.nmiPending ≠ 0 then doInterrupt H calls u
    else if interruptno ≠ excpNone then
      doInterrupt H calls (withExceptionIndex u (0x80000000 ||| interruptno))
    else some u
  else some u

/-- `process_interrupt` takes an interrupt that can be masked. -/
structure Accepts (debugMode otherRequest : Bool) : Prop where
  running : debugMode = false
  request : (otherRequest || u.clicRequest) = true
  noNmi : u.trap.nmiPending = 0
  interruptno : u.riscvCpuHwInterruptsPending H ≠ excpNone

instance (debugMode otherRequest : Bool) : Decidable (Accepts H u debugMode otherRequest) :=
  decidable_of_iff (debugMode = false ∧ (otherRequest || u.clicRequest) = true ∧
      u.trap.nmiPending = 0 ∧ u.riscvCpuHwInterruptsPending H ≠ excpNone)
    ⟨fun ⟨running, request, noNmi, interruptno⟩ => ⟨running, request, noNmi, interruptno⟩,
      fun ⟨running, request, noNmi, interruptno⟩ => ⟨running, request, noNmi, interruptno⟩⟩

/-- The value of `clic_interrupt_priv` for a mode. -/
def clicPriv : TrapMode → BitVec 32
  | .machine => 3
  | .supervisor => 1

def threshold : TrapMode → Nat
  | .machine => (getField u.mintthresh threshTh).toNat
  | .supervisor => (getField u.sintthresh threshTh).toNat

/-- `MIL` or `SIL` -/
def currentLevel (m : TrapMode) : Nat := (getField u.trap.mintstatus m.level).toNat

def previousLevel (m : TrapMode) : Nat := (getField (u.trap.xcause m) causePil).toNat

/-- The test of `mnxti_read_handler` and of `snxti_read_handler`. -/
def nxtiPending (m : TrapMode) : Bool :=
  u.clicInterruptPending ≠ excpNone && u.trap.clicInterrupt.priv = clicPriv m &&
    previousLevel u m < u.trap.clicInterrupt.level.toNat &&
    threshold u m < u.trap.clicInterrupt.level.toNat && !u.trap.clicInterrupt.vectored

/-- The two handlers for a source that is not 0. The write of `mstatus` comes before them. -/
def nxtiReadHandler (m : TrapMode) (clearEdge : List Call) : InterruptState xlen :=
  let pending := u.clicInterruptPending.signExtend xlen
  let trap :=
    match m with
    | .machine => mnxtiReadHandler H u.trap pending
    | .supervisor => snxtiReadHandler u.trap pending
  if nxtiPending u m then performed { u with trap := trap } clearEdge else u

end

/-! ### What is compared -/

def clicMode (clic : ClicInterrupt) : TrapMode :=
  if clic.priv = clicPriv .supervisor then .supervisor else .machine

/-- The interrupt is taken at this privilege, and at its own one only above level and threshold. -/
structure Preempts (u : InterruptState xlen) (m : TrapMode) : Prop where
  mode : u.trap.clicInterrupt.priv = clicPriv m
  below : u.trap.priv ≤ m.priv
  enabled : u.trap.priv = m.priv → getField u.trap.mstatus m.xie ≠ 0
  aboveLevel : u.trap.priv = m.priv → currentLevel u m < u.trap.clicInterrupt.level.toNat
  aboveThreshold : u.trap.priv = m.priv → threshold u m < u.trap.clicInterrupt.level.toNat

variable {H : Hart xlen} {calls : Callbacks} {u u' : InterruptState xlen} {m : TrapMode}

theorem toNat_fieldOf {f : Field} (H : Hart xlen) (reg : BitVec xlen)
    (low : f.shift + f.width ≤ 32) : (InterruptState.fieldOf reg f).toNat = (getField reg f).toNat := by
  have small : (getField reg f).toNat < 2 ^ f.width := toNat_getField_lt (fits H low)
  unfold InterruptState.fieldOf
  rw [toNat_setWidth]
  exact Nat.mod_eq_of_lt (Nat.lt_of_lt_of_le small (Nat.pow_le_pow_right (by decide) (by omega)))

theorem lt_of_larger_lt {level threshold current : BitVec 32}
    (above : level > if threshold > current then threshold else current) :
    current.toNat < level.toNat ∧ threshold.toNat < level.toNat := by
  rw [gt_iff_lt, lt_def] at above
  split at above
  next larger =>
    rw [gt_iff_lt, lt_def] at larger
    omega
  next notLarger =>
    rw [gt_iff_lt, lt_def] at notLarger
    omega

theorem modeEnabled_iff {prv : BitVec xlen} {xie : Field} : u.modeEnabled prv xie = true ↔
      u.trap.priv = prv ∧ getField u.trap.mstatus xie ≠ 0 ∨ u.trap.priv < prv := by
  unfold InterruptState.modeEnabled
  simp

theorem Preempts.of_compared (mode : u.trap.clicInterrupt.priv = clicPriv m)
    (modeEnabled : u.modeEnabled m.priv m.xie = true)
    (level : u.trap.priv = m.priv → currentLevel u m < u.trap.clicInterrupt.level.toNat ∧
      threshold u m < u.trap.clicInterrupt.level.toNat) : Preempts u m := by
  rw [modeEnabled_iff] at modeEnabled
  refine ⟨mode, ?_, fun same => ?_, fun same => (level same).1, fun same => (level same).2⟩
  · rcases modeEnabled with same | lower
    · exact same.1 ▸ BitVec.le_refl _
    · exact BitVec.le_of_lt lower
  · rcases modeEnabled with enabled | lower
    · exact enabled.2
    · exact absurd (same ▸ lower) (BitVec.lt_irrefl _)

theorem slevel_lt (H : Hart xlen) (above : u.trap.clicInterrupt.level > u.slevel)
    (same : u.trap.priv = prvS) :
    currentLevel u .supervisor < u.trap.clicInterrupt.level.toNat ∧
      threshold u .supervisor < u.trap.clicInterrupt.level.toNat := by
  unfold InterruptState.slevel at above
  rw [same, if_neg (BitVec.lt_irrefl _)] at above
  have both := lt_of_larger_lt above
  rw [toNat_fieldOf H _ (by decide), toNat_fieldOf H _ (by decide)] at both
  exact both

theorem mlevel_lt (H : Hart xlen) (above : u.trap.clicInterrupt.level > u.mlevel)
    (same : u.trap.priv = prvM) :
    currentLevel u .machine < u.trap.clicInterrupt.level.toNat ∧
      threshold u .machine < u.trap.clicInterrupt.level.toNat := by
  unfold InterruptState.mlevel at above
  rw [same, if_neg (BitVec.lt_irrefl _)] at above
  have both := lt_of_larger_lt above
  rw [toNat_fieldOf H _ (by decide), toNat_fieldOf H _ (by decide)] at both
  exact both

theorem interruptno_spec (clic : u.trap.cpuInClicMode = true)
    (interruptno : u.riscvCpuHwInterruptsPending H ≠ excpNone) :
    u.riscvCpuHwInterruptsPending H = u.clicInterruptPending ∧
      Preempts u (clicMode u.trap.clicInterrupt) := by
  unfold InterruptState.riscvCpuHwInterruptsPending at interruptno ⊢
  rw [if_pos clic] at interruptno ⊢
  unfold InterruptState.riscvClicInterruptPending at interruptno ⊢
  rw [clic] at interruptno ⊢
  simp only [Bool.not_true, Bool.false_eq_true, if_false, Bool.and_eq_true, decide_eq_true_eq]
    at interruptno ⊢
  split at interruptno
  next supervisor =>
    refine ⟨if_pos supervisor, ?_⟩
    obtain ⟨⟨⟨modeEnabled, mode⟩, _⟩, above⟩ := supervisor
    have which : clicMode u.trap.clicInterrupt = .supervisor := if_pos mode
    rw [which]
    exact Preempts.of_compared mode modeEnabled (slevel_lt H above)
  next notSupervisor =>
    split at interruptno
    next machine =>
      refine ⟨(if_neg notSupervisor).trans (if_pos machine), ?_⟩
      obtain ⟨⟨⟨modeEnabled, mode⟩, _⟩, above⟩ := machine
      have which : clicMode u.trap.clicInterrupt = .machine := by
        unfold clicMode
        rw [mode]
        rfl
      rw [which]
      exact Preempts.of_compared mode modeEnabled (mlevel_lt H above)
    next => exact absurd rfl interruptno

/-! ### What is recorded -/

/-- `mtvt` or `stvt` -/
def xtvt (s : State xlen) : TrapMode → BitVec xlen
  | .machine => s.mtvt
  | .supervisor => s.stvt

/-- The cause, as the entry into a handler of CLIC mode leaves it. -/
structure Records (cause : BitVec xlen) (id : BitVec 32) : Prop where
  exccode : (getField cause causeExccode).toNat = id.toNat
  interrupt : cause.getLsbD (xlen - 1) = true

/-- What the entry into a handler of mode `m` writes in CLIC mode. -/
structure EntersClic (H : Hart xlen) (s : State xlen) (clic : ClicInterrupt) (m : TrapMode)
    (t : State xlen) : Prop where
  priv : t.priv = m.priv
  level : (getField t.mintstatus m.level).toNat = clic.level.toNat % 2 ^ 8
  otherLevel : getField t.mintstatus m.other.level = getField s.mintstatus m.other.level
  cause : ∀ i < xlen, (∀ f ∈ [causePil, causePie, causePp, causeInhv], ¬f.Has i) →
    (t.xcause m).getLsbD i = s.fixedCause.getLsbD i
  pc : t.pc = s.handler H (s.xtvec m) (xtvt s m) clic.vectored

variable {s t : State xlen} {v : BitVec xlen}

theorem writeMcause_bit (s : State xlen) {i : Nat} (less : i < xlen) (notPie : ¬causePie.Has i)
    (notPp : ¬causePp.Has i) : (writeMcause H s v).mcause.getLsbD i = v.getLsbD i := by
  have kept (mcause mstatus : BitVec xlen) :
      (mirrored mcause mstatus).getLsbD i = mcause.getLsbD i := by
    unfold mirrored
    rw [setField_of_not_has less notPie, setField_of_not_has less notPp]
  unfold writeMcause
  dsimp only
  split
  next clic =>
    have mcause (newMstatus : BitVec xlen) :
        (writeMstatus H { s with mcause := v } newMstatus).mcause =
          mirrored v (writeMstatus H { s with mcause := v } newMstatus).mstatus := if_pos clic
    rw [kept, mcause, kept]
  next => rfl

theorem causeWord_bit (level xpie : BitVec xlen) {i : Nat} (less : i < xlen)
    (outside : ∀ f ∈ [causePil, causePie, causePp, causeInhv], ¬f.Has i) :
    (s.causeWord level xpie).getLsbD i = s.fixedCause.getLsbD i := by
  unfold State.causeWord
  split
  · rw [setField_of_not_has less (outside causeInhv (by simp)),
      setField_of_not_has less (outside causePp (by simp)),
      setField_of_not_has less (outside causePie (by simp)),
      setField_of_not_has less (outside causePil (by simp))]
  · rfl

theorem toNat_setLevel (H : Hart xlen) (m : TrapMode) (reg : BitVec xlen) (level : BitVec 32) :
    (getField (setField reg m.level (level.setWidth xlen)) m.level).toNat =
      level.toNat % 2 ^ 8 := by
  have wide := H.le_xlen
  have low : m.level.shift + m.level.width ≤ 32 := by
    cases m <;> decide
  have width : m.level.width = 8 := by
    cases m <;> rfl
  have kept : level.toNat < 2 ^ xlen :=
    Nat.lt_of_lt_of_le level.isLt (Nat.pow_le_pow_right (by decide) wide)
  rw [getField_setField (fits H low), width, toNat_getField (by simp only; omega),
    toNat_setWidth, Nat.pow_zero, Nat.div_one, Nat.mod_eq_of_lt kept]

theorem otherLevel_setLevel (H : Hart xlen) (m : TrapMode) (reg level : BitVec xlen) :
    getField (setField reg m.level level) m.other.level = getField reg m.other.level := by
  cases m
  · exact getField_other H (by decide) (by decide) _ _
  · exact getField_other H (by decide) (by decide) _ _

theorem enterM_entersClic (H : Hart xlen) (interrupt : s.isInterrupt = true)
    (clic : ClicInterrupt) : ∃ t, s.enterM H clic = some t ∧ EntersClic H s clic .machine t := by
  refine ⟨_, riscvSetMode_prvM H, ?_⟩
  rw [raiseLevel_eq, raiseLevel_mintstatus, if_pos interrupt, writeMcause_frame]
  exact
    { priv := rfl
      level := toNat_setLevel H .machine s.mintstatus clic.level
      otherLevel := otherLevel_setLevel H .machine s.mintstatus (clic.level.setWidth xlen)
      cause := fun i less outside => by
        refine (writeMcause_bit _ less (outside causePie (by simp))
          (outside causePp (by simp))).trans ?_
        exact causeWord_bit _ _ less outside
      pc := rfl }

theorem enterS_entersClic (H : Hart xlen) (interrupt : s.isInterrupt = true)
    (clic : ClicInterrupt) :
    ∃ t, s.enterS H clic = some t ∧ EntersClic H s clic .supervisor t := by
  refine ⟨_, riscvSetMode_prvS H, ?_⟩
  rw [raiseLevel_eq, raiseLevel_mintstatus, if_pos interrupt]
  exact
    { priv := rfl
      level := toNat_setLevel H .supervisor s.mintstatus clic.level
      otherLevel := otherLevel_setLevel H .supervisor s.mintstatus (clic.level.setWidth xlen)
      cause := fun i less outside => causeWord_bit _ _ less outside
      pc := rfl }

/-! ### One interrupt -/

/-- The calls from the callbacks leave the interrupt as it was compared. -/
structure Undisturbed (calls : Callbacks) (clic : ClicInterrupt) : Prop where
  mode : (offered calls.interruptBegin clic).priv = clicPriv .machine ↔
    clic.priv = clicPriv .machine
  level : (calls.entered clic).level.toNat % 2 ^ 8 = clic.level.toNat
  vectored : (calls.entered clic).vectored = clic.vectored

/-- What is recorded of an interrupt of mode `m` is what was compared. -/
structure Recorded (H : Hart xlen) (m : TrapMode) (u u' : InterruptState xlen) : Prop where
  priv : u'.trap.priv = m.priv
  level : currentLevel u' m = u.trap.clicInterrupt.level.toNat
  cause : Records (u'.trap.xcause m) u.clicInterruptPending
  pc : u'.trap.pc = if u.trap.clicInterrupt.vectored then
      H.ldpPhys (xtvt u.trap m + u.clicInterruptPending.setWidth xlen * BitVec.ofNat xlen (xlen / 8))
    else u.trap.xtvec m &&& ~~~mtvecModeSubmode.mask xlen

theorem performed_trap (u : InterruptState xlen) (calls : List Call) : (performed u calls).trap =
      { u.trap with clicInterrupt := offered calls u.trap.clicInterrupt } := by
  induction calls generalizing u with
  | nil => rfl
  | cons call rest ih => exact ih (tlibSetClicInterruptState u call)

theorem acknowledge_eq (clicMode : s.cpuInClicMode = true) (interrupt : s.isInterrupt = true)
    (clic : ClicInterrupt) (begun : s.clicInterrupt = offered calls.interruptBegin clic) :
    acknowledge (calls.hart H) s = calls.entered clic := by
  unfold acknowledge Callbacks.entered
  rw [clicMode, interrupt, begun]
  rfl

theorem setWidth_eq_prvM_iff (H : Hart xlen) (priv : BitVec 32) :
    priv.setWidth xlen = prvM ↔ priv = clicPriv .machine := by
  rw [← toNat_inj, ← toNat_inj, toNat_setWidth,
    Nat.mod_eq_of_lt (Nat.lt_of_lt_of_le priv.isLt (Nat.pow_le_pow_right (by decide) H.le_xlen))]
  rcases H.xlen_eq with rfl | rfl <;> exact Iff.rfl

theorem doInterrupt_entersClic (H : Hart xlen) (clic : s.cpuInClicMode = true)
    (interrupt : s.isInterrupt = true) (noNmi : s.nmiPending = 0)
    (pending : s.exceptionIndex ≠ excpNone)
    (mode : s.clicInterrupt.priv = clicPriv .machine ↔ m = .machine) :
    ∃ t, Trap.doInterrupt H s = some { t with exceptionIndex := excpNone } ∧
      EntersClic H s (acknowledge H s) m t := by
  have intPriv : s.intPriv = s.clicInterrupt.priv.setWidth xlen := by
    unfold State.intPriv
    rw [clic, interrupt]
    rfl
  have which : s.intPriv = prvM ↔ m = .machine := by
    rw [intPriv, setWidth_eq_prvM_iff H, mode]
  unfold Trap.doInterrupt State.takeTrap
  rw [if_neg (not_not.mpr noNmi), if_neg pending, clic, interrupt, Bool.and_self, Bool.or_true,
    Bool.not_true, Bool.or_false]
  cases m with
  | machine =>
    obtain ⟨t, entered, enters⟩ := enterM_entersClic H interrupt (acknowledge H s)
    refine ⟨t, ?_, enters⟩
    rw [if_pos (decide_eq_true (which.mpr rfl)), entered]
    rfl
  | supervisor =>
    obtain ⟨t, entered, enters⟩ := enterS_entersClic H interrupt (acknowledge H s)
    refine ⟨t, ?_, enters⟩
    rw [decide_eq_false (mt which.mp (by decide)), if_neg (by decide), entered]
    rfl

theorem exceptionIndex_number {id : BitVec 32} (small : id.toNat < 2 ^ 31) :
    (0x80000000 ||| id) &&& 0x7FFFFFFF = id := by
  rw [and_or_distrib_right]
  apply eq_of_toNat_eq
  rw [toNat_or, toNat_and id,
    show (0x7FFFFFFF : BitVec 32).toNat = 2 ^ 31 - 1 from rfl, Nat.and_two_pow_sub_one_eq_mod,
    Nat.mod_eq_of_lt small]
  exact Nat.zero_or id.toNat

theorem exceptionIndex_interrupt (id : BitVec 32) : (0x80000000 ||| id) &&& 0x80000000 ≠ 0 := by
  intro zero
  have bit := congrArg (getLsbD · 31) zero
  simp at bit

theorem exceptionIndex_ne {id : BitVec 32} (small : id.toNat < 2 ^ 31 - 1) :
    0x80000000 ||| id ≠ excpNone := by
  intro same
  have number : (0x80000000 ||| id) &&& 0x7FFFFFFF = id := exceptionIndex_number (by omega)
  rw [same] at number
  rw [← number] at small
  exact absurd small (by decide)

theorem bit_eq {id : BitVec 32} (small : id.toNat < 2 ^ 31)
    (index : s.exceptionIndex = 0x80000000 ||| id) :
    s.isInterrupt = true ∧ s.bit = id.setWidth xlen := by
  have interrupt : s.isInterrupt = true := by
    unfold State.isInterrupt
    rw [index]
    exact decide_eq_true (exceptionIndex_interrupt id)
  refine ⟨interrupt, ?_⟩
  unfold State.bit
  rw [if_pos interrupt, index, exceptionIndex_number small]

theorem EntersClic.records {clic : ClicInterrupt} {id : BitVec 32} (H : Hart xlen)
    (enters : EntersClic H s clic m t) (small : id.toNat < 2 ^ 12)
    (index : s.exceptionIndex = 0x80000000 ||| id) : Records (t.xcause m) id := by
  have wide := H.le_xlen
  obtain ⟨interrupt, number⟩ := bit_eq (s := s) (by omega) index
  have fixedCause (i : Nat) (less : i < xlen) :
      s.fixedCause.getLsbD i = ((id.setWidth xlen).getLsbD i || decide (i = xlen - 1)) := by
    have top : (causeInterrupt : BitVec xlen).getLsbD i = decide (i = xlen - 1) := by
      unfold causeInterrupt
      rw [getLsbD_shiftLeft, getLsbD_ofNat, decide_eq_true less, Bool.true_and,
        Bool.and_comm]
      by_cases below : i < xlen - 1
      · simp [below, Nat.ne_of_lt below]
      · have same : i = xlen - 1 := by omega
        simp [same, show 0 < xlen by omega]
    unfold State.fixedCause
    rw [if_pos interrupt, getLsbD_or, number, top]
  constructor
  · have low : getField (t.xcause m) causeExccode = getField (id.setWidth xlen) causeExccode := by
      refine getField_congr (fits H (by decide)) fun i has => ?_
      unfold Field.Has causeExccode at has
      simp only at has
      rw [enters.cause i (by omega), fixedCause i (by omega), decide_eq_false (by omega),
        Bool.or_false]
      simp [Field.Has, causePil, causePie, causePp, causeInhv]
      omega
    rw [low, toNat_getField (fits H (by decide)), toNat_setWidth]
    have fitting : id.toNat < 2 ^ xlen :=
      Nat.lt_of_lt_of_le id.isLt (Nat.pow_le_pow_right (by decide) wide)
    rw [Nat.mod_eq_of_lt fitting]
    change id.toNat / 2 ^ 0 % 2 ^ 12 = id.toNat
    omega
  · rw [enters.cause (xlen - 1) (by omega), fixedCause (xlen - 1) (by omega), decide_eq_true rfl,
      Bool.or_true]
    simp [Field.Has, causePil, causePie, causePp, causeInhv]
    omega

theorem clicPriv_eq_machine_iff : clicPriv m = clicPriv .machine ↔ m = .machine := by
  cases m <;> decide

theorem processInterrupt_accepts {debugMode otherRequest : Bool}
    (accepts : Accepts H u debugMode otherRequest) :
    processInterrupt H calls u debugMode otherRequest = doInterrupt H calls
        (withExceptionIndex u (0x80000000 ||| u.riscvCpuHwInterruptsPending H)) := by
  unfold processInterrupt
  rw [accepts.running, if_neg (by decide), if_pos accepts.request]
  rw [if_neg (not_not.mpr accepts.noNmi), if_pos accepts.interruptno]

theorem doInterrupt_begins (noNmi : u.trap.nmiPending = 0)
    (pending : u.trap.exceptionIndex ≠ excpNone) :
    doInterrupt H calls u =
      (Trap.doInterrupt (calls.hart H) (performed u calls.interruptBegin).trap).map fun t =>
        { calls.acknowledged (performed u calls.interruptBegin) with trap := t } := by
  unfold doInterrupt
  rw [noNmi, decide_eq_false pending, if_neg (by decide)]

theorem processInterrupt_spec {debugMode otherRequest : Bool} (clic : u.trap.cpuInClicMode = true)
    (accepts : Accepts H u debugMode otherRequest)
    (undisturbed : Undisturbed calls u.trap.clicInterrupt)
    (small : u.clicInterruptPending.toNat < 2 ^ 12) (which : clicMode u.trap.clicInterrupt = m) :
    ∃ u', processInterrupt H calls u debugMode otherRequest = some u' ∧ Recorded H m u u' ∧
      currentLevel u' m.other = currentLevel u m.other := by
  obtain ⟨selected, preempts⟩ := interruptno_spec clic accepts.interruptno
  rw [which] at preempts
  generalize index : 0x80000000 ||| u.clicInterruptPending = exceptionIndex
  generalize began : performed (withExceptionIndex u exceptionIndex) calls.interruptBegin = begun
  have trap : begun.trap = { u.trap with
      exceptionIndex := exceptionIndex
      clicInterrupt := offered calls.interruptBegin u.trap.clicInterrupt } := by
    rw [← began, performed_trap]
    rfl
  have pending : exceptionIndex ≠ excpNone := index ▸ exceptionIndex_ne (by omega)
  have indexed : begun.trap.exceptionIndex = 0x80000000 ||| u.clicInterruptPending := by
    rw [trap, index]
  have clic' : begun.trap.cpuInClicMode = true := by
    rw [trap]
    exact clic
  obtain ⟨interrupt, number⟩ := bit_eq (s := begun.trap) (by omega) indexed
  have mode : begun.trap.clicInterrupt.priv = clicPriv .machine ↔ m = .machine := by
    rw [trap, undisturbed.mode, preempts.mode, clicPriv_eq_machine_iff]
  have noNmi : begun.trap.nmiPending = 0 := by
    rw [trap]
    exact accepts.noNmi
  obtain ⟨t, entered, enters⟩ := doInterrupt_entersClic (calls.hart H) clic' interrupt noNmi
    (indexed.trans index ▸ pending) mode
  rw [acknowledge_eq clic' interrupt u.trap.clicInterrupt (by rw [trap])] at enters
  refine ⟨{ calls.acknowledged begun with trap := { t with exceptionIndex := excpNone } }, ?_,
    ⟨enters.priv, enters.level.trans undisturbed.level, ?_, ?_⟩, ?_⟩
  · rw [processInterrupt_accepts accepts, selected, index,
      doInterrupt_begins (show (withExceptionIndex u exceptionIndex).trap.nmiPending = 0 from
        accepts.noNmi) pending, began, entered]
    rfl
  · have records := enters.records (calls.hart H) small indexed
    cases m <;> exact records
  · have pc : t.pc = _ := enters.pc
    unfold State.handler at pc
    rw [if_pos clic', interrupt, undisturbed.vectored, number, Bool.true_and] at pc
    rw [pc, trap]
    cases m <;> rfl
  · have kept := congrArg BitVec.toNat enters.otherLevel
    rw [trap] at kept
    exact kept

/-! ### Levels after other instructions -/

theorem writeMcause_pil (H : Hart xlen) (s : State xlen) (v : BitVec xlen) :
    getField (writeMcause H s v).mcause causePil = getField v causePil := by
  have wide := H.le_xlen
  refine getField_congr (fits H (by decide)) fun i has => ?_
  unfold Field.Has causePil at has
  simp only at has
  refine writeMcause_bit s (by omega) ?_ ?_
  · unfold Field.Has causePie
    simp only
    omega
  · unfold Field.Has causePp
    simp only
    omega

theorem restoreMil_sil (H : Hart xlen) (s : State xlen) :
    getField (restoreMil s).mintstatus mintstatusSil = getField s.mintstatus mintstatusSil := by
  unfold restoreMil
  split
  · exact getField_other H (by decide) (by decide) _ _
  · rfl

theorem restoreSil_mil (H : Hart xlen) (s : State xlen) :
    getField (restoreSil s).mintstatus mintstatusMil = getField s.mintstatus mintstatusMil := by
  unfold restoreSil
  split
  · exact getField_other H (by decide) (by decide) _ _
  · rfl

theorem helperMret_levels (H : Hart xlen) (clic : s.cpuInClicMode = true)
    (done : helperMret H s = some t) :
    getField t.mintstatus mintstatusMil = getField s.mcause causePil ∧
      getField t.mintstatus mintstatusSil = getField s.mintstatus mintstatusSil := by
  unfold helperMret at done
  split at done
  · cases done
  split at done
  · cases done
  rw [Option.map_eq_some_iff] at done
  obtain ⟨u, mode, rfl⟩ := done
  dsimp only [leave]
  have entered := riscvSetMode_frame mode
  have pil : getField (writeMstatus H u (popM H s.mstatus)).mcause causePil =
      getField s.mcause causePil := by
    rw [writeMstatus_mcause_field H (by decide) (by decide) (by decide), entered]
  have word : getField (setField (setField (writeMstatus H u (popM H s.mstatus)).mcause causePp
      (lowestPriv H)) causePie 1) causePil = getField s.mcause causePil := by
    rw [getField_other H (by decide) (by decide), getField_other H (by decide) (by decide), pil]
  generalize setField (setField (writeMstatus H u (popM H s.mstatus)).mcause causePp
    (lowestPriv H)) causePie 1 = w at word ⊢
  have written := writeMcause_pil H (writeMstatus H u (popM H s.mstatus)) w
  have frame := writeMcause_frame H (writeMstatus H u (popM H s.mstatus)) w
  generalize writeMcause H (writeMstatus H u (popM H s.mstatus)) w = r at written frame ⊢
  have clic' : r.cpuInClicMode = true := by
    rw [frame]
    rw [entered]
    exact clic
  constructor
  · exact (restoreMil_mil H clic').trans (written.trans word)
  · refine (restoreMil_sil H r).trans ?_
    rw [frame]
    change getField u.mintstatus mintstatusSil = _
    rw [entered]

theorem helperSret_levels (H : Hart xlen) (clic : s.cpuInClicMode = true)
    (done : helperSret H s = some t) :
    getField t.mintstatus mintstatusSil = getField s.scause causePil ∧
      getField t.mintstatus mintstatusMil = getField s.mintstatus mintstatusMil := by
  unfold helperSret at done
  split at done
  · cases done
  split at done
  · cases done
  split at done
  · cases done
  split at done
  · cases done
  rw [Option.map_eq_some_iff] at done
  obtain ⟨u, mode, rfl⟩ := done
  dsimp only [leave]
  have entered := riscvSetMode_frame mode
  have word : getField (setField (setField (writeSstatus H u (popS H s.mstatus)).scause causePp
      prvU) causePie 1) causePil = getField s.scause causePil := by
    rw [getField_other H (by decide) (by decide), getField_other H (by decide) (by decide)]
    change getField u.scause causePil = _
    rw [entered]
  generalize setField (setField (writeSstatus H u (popS H s.mstatus)).scause causePp prvU)
    causePie 1 = w at word ⊢
  have clic' : (writeScause (writeSstatus H u (popS H s.mstatus)) w).cpuInClicMode = true := by
    rw [entered]
    exact clic
  constructor
  · exact (restoreSil_sil H clic').trans word
  · refine (restoreSil_mil H _).trans ?_
    change getField u.mintstatus mintstatusMil = _
    rw [entered]

theorem xret_levels (H : Hart xlen) (clic : s.cpuInClicMode = true) (done : xret H m s = some t) :
    getField t.mintstatus m.level = getField (s.xcause m) causePil ∧
      getField t.mintstatus m.other.level = getField s.mintstatus m.other.level := by
  cases m with
  | machine => exact helperMret_levels H clic done
  | supervisor => exact helperSret_levels H clic done

theorem nxtiReadHandler_levels (H : Hart xlen) (clearEdge : List Call)
    (pending : nxtiPending u m = true) :
    currentLevel (nxtiReadHandler H u m clearEdge) m = u.trap.clicInterrupt.level.toNat % 2 ^ 8 ∧
      currentLevel (nxtiReadHandler H u m clearEdge) m.other = currentLevel u m.other := by
  have raised : (nxtiReadHandler H u m clearEdge).trap.mintstatus =
      setField u.trap.mintstatus m.level (u.trap.clicInterrupt.level.setWidth xlen) := by
    unfold nxtiReadHandler
    rw [if_pos pending, performed_trap]
    cases m with
    | machine =>
      unfold mnxtiReadHandler
      rw [writeMcause_frame]
      rfl
    | supervisor => rfl
  unfold currentLevel
  rw [raised, otherLevel_setLevel H]
  exact ⟨toNat_setLevel H m _ _, rfl⟩

end Tlib.Riscv.Clic
