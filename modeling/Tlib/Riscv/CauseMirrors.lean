import Tlib.Riscv.DirtySummary
import Tlib.Riscv.TrapUndo

/-!
Contract: the aliases of `mstatus` and `sstatus` in `mcause` and `scause`.

Owns: the writers that reach the aliased fields in CLIC mode, and the runs in which both registers
show the same.
-/

namespace Tlib.Riscv.Trap

open Tlib.Library.BitFields BitVec List

variable {xlen : Nat} {H : Hart xlen} {s t : State xlen} {v w : BitVec xlen}

/-! ### Writers -/

inductive InterruptMode where
  | auto
  | direct
  | vectored
  deriving DecidableEq, Repr

def mtvecStvecWriteHandler (H : Hart xlen) (interruptMode : InterruptMode)
    (valToWrite : BitVec xlen) : BitVec xlen :=
  match interruptMode with
  | .auto =>
    if H.privilegeArchitecture = .unratified then valToWrite
    else if H.privilegeArchitecture.since110 then valToWrite &&& ~~~2
    else valToWrite &&& ~~~mtvecMode.mask xlen
  | .direct => valToWrite &&& ~~~mtvecMode.mask xlen
  | .vectored => (valToWrite &&& ~~~mtvecMode.mask xlen) ||| 1

/-- `MCAUSE_EXCCODE` -/
def causeExccode : Field := ⟨0, 12⟩

/-- What `mnxti_read_handler` writes for the pending interrupt. -/
def mnxtiReadHandler (H : Hart xlen) (s : State xlen) (pending : BitVec xlen) : State xlen :=
  let s := writeMintstatus s
    (setField s.mintstatus mintstatusMil (s.clicInterrupt.level.setWidth xlen))
  writeMcause H s (setField s.mcause causeExccode pending ||| causeInterrupt)

/-- What `snxti_read_handler` writes for the pending interrupt. -/
def snxtiReadHandler (s : State xlen) (pending : BitVec xlen) : State xlen :=
  let s := writeMintstatus s
    (setField s.mintstatus mintstatusSil (s.clicInterrupt.level.setWidth xlen))
  writeScause s (setField s.scause causeExccode pending ||| causeInterrupt)

/-- The registers whose writes reach an aliased field or the mode. -/
inductive MirrorCsr where
  | mstatus
  | sstatus
  | mcause
  | scause
  | mtvec
  deriving DecidableEq, Repr

def writeMirrorCsr (H : Hart xlen) (interruptMode : InterruptMode) (s : State xlen)
    (valToWrite : BitVec xlen) : MirrorCsr → State xlen
  | .mstatus => writeMstatus H s valToWrite
  | .sstatus => writeSstatus H s valToWrite
  | .mcause => writeMcause H s valToWrite
  | .scause => writeScause s valToWrite
  | .mtvec => { s with mtvec := mtvecStvecWriteHandler H interruptMode valToWrite }

/-! ### Runs -/

/-- The fields of `mstatus` that have an alias. -/
def aliased : List Field := [mstatusMpp, mstatusMpie, mstatusSpp, mstatusSpie]

/-- A step that reaches no alias and not the mode. -/
structure Apart (s s' : State xlen) : Prop where
  mtvec : s'.mtvec = s.mtvec
  mcause : s'.mcause = s.mcause
  scause : s'.scause = s.scause
  fields : ∀ f ∈ aliased, getField s'.mstatus f = getField s.mstatus f

inductive MirrorAction (xlen : Nat) where
  | csrWrite (csr : MirrorCsr) (valToWrite : BitVec xlen)
  | mnxti (pending : BitVec xlen)
  | snxti (pending : BitVec xlen)
  | doInterrupt
  | doNmi
  | xret (m : TrapMode)
  | elsewhere

inductive MirrorStep (H : Hart xlen) (interruptMode : InterruptMode) (s : State xlen) :
    MirrorAction xlen → State xlen → Prop where
  | csrWrite (csr : MirrorCsr) (v : BitVec xlen) :
      MirrorStep H interruptMode s (.csrWrite csr v) (writeMirrorCsr H interruptMode s v csr)
  | mnxti (pending : BitVec xlen) :
      MirrorStep H interruptMode s (.mnxti pending) (mnxtiReadHandler H s pending)
  | snxti (pending : BitVec xlen) :
      MirrorStep H interruptMode s (.snxti pending) (snxtiReadHandler s pending)
  | doInterrupt {t : State xlen} (done : Trap.doInterrupt H s = some t) :
      MirrorStep H interruptMode s .doInterrupt t
  | doNmi {t : State xlen} (done : Trap.doNmi H s = some t) : MirrorStep H interruptMode s .doNmi t
  | xret {m : TrapMode} {t : State xlen} (done : Trap.xret H m s = some t) :
      MirrorStep H interruptMode s (.xret m) t
  | elsewhere {t : State xlen} (apart : Apart s t) : MirrorStep H interruptMode s .elsewhere t

/-- The runs from `s` whose steps are all permitted. -/
inductive MirrorRuns (H : Hart xlen) (interruptMode : InterruptMode)
    (permitted : State xlen → MirrorAction xlen → Prop) (s : State xlen) : State xlen → Prop where
  | start : MirrorRuns H interruptMode permitted s s
  | step {t u : State xlen} {a : MirrorAction xlen}
      (before : MirrorRuns H interruptMode permitted s t) (allowed : permitted t a)
      (next : MirrorStep H interruptMode t a u) : MirrorRuns H interruptMode permitted s u

/-- `mcause` has the values of `mstatus`. -/
structure MachineSync (s : State xlen) : Prop where
  mpp : getField s.mcause causePp = getField s.mstatus mstatusMpp
  mpie : getField s.mcause causePie = getField s.mstatus mstatusMpie

/-- `scause` has the values of `sstatus`, which is a view of `mstatus`. -/
structure SupervisorSync (s : State xlen) : Prop where
  spp : getField s.scause causePp = getField s.mstatus mstatusSpp
  spie : getField s.scause causePie = getField s.mstatus mstatusSpie

def InSync (s : State xlen) : Prop := s.cpuInClicMode = true → MachineSync s ∧ SupervisorSync s

/-- What `scause` has to hold when `v` is written to `mstatus` or `sstatus`. -/
def ScauseHolds (H : Hart xlen) (s : State xlen) (v : BitVec xlen) : Prop :=
  H.rvs = true → getField s.scause causePp = getField v mstatusSpp ∧
      getField s.scause causePie = getField v mstatusSpie

def KeepsMirrors (H : Hart xlen) (interruptMode : InterruptMode) (s : State xlen) :
    MirrorAction xlen → Prop
  | .csrWrite .mstatus v | .csrWrite .sstatus v => s.cpuInClicMode = true → ScauseHolds H s v
  | .csrWrite .mcause _ => True
  | .csrWrite .scause v =>
    s.cpuInClicMode = true → getField v causePp = getField s.mstatus mstatusSpp ∧
        getField v causePie = getField s.mstatus mstatusSpie
  | .csrWrite .mtvec v =>
    getField (mtvecStvecWriteHandler H interruptMode v) mtvecMode = 3 →
      MachineSync s ∧ SupervisorSync s
  | .doInterrupt =>
    s.cpuInClicMode = true → s.nmiPending = 0 → s.exceptionIndex ≠ excpNone →
      s.entryMode = .supervisor → H.rvs = true ∧ (s.priv = prvU ∨ s.priv = prvS)
  | .mnxti _ | .snxti _ | .doNmi | .xret _ | .elsewhere => True

/-! ### `mstatus` and `mcause` -/

theorem mirrored_sync (H : Hart xlen) (mcause mstatus : BitVec xlen) :
    getField (mirrored mcause mstatus) causePp = getField mstatus mstatusMpp ∧
      getField (mirrored mcause mstatus) causePie = getField mstatus mstatusMpie := by
  unfold mirrored
  constructor
  · rw [getField_other H (by decide) (by decide),
      getField_copied (g := mstatusMpp) H (by decide) (by decide) (by decide)]
  · rw [getField_copied (g := mstatusMpie) H (by decide) (by decide) (by decide)]

theorem writeMstatus_machineSync (H : Hart xlen) (clic : s.cpuInClicMode = true) :
    MachineSync (writeMstatus H s v) := by
  have mcause : (writeMstatus H s v).mcause = mirrored s.mcause (writeMstatus H s v).mstatus :=
    if_pos clic
  obtain ⟨mpp, mpie⟩ := mirrored_sync H s.mcause (writeMstatus H s v).mstatus
  constructor
  · rw [mcause, mpp]
  · rw [mcause, mpie]

theorem writeMcause_machineSync (H : Hart xlen) (clic : s.cpuInClicMode = true) :
    MachineSync (writeMcause H s v) := by
  have stored : ({ s with mcause := v } : State xlen).cpuInClicMode = true := clic
  unfold writeMcause
  simp only [stored, if_true]
  generalize writeMstatus H _ _ = u
  obtain ⟨mpp, mpie⟩ := mirrored_sync H u.mcause u.mstatus
  exact ⟨mpp, mpie⟩

theorem writeMcause_frame (H : Hart xlen) (s : State xlen) (v : BitVec xlen) : writeMcause H s v =
      { s with mstatus := (writeMcause H s v).mstatus, mcause := (writeMcause H s v).mcause } := by
  unfold writeMcause
  simp only
  split <;> rfl

/-! ### `sstatus` and `scause` -/

/-- The fields that `scause` mirrors. -/
def supervisorAliased : List Field := [mstatusSpp, mstatusSpie]

theorem supervisorAliased_place {f : Field} (member : f ∈ supervisorAliased) :
    f ∈ [mstatusSie, mstatusSpie, mstatusSpp] ∧ f.shift + f.width ≤ 9 ∧ 5 ≤ f.shift ∧
      f.width = 1 ∧ f.Disjoint mstatusMpie := by
  unfold supervisorAliased at member
  simp only [mem_cons, not_mem_nil, or_false] at member
  rcases member with rfl | rfl <;> decide

theorem written_without_supervisor (H : Hart xlen) (off : H.rvs = false) {f : Field}
    (member : f ∈ supervisorAliased) (m v : BitVec xlen) :
    getField (withDirty (mstatusStored H m v)) f = getField m f := by
  have wide := H.le_xlen
  obtain ⟨_, below, above, one, _⟩ := supervisorAliased_place member
  rw [withDirty_getField (by omega) H]
  refine getField_congr (by omega) fun i has => ?_
  have hidden : (mstatusMask H v).getLsbD i = false := by
    unfold supervisorAliased at member
    simp only [mem_cons, not_mem_nil, or_false] at member
    unfold mstatusMask
    unfold Field.Has at has
    rw [getLsbD_masks _ _ (by omega), off]
    generalize H.privilegeArchitecture.since110 = since
    generalize validateVm H (getField v mstatusVm) = vm
    have place : i = f.shift := by omega
    rcases member with rfl | rfl
    · rcases H.xlen_eq with rfl | rfl <;> subst place <;> cases since <;> cases vm <;> decide
    · rcases H.xlen_eq with rfl | rfl <;> subst place <;> cases since <;> cases vm <;> decide
  unfold Field.Has at has
  rw [mstatusStored_bit (by omega), if_pos hidden]

theorem written_supervisor (H : Hart xlen) {f : Field} (member : f ∈ supervisorAliased)
    (m v : BitVec xlen) :
    getField (withDirty (mstatusStored H m v)) f =
      if H.rvs then getField v f else getField m f := by
  cases on : H.rvs with
  | false => exact written_without_supervisor H on member m v
  | true =>
    exact (written_withDirty H m v).supervisor on f (supervisorAliased_place member).1

theorem writeMstatus_supervisorSync_iff (H : Hart xlen) (before : SupervisorSync s) :
    SupervisorSync (writeMstatus H s v) ↔ ScauseHolds H s v := by
  have spp : getField (writeMstatus H s v).mstatus mstatusSpp = _ :=
    written_supervisor H (by decide) s.mstatus v
  have spie : getField (writeMstatus H s v).mstatus mstatusSpie = _ :=
    written_supervisor H (by decide) s.mstatus v
  unfold ScauseHolds
  constructor
  · intro after on
    have mirrorsSpp := after.spp
    have mirrorsSpie := after.spie
    rw [spp, on] at mirrorsSpp
    rw [spie, on] at mirrorsSpie
    exact ⟨mirrorsSpp, mirrorsSpie⟩
  · intro holds
    cases on : H.rvs with
    | false =>
      rw [on] at spp spie
      exact ⟨before.spp.trans spp.symm, before.spie.trans spie.symm⟩
    | true =>
      obtain ⟨holdsSpp, holdsSpie⟩ := holds on
      rw [on] at spp spie
      exact ⟨holdsSpp.trans spp.symm, holdsSpie.trans spie.symm⟩

theorem sstatus_supervisor (H : Hart xlen) {f : Field} (member : f ∈ supervisorAliased)
    (m v : BitVec xlen) :
    getField ((m &&& ~~~sstatusMask) ||| (v &&& sstatusMask)) f = getField v f := by
  have wide := H.le_xlen
  obtain ⟨among, below, _, _⟩ := supervisorAliased_place member
  refine getField_congr (by omega) fun i has => ?_
  have less : i < xlen := by
    unfold Field.Has at has
    omega
  have shown := @sstatusMask_has xlen _ _ among has less
  simp only [getLsbD_or, getLsbD_and, getLsbD_not, less, decide_true, shown,
    Bool.not_true, Bool.and_false, Bool.false_or, Bool.and_true]

theorem writeSstatus_supervisorSync_iff (H : Hart xlen) (before : SupervisorSync s) :
    SupervisorSync (writeSstatus H s v) ↔ ScauseHolds H s v := by
  refine (writeMstatus_supervisorSync_iff H before).trans ?_
  unfold ScauseHolds
  rw [sstatus_supervisor H (by decide) s.mstatus v, sstatus_supervisor H (by decide) s.mstatus v]

structure SupervisorFrame (s t : State xlen) : Prop where
  mtvec : t.mtvec = s.mtvec
  scause : t.scause = s.scause
  fields : ∀ f ∈ supervisorAliased, getField t.mstatus f = getField s.mstatus f

theorem SupervisorFrame.refl (s : State xlen) : SupervisorFrame s s := ⟨rfl, rfl, fun _ _ => rfl⟩

theorem SupervisorFrame.trans {u : State xlen} (first : SupervisorFrame s t)
    (second : SupervisorFrame t u) : SupervisorFrame s u :=
  ⟨second.mtvec.trans first.mtvec, second.scause.trans first.scause,
    fun f member => (second.fields f member).trans (first.fields f member)⟩

theorem SupervisorFrame.sync (frame : SupervisorFrame s t) (before : SupervisorSync s) :
    SupervisorSync t := by
  constructor
  · rw [frame.scause, frame.fields mstatusSpp (by decide)]
    exact before.spp
  · rw [frame.scause, frame.fields mstatusSpie (by decide)]
    exact before.spie

theorem cpuInClicMode_congr (mtvec : t.mtvec = s.mtvec) : t.cpuInClicMode = s.cpuInClicMode := by
  unfold State.cpuInClicMode
  rw [mtvec]

theorem SupervisorFrame.clic (frame : SupervisorFrame s t) :
    t.cpuInClicMode = s.cpuInClicMode := cpuInClicMode_congr frame.mtvec

theorem writeMstatus_supervisorFrame (H : Hart xlen)
    (same : ∀ f ∈ supervisorAliased, getField v f = getField s.mstatus f) :
    SupervisorFrame s (writeMstatus H s v) := by
  refine ⟨rfl, rfl, fun f member => ?_⟩
  refine (written_supervisor H member s.mstatus v).trans ?_
  rw [same f member, ite_self]

theorem writeMcause_supervisorFrame (H : Hart xlen) : SupervisorFrame s (writeMcause H s v) := by
  unfold writeMcause
  simp only
  split
  next clic =>
    refine ⟨rfl, rfl, fun f member => ?_⟩
    obtain ⟨_, below, _, _, apart⟩ := supervisorAliased_place member
    refine (written_supervisor H member _ _).trans ?_
    have low : f.Disjoint mstatusMpp := by
      unfold Field.Disjoint mstatusMpp
      simp only
      omega
    rw [getField_other H (by omega) apart, getField_other H (by omega) low, ite_self]
  next direct => exact ⟨rfl, rfl, fun _ _ => rfl⟩

/-! ### Traps -/

theorem riscvSetMode_frame {priv : BitVec xlen} (entered : riscvSetMode s priv = some t) :
    t = { s with priv := t.priv } := by
  unfold riscvSetMode at entered
  split at entered
  · cases entered
  · cases entered
    rfl

theorem pushed_supervisor (H : Hart xlen) {f g : Field} (member : f ∈ supervisorAliased)
    (apart : f.Disjoint g) {reg val : BitVec xlen} :
    getField (setField reg g val) f = getField reg f := by
  obtain ⟨_, below, _⟩ := supervisorAliased_place member
  exact getField_other H (by omega) apart reg val

theorem supervisorAliased_disjoint {f : Field} (member : f ∈ supervisorAliased) :
    f.Disjoint mstatusMie ∧ f.Disjoint mstatusMpie ∧ f.Disjoint mstatusMpp := by
  unfold supervisorAliased at member
  simp only [mem_cons, not_mem_nil, or_false] at member
  rcases member with rfl | rfl <;> decide

theorem inSync_congr (before : InSync s) (mtvec : t.mtvec = s.mtvec)
    (mstatus : t.mstatus = s.mstatus) (mcause : t.mcause = s.mcause)
    (scause : t.scause = s.scause) : InSync t := by
  intro clic
  rw [cpuInClicMode_congr mtvec] at clic
  obtain ⟨machine, supervisor⟩ := before clic
  refine ⟨⟨?_, ?_⟩, ⟨?_, ?_⟩⟩
  · rw [mcause, mstatus]
    exact machine.mpp
  · rw [mcause, mstatus]
    exact machine.mpie
  · rw [scause, mstatus]
    exact supervisor.spp
  · rw [scause, mstatus]
    exact supervisor.spie

theorem writeMcause_inSync (H : Hart xlen) (frame : SupervisorFrame s t) (before : InSync s) :
    InSync (writeMcause H t v) := by
  have kept := frame.trans (writeMcause_supervisorFrame (v := v) H)
  intro clic
  have was : s.cpuInClicMode = true := by
    rw [← kept.clic]
    exact clic
  have still : t.cpuInClicMode = true := by
    rw [frame.clic]
    exact was
  exact ⟨writeMcause_machineSync H still, kept.sync (before was).2⟩

theorem pushM_supervisorFrame (H : Hart xlen) {u : State xlen} (mstatus : u.mstatus = s.mstatus) :
    SupervisorFrame u (writeMstatus H u (s.pushM H)) := by
  refine writeMstatus_supervisorFrame H fun f member => ?_
  obtain ⟨mie, mpie, mpp⟩ := supervisorAliased_disjoint member
  unfold State.pushM
  rw [pushed_supervisor H member mpp, pushed_supervisor H member mie,
    pushed_supervisor H member mpie, mstatus]

theorem setMode_inSync {isInterrupt : Bool} {level : Field} {priv : BitVec xlen}
    (synced : InSync s)
    (entered : riscvSetMode (s.raiseLevel isInterrupt level) priv = some t) : InSync t := by
  obtain ⟨mstatus, mcause, scause, _, _, mtvec⟩ := @raiseLevel_frame _ s isInterrupt level
  rw [riscvSetMode_frame entered]
  exact inSync_congr synced mtvec mstatus mcause scause

theorem enterM_inSync (H : Hart xlen) {clic : ClicInterrupt} (before : InSync s)
    (entered : s.enterM H clic = some t) : InSync t := by
  have saved : SupervisorFrame s (s.saveM H clic) := ⟨rfl, rfl, fun _ _ => rfl⟩
  have pushed := saved.trans (pushM_supervisorFrame (s := s) (u := s.saveM H clic) H rfl)
  unfold State.enterM at entered
  exact setMode_inSync (writeMcause_inSync H pushed before) entered

theorem doNmi_inSync (H : Hart xlen) (before : InSync s) (done : doNmi H s = some t) :
    InSync t := by
  unfold doNmi at done
  split at done
  · cases done
    exact before
  · simp only [Option.map_eq_some_iff] at done
    obtain ⟨u, mode, rfl⟩ := done
    have pushed : SupervisorFrame s (writeMstatus H s (s.pushNmi H)) := by
      refine writeMstatus_supervisorFrame H fun f member => ?_
      obtain ⟨mie, mpie, mpp⟩ := supervisorAliased_disjoint member
      unfold State.pushNmi
      rw [pushed_supervisor H member mie, pushed_supervisor H member mpp,
        pushed_supervisor H member mpie]
    have entered : SupervisorFrame s u := by
      rw [riscvSetMode_frame mode]
      exact ⟨pushed.mtvec, pushed.scause, pushed.fields⟩
    have synced := writeMcause_inSync (v := H.nmiMcause (lowestBitOf s.nmiPending)) H entered before
    exact inSync_congr synced rfl rfl rfl rfl

theorem previousEnable_lt (H : Hart xlen) {priv : BitVec xlen} {xie : Field}
    (low : xie.shift + xie.width ≤ 32) (one : xie.width = 1) (mode : priv = prvU ∨ priv = prvS)
    (mstatus : BitVec xlen) : (previousEnable H mstatus priv xie).toNat < 2 := by
  have small : priv.toNat ≤ 1 := by
    rcases H.xlen_eq with rfl | rfl <;> rcases mode with rfl | rfl <;> decide
  have wide := H.le_xlen
  unfold previousEnable
  split
  · have bound := @toNat_getField_lt _ _ mstatus (fits H low)
    rwa [one] at bound
  · exact @toNat_getField_lt _ { shift := priv.toNat, width := 1 } mstatus
      (by simp only; omega)

theorem enterS_inSync (H : Hart xlen) {clic : ClicInterrupt} (rvs : H.rvs = true)
    (mode : s.priv = prvU ∨ s.priv = prvS) (entered : s.enterS H clic = some t) :
    InSync t := by
  have small : s.priv.toNat < 2 := by
    rcases H.xlen_eq with rfl | rfl <;> rcases mode with priv | priv <;> rw [priv] <;> decide
  have enable := @previousEnable_lt _ H _ mstatusSie (by decide) rfl mode s.mstatus
  unfold State.enterS at entered
  refine setMode_inSync (fun clicMode => ?_) entered
  have was : (s.saveS H clic).cpuInClicMode = true := clicMode
  have inClic : s.cpuInClicMode = true := was
  have written := rewrittenS rvs (s.saveS H clic) (s.pushS H) fun i has => by
    have outside := notInStack_of_mpp has
    have less : i < xlen := by
      have wide := H.le_xlen
      unfold Field.Has mstatusMpp at has
      simp only at has
      omega
    exact pushS_bit less outside
  have machine : MachineSync (writeSstatus H (s.saveS H clic) (s.pushS H)) :=
    writeMstatus_machineSync H was
  have spp : getField (s.pushS H) mstatusSpp = s.priv := by
    unfold State.pushS
    exact getField_setField_of_lt (fits H (by decide)) small
  have spie : getField (s.pushS H) mstatusSpie = previousEnable H s.mstatus s.priv mstatusSie := by
    unfold State.pushS
    rw [getField_other H (by decide) (by decide), getField_other H (by decide) (by decide)]
    exact getField_setField_of_lt (fits H (by decide)) enable
  have word : s.causeWord (getField s.mintstatus mintstatusSil)
      (previousEnable H s.mstatus s.priv mstatusSie) = _ := if_pos inClic
  have pp : getField (s.causeWord (getField s.mintstatus mintstatusSil)
      (previousEnable H s.mstatus s.priv mstatusSie)) causePp = s.priv := by
    rw [word, getField_other H (by decide) (by decide)]
    refine getField_setField_of_lt (fits H (by decide)) ?_
    exact Nat.lt_trans small (by decide)
  have pie : getField (s.causeWord (getField s.mintstatus mintstatusSil)
      (previousEnable H s.mstatus s.priv mstatusSie)) causePie =
        previousEnable H s.mstatus s.priv mstatusSie := by
    rw [word, getField_other H (by decide) (by decide), getField_other H (by decide) (by decide)]
    exact getField_setField_of_lt (fits H (by decide)) enable
  refine ⟨⟨machine.mpp, machine.mpie⟩, ⟨pp.trans ?_, pie.trans ?_⟩⟩
  · exact (spp.symm.trans (written.supervisor mstatusSpp (by simp)).symm)
  · exact (spie.symm.trans (written.supervisor mstatusSpie (by simp)).symm)

theorem enterS_mtvec {clic : ClicInterrupt} (entered : s.enterS H clic = some t) :
    t.mtvec = s.mtvec := by
  rw [riscvSetMode_frame entered]
  exact (raiseLevel_frame _ _).2.2.2.2.2

theorem doInterrupt_inSync (H : Hart xlen) (before : InSync s)
    (permitted : s.cpuInClicMode = true → s.nmiPending = 0 → s.exceptionIndex ≠ excpNone →
      s.entryMode = .supervisor → H.rvs = true ∧ (s.priv = prvU ∨ s.priv = prvS))
    (done : doInterrupt H s = some t) : InSync t := by
  unfold doInterrupt at done
  split at done
  next nmi => exact doNmi_inSync H before done
  next noNmi =>
    split at done
    · cases done
      exact before
    next pending =>
      simp only [Option.map_eq_some_iff] at done
      obtain ⟨u, taken, rfl⟩ := done
      suffices taken_inSync : InSync u from inSync_congr taken_inSync rfl rfl rfl rfl
      unfold State.takeTrap at taken
      split at taken
      · exact enterM_inSync H before taken
      next supervisor =>
        intro clic
        have mode : s.entryMode = .supervisor := if_neg supervisor
        have mtvec := (enterS_mtvec taken).symm
        obtain ⟨rvs, lower⟩ := permitted ((cpuInClicMode_congr mtvec).trans clic)
          (not_not.mp noNmi) pending mode
        exact enterS_inSync H rvs lower taken clic

/-! ### Returns -/

theorem restoreMil_scause (s : State xlen) : (restoreMil s).scause = s.scause := by
  unfold restoreMil
  split <;> rfl

theorem restoreSil_mcause (s : State xlen) : (restoreSil s).mcause = s.mcause := by
  unfold restoreSil
  split <;> rfl

theorem enableField_supervisor (H : Hart xlen) {f xie xpp : Field} (member : f ∈ supervisorAliased)
    (xieApart : f.Disjoint xie) (narrow : xpp.width ≤ 2) (low : xpp.shift + xpp.width ≤ 32)
    (reg : BitVec xlen) : f.Disjoint (enableField H xie (getField reg xpp)) := by
  obtain ⟨_, _, above, _⟩ := supervisorAliased_place member
  unfold enableField
  split
  · exact xieApart
  · have small := @toNat_getField_lt _ _ reg (fits H low)
    have four : 2 ^ xpp.width ≤ 2 ^ 2 := Nat.pow_le_pow_right (by decide) narrow
    unfold Field.Disjoint
    simp only
    omega

theorem popM_supervisor (H : Hart xlen) {f : Field} (member : f ∈ supervisorAliased)
    (m : BitVec xlen) : getField (popM H m) f = getField m f := by
  obtain ⟨mie, mpie, mpp⟩ := supervisorAliased_disjoint member
  have enable := @enableField_supervisor _ H _ _ mstatusMpp member mie (by decide) (by decide) m
  have mprv : f.Disjoint mstatusMprv := by
    obtain ⟨_, below, _⟩ := supervisorAliased_place member
    unfold Field.Disjoint mstatusMprv
    simp only
    omega
  unfold popM
  simp only
  split
  · rw [pushed_supervisor H member mprv, pushed_supervisor H member mpp,
      pushed_supervisor H member mpie, pushed_supervisor H member enable]
  · rw [pushed_supervisor H member mpp, pushed_supervisor H member mpie,
      pushed_supervisor H member enable]

theorem helperMret_inSync (H : Hart xlen) (before : InSync s) (done : helperMret H s = some t) :
    InSync t := by
  unfold helperMret at done
  split at done
  · cases done
  · split at done
    · cases done
    · simp only [Option.map_eq_some_iff] at done
      obtain ⟨u, mode, rfl⟩ := done
      have entered : SupervisorFrame s u := by
        rw [riscvSetMode_frame mode]
        exact ⟨rfl, rfl, fun _ _ => rfl⟩
      have popped : SupervisorFrame u (writeMstatus H u (popM H s.mstatus)) := by
        refine writeMstatus_supervisorFrame H fun f member => ?_
        rw [popM_supervisor H member, entered.fields f member]
      have synced := writeMcause_inSync (v := setField (setField
        (writeMstatus H u (popM H s.mstatus)).mcause causePp (lowestPriv H)) causePie 1) H
        (entered.trans popped) before
      generalize writeMcause H _ _ = r at synced ⊢
      obtain ⟨mstatus, mcause, _, mtvec⟩ := @restoreMil_frame _ r
      exact inSync_congr synced mtvec mstatus mcause (restoreMil_scause r)

theorem popS_supervisor (H : Hart xlen) (m : BitVec xlen) :
    getField (popS H m) mstatusSpp = prvU ∧ getField (popS H m) mstatusSpie = 1 := by
  unfold popS
  simp only
  generalize setField m (enableField H mstatusSie (getField m mstatusSpp)) _ = base
  have spp : getField (setField (setField base mstatusSpie 1) mstatusSpp prvU) mstatusSpp = prvU :=
    getField_clear H (by decide) _
  have spie : getField (setField (setField base mstatusSpie 1) mstatusSpp prvU) mstatusSpie = 1 := by
    rw [getField_other H (by decide) (by decide), getField_set H (by decide) (by decide)]
  split
  · constructor
    · rw [getField_other H (by decide) (by decide), spp]
    · rw [getField_other H (by decide) (by decide), spie]
  · exact ⟨spp, spie⟩

theorem writeScause_inSync (H : Hart xlen) (rvs : H.rvs = true)
    (spp : getField w causePp = getField v mstatusSpp)
    (spie : getField w causePie = getField v mstatusSpie) :
    InSync (writeScause (writeSstatus H s v) w) := by
  intro clic
  have was : s.cpuInClicMode = true := clic
  have machine : MachineSync (writeSstatus H s v) := writeMstatus_machineSync H was
  have stored {f : Field} (member : f ∈ supervisorAliased) :
      getField (writeSstatus H s v).mstatus f = getField v f := by
    have written := written_supervisor H member s.mstatus
      ((s.mstatus &&& ~~~sstatusMask) ||| (v &&& sstatusMask))
    rw [rvs, sstatus_supervisor H member s.mstatus v] at written
    exact written
  refine ⟨⟨machine.mpp, machine.mpie⟩, ⟨spp.trans ?_, spie.trans ?_⟩⟩
  · exact (stored (f := mstatusSpp) (by decide)).symm
  · exact (stored (f := mstatusSpie) (by decide)).symm

theorem helperSret_inSync (H : Hart xlen) (done : helperSret H s = some t) : InSync t := by
  unfold helperSret at done
  split at done
  · cases done
  next supervisor =>
    split at done
    · cases done
    split at done
    · cases done
    split at done
    · cases done
    simp only [Option.map_eq_some_iff] at done
    obtain ⟨u, mode, rfl⟩ := done
    have rvs : H.rvs = true := by simpa using supervisor
    obtain ⟨spp, spie⟩ := popS_supervisor H s.mstatus
    have synced : InSync (writeScause (writeSstatus H u (popS H s.mstatus)) (setField (setField
        (writeSstatus H u (popS H s.mstatus)).scause causePp prvU) causePie 1)) := by
      refine writeScause_inSync H rvs ?_ ?_
      · rw [spp, getField_other H (by decide) (by decide)]
        exact getField_clear H (by decide) _
      · rw [spie, getField_set H (by decide) (by decide)]
    generalize writeScause (writeSstatus H u (popS H s.mstatus)) _ = r at synced ⊢
    obtain ⟨mstatus, scause, _, mtvec⟩ := @restoreSil_frame _ r
    exact inSync_congr synced mtvec mstatus (restoreSil_mcause r) scause

theorem xret_inSync (H : Hart xlen) {m : TrapMode} (before : InSync s)
    (done : xret H m s = some t) : InSync t := by
  cases m with
  | machine => exact helperMret_inSync H before done
  | supervisor => exact helperSret_inSync H done

/-! ### Reads of `mnxti` and `snxti` -/

theorem mnxtiReadHandler_inSync (H : Hart xlen) (before : InSync s) (pending : BitVec xlen) :
    InSync (mnxtiReadHandler H s pending) := by
  unfold mnxtiReadHandler
  simp only
  have raised : SupervisorFrame s (writeMintstatus s
      (setField s.mintstatus mintstatusMil (s.clicInterrupt.level.setWidth xlen))) :=
    ⟨rfl, rfl, fun _ _ => rfl⟩
  exact writeMcause_inSync H raised before

theorem pendingCause_getField (H : Hart xlen) {f : Field} (low : f.shift + f.width < 32)
    (apart : f.Disjoint causeExccode) (scause pending : BitVec xlen) :
    getField (setField scause causeExccode pending ||| causeInterrupt) f = getField scause f := by
  have wide := H.le_xlen
  have set := getField_other H (by omega) apart scause pending
  refine Eq.trans (getField_congr (by omega) fun i has => ?_) set
  unfold Field.Has at has
  have top : (causeInterrupt : BitVec xlen).getLsbD i = false := by
    unfold causeInterrupt
    rw [getLsbD_shiftLeft]
    simp [show i < xlen - 1 by omega]
  rw [getLsbD_or, top, Bool.or_false]

theorem snxtiReadHandler_inSync (H : Hart xlen) (before : InSync s) (pending : BitVec xlen) :
    InSync (snxtiReadHandler s pending) := by
  intro clic
  obtain ⟨machine, supervisor⟩ := before clic
  refine ⟨⟨machine.mpp, machine.mpie⟩, ⟨?_, ?_⟩⟩
  · exact (pendingCause_getField H (by decide) (by decide) _ _).trans supervisor.spp
  · exact (pendingCause_getField H (by decide) (by decide) _ _).trans supervisor.spie

/-! ### Writes of registers -/

theorem writeMirrorCsr_inSync_iff (H : Hart xlen) (interruptMode : InterruptMode)
    (before : InSync s) (csr : MirrorCsr) :
    InSync (writeMirrorCsr H interruptMode s v csr) ↔
      KeepsMirrors H interruptMode s (.csrWrite csr v) := by
  cases csr with
  | mstatus =>
    refine forall_congr' fun clic => ?_
    have written := writeMstatus_supervisorSync_iff (v := v) H (before clic).2
    exact ⟨fun after => written.mp after.2,
      fun holds => ⟨writeMstatus_machineSync H clic, written.mpr holds⟩⟩
  | sstatus =>
    refine forall_congr' fun clic => ?_
    have written := writeSstatus_supervisorSync_iff (v := v) H (before clic).2
    exact ⟨fun after => written.mp after.2,
      fun holds => ⟨writeMstatus_machineSync H clic, written.mpr holds⟩⟩
  | mcause =>
    exact ⟨fun _ => trivial, fun _ => writeMcause_inSync H (SupervisorFrame.refl s) before⟩
  | scause =>
    refine forall_congr' fun clic => ?_
    have machine := (before clic).1
    exact ⟨fun after => ⟨after.2.spp, after.2.spie⟩,
      fun holds => ⟨⟨machine.mpp, machine.mpie⟩, ⟨holds.1, holds.2⟩⟩⟩
  | mtvec =>
    refine imp_congr decide_eq_true_iff ?_
    exact ⟨fun after => ⟨⟨after.1.mpp, after.1.mpie⟩, ⟨after.2.spp, after.2.spie⟩⟩,
      fun sync => ⟨⟨sync.1.mpp, sync.1.mpie⟩, ⟨sync.2.spp, sync.2.spie⟩⟩⟩

/-! ### Runs -/

theorem Apart.inSync (apart : Apart s t) (before : InSync s) : InSync t := by
  intro clic
  rw [cpuInClicMode_congr apart.mtvec] at clic
  obtain ⟨machine, supervisor⟩ := before clic
  refine ⟨⟨?_, ?_⟩, ⟨?_, ?_⟩⟩
  · rw [apart.mcause, apart.fields mstatusMpp (by decide), machine.mpp]
  · rw [apart.mcause, apart.fields mstatusMpie (by decide), machine.mpie]
  · rw [apart.scause, apart.fields mstatusSpp (by decide), supervisor.spp]
  · rw [apart.scause, apart.fields mstatusSpie (by decide), supervisor.spie]

theorem MirrorStep.inSync {interruptMode : InterruptMode} {a : MirrorAction xlen}
    (next : MirrorStep H interruptMode s a t) (permitted : KeepsMirrors H interruptMode s a)
    (before : InSync s) : InSync t := by
  cases next with
  | csrWrite csr v => exact (writeMirrorCsr_inSync_iff H interruptMode before csr).mpr permitted
  | mnxti pending => exact mnxtiReadHandler_inSync H before pending
  | snxti pending => exact snxtiReadHandler_inSync H before pending
  | doInterrupt done => exact doInterrupt_inSync H before permitted done
  | doNmi done => exact doNmi_inSync H before done
  | xret done => exact xret_inSync H before done
  | elsewhere apart => exact apart.inSync before

theorem MirrorRuns.inSync {interruptMode : InterruptMode}
    (run : MirrorRuns H interruptMode (KeepsMirrors H interruptMode) s t) (start : InSync s) :
    InSync t := by
  induction run with
  | start => exact start
  | step before allowed next ih => exact next.inSync allowed ih

/-- The aliases agree in every run from a state outside CLIC mode whose steps keep them, and
a write of a register that is not one of those breaks them. -/
theorem mirrors_of_run (H : Hart xlen) (interruptMode : InterruptMode)
    (reset : s.cpuInClicMode = false)
    (run : MirrorRuns H interruptMode (KeepsMirrors H interruptMode) s t) :
    (t.cpuInClicMode = true → MachineSync t ∧ SupervisorSync t) ∧
      ∀ (csr : MirrorCsr) (v : BitVec xlen), ¬KeepsMirrors H interruptMode t (.csrWrite csr v) →
          ¬InSync (writeMirrorCsr H interruptMode t v csr) := by
  have start : InSync s := fun clic => by
    rw [reset] at clic
    cases clic
  have synced := run.inSync start
  refine ⟨synced, fun csr v denied after => denied ?_⟩
  exact (writeMirrorCsr_inSync_iff H interruptMode synced csr).mp after

def clicHart : Hart 64 := { sampleHart with
  xlen_eq := xlen_64
  privilegeArchitecture := .unratified }

def clicReset : State 64 :=
  { sampleState excpNone 0 0 with mstatus := setDefaultMstatus true, mtvec := 0, priv := prvM }

/-- `mcause.mpp` is written before the mode is entered. -/
theorem mirrors_entered : MachineSync (writeMirrorCsr clicHart .auto
      (writeMirrorCsr clicHart .auto clicReset 0x30000000 .mcause) 0x80001003 .mtvec) := by
  have first : MirrorRuns clicHart .auto (KeepsMirrors clicHart .auto) clicReset
      (writeMirrorCsr clicHart .auto clicReset 0x30000000 .mcause) :=
    .step (a := .csrWrite .mcause 0x30000000) .start trivial (.csrWrite .mcause 0x30000000)
  have enters : KeepsMirrors clicHart .auto
      (writeMirrorCsr clicHart .auto clicReset 0x30000000 .mcause)
      (.csrWrite .mtvec 0x80001003) :=
    fun _ => ⟨⟨by decide, by decide⟩, ⟨by decide, by decide⟩⟩
  have entered := mirrors_of_run clicHart .auto (by decide)
    (first.step enters (.csrWrite .mtvec 0x80001003))
  exact (entered.1 (by decide)).1

/-- A write of `mtvec` that enters the mode leaves `mcause.mpp` clear. -/
theorem mtvec_forgets_mpp :
    ¬∀ (H : Hart 64) (interruptMode : InterruptMode) (s t : State 64), s.cpuInClicMode = false →
      MirrorRuns H interruptMode (fun _ _ => True) s t → InSync t := by
  intro always
  have synced := always clicHart .auto clicReset _ (by decide)
    (.step .start trivial (.csrWrite .mtvec 0x80001003)) (by decide)
  exact absurd synced.1.mpp (by decide)

end Tlib.Riscv.Trap
