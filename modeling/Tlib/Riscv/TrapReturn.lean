import Tlib.Riscv.TrapEntry

/-!
Contract: trap return.

Owns: `helper_mret` and `helper_sret`, the fields of `mstatus` and `xcause` that a return pops, and
what it makes of the fields that an entry has pushed. Does not own: the handler in between.
-/

namespace Tlib.Riscv.Trap

open Tlib.Library.BitFields

variable {xlen : Nat} (H : Hart xlen)

/-- The address is one that instructions can be fetched from. -/
def retpcLegal (retpc : BitVec xlen) : Bool := H.rvc || retpc &&& 3 = 0

/-- The field of `mstatus` that the previous interrupt enable bit returns to. -/
def enableField (xie : Field) (prevPriv : BitVec xlen) : Field :=
  if H.privilegeArchitecture.since110 then xie else { shift := prevPriv.toNat, width := 1 }

/-- The vector table entry is read if fetching it has caused the trap. -/
def returnAddress (s : State xlen) (xcause retpc : BitVec xlen) : BitVec xlen :=
  if s.cpuInClicMode && getField xcause causeInhv ≠ 0 then H.ldpPhys retpc &&& ~~~1 else retpc

/-- The least privileged mode of the hart. -/
def lowestPriv : BitVec xlen := if H.rvu then prvU else prvM

/-- `mstatus` with the state of M-mode popped. -/
def popM (mstatus : BitVec xlen) : BitVec xlen :=
  let prevPriv := getField mstatus mstatusMpp
  let m := setField mstatus (enableField H mstatusMie prevPriv) (getField mstatus mstatusMpie)
  let m := setField m mstatusMpie 1
  let m := setField m mstatusMpp (lowestPriv H)
  if H.privilegeArchitecture.since112 && prevPriv ≠ prvM then setField m mstatusMprv 0 else m

def popS (mstatus : BitVec xlen) : BitVec xlen :=
  let prevPriv := getField mstatus mstatusSpp
  let m := setField mstatus (enableField H mstatusSie prevPriv) (getField mstatus mstatusSpie)
  let m := setField m mstatusSpie 1
  let m := setField m mstatusSpp prvU
  if H.privilegeArchitecture.since112 then setField m mstatusMprv 0 else m

/-- The level that `mcause` has kept comes back. -/
def restoreMil (s : State xlen) : State xlen :=
  if s.cpuInClicMode then
    writeMintstatus s (setField s.mintstatus mintstatusMil (getField s.mcause causePil))
  else s

def restoreSil (s : State xlen) : State xlen :=
  if s.cpuInClicMode then
    writeSintstatus s (setField s.mintstatus mintstatusSil (getField s.scause causePil))
  else s

def leave (s : State xlen) (pc : BitVec xlen) : State xlen :=
  { s with pc := pc, reservedAddress := 0 }

/-- `none` stands for an exception. -/
def helperMret (s : State xlen) : Option (State xlen) :=
  if s.priv < prvM then none
  else if !retpcLegal H s.mepc then none
  else
    (riscvSetMode s (getField s.mstatus mstatusMpp)).map fun t =>
      let t := writeMstatus H t (popM H s.mstatus)
      let mcause := setField (setField t.mcause causePp (lowestPriv H)) causePie 1
      let t := restoreMil (writeMcause H t mcause)
      leave t (returnAddress H t t.mcause s.mepc)

def helperSret (s : State xlen) : Option (State xlen) :=
  if !H.rvs then none
  else if s.priv < prvS then none
  else if H.privilegeArchitecture.since110 && s.priv = prvS && getField s.mstatus mstatusTsr ≠ 0 then
    none
  else if !retpcLegal H s.sepc then none
  else
    (riscvSetMode s (getField s.mstatus mstatusSpp)).map fun t =>
      let t := writeSstatus H t (popS H s.mstatus)
      let scause := setField (setField t.scause causePp prvU) causePie 1
      let t := restoreSil (writeScause t scause)
      leave t (returnAddress H t t.scause s.sepc)

def xret : TrapMode → State xlen → Option (State xlen)
  | .machine => helperMret H
  | .supervisor => helperSret H

def State.trapMode (s : State xlen) : TrapMode := if s.nmiPending ≠ 0 then .machine else s.entryMode

def TrapMode.xie : TrapMode → Field
  | .machine => mstatusMie
  | .supervisor => mstatusSie

def TrapMode.xpie : TrapMode → Field
  | .machine => mstatusMpie
  | .supervisor => mstatusSpie

def TrapMode.xpp : TrapMode → Field
  | .machine => mstatusMpp
  | .supervisor => mstatusSpp

/-- The least privileged mode that `xPP` can hold and the hart supports. -/
def leastPriv : TrapMode → BitVec xlen
  | .machine => if H.rvu then prvU else prvM
  | .supervisor => if H.rvu then prvU else prvS

/-- The handler has left `mstatus`, `xepc` and `xcause` alone, and returns in its mode. -/
structure Handled (m : TrapMode) (s r : State xlen) : Prop where
  priv : r.priv = m.priv
  mstatus : r.mstatus = s.mstatus
  xepc : r.xepc m = s.xepc m
  xcause : r.xcause m = s.xcause m
  clic : r.cpuInClicMode = s.cpuInClicMode

/-- `MPRV` is cleared by the return. -/
def ClearsMprv (s : State xlen) : Prop := H.privilegeArchitecture.since112 = true ∧ s.priv ≠ prvM

/-- The return `r'` undoes the trap that has led from `s` to `t`. -/
structure Undone (m : TrapMode) (s t r' : State xlen) : Prop where
  pc : r'.pc = s.pc
  priv : r'.priv = s.priv
  xie : getField r'.mstatus m.xie = getField s.mstatus m.xie
  level : s.cpuInClicMode = true → getField r'.mintstatus m.level = getField s.mintstatus m.level
  xpie : getField r'.mstatus m.xpie = 1
  xpp : getField r'.mstatus m.xpp = leastPriv H m
  mprv : ClearsMprv H s → getField r'.mstatus mstatusMprv = 0
  mprvKept : H.rvu = true → ¬ClearsMprv H s →
    getField r'.mstatus mstatusMprv = getField s.mstatus mstatusMprv
  others : ∀ i < xlen, i ≠ xlen - 1 → NotInStack m i → ¬mstatusMprv.Has i →
    r'.mstatus.getLsbD i = s.mstatus.getLsbD i
  xcause : s.cpuInClicMode = false → r'.xcause m = t.xcause m

variable {H} {s t u r r' : State xlen} {v w : BitVec xlen} {m : TrapMode}

theorem fits {f : Field} (H : Hart xlen) (low : f.shift + f.width ≤ 32) :
    f.shift + f.width ≤ xlen := Nat.le_trans low H.le_xlen

theorem getField_other {f g : Field} (H : Hart xlen) (low : f.shift + f.width ≤ 32)
    (apart : f.Disjoint g) (reg val : BitVec xlen) :
    getField (setField reg g val) f = getField reg f :=
  getField_setField_of_disjoint (fits H low) apart

theorem getField_copied {f g : Field} (H : Hart xlen) (low : f.shift + f.width ≤ 32)
    (lowG : g.shift + g.width ≤ 32) (same : g.width = f.width) (reg other : BitVec xlen) :
    getField (setField reg f (getField other g)) f = getField other g := by
  refine getField_setField_of_lt (fits H low) ?_
  rw [← same]
  exact toNat_getField_lt (fits H lowG)

theorem mirrored_getField {f : Field} (H : Hart xlen) (low : f.shift + f.width ≤ 32)
    (apartPie : f.Disjoint causePie) (apartPp : f.Disjoint causePp) (mcause mstatus : BitVec xlen) :
    getField (mirrored mcause mstatus) f = getField mcause f := by
  unfold mirrored
  rw [getField_other H low apartPie, getField_other H low apartPp]

/-- The writes of `mstatus` and then `mcause` that the entry and the return make. -/
structure Rewritten (H : Hart xlen) (u : State xlen) (v w : BitVec xlen) (t : State xlen) :
    Prop where
  mie : getField t.mstatus mstatusMie = getField v mstatusMie
  mpie : getField t.mstatus mstatusMpie =
    if u.cpuInClicMode then getField w causePie else getField v mstatusMpie
  mpp : getField t.mstatus mstatusMpp =
    if u.cpuInClicMode ∧ mppAllowed H (getField w causePp) = true then getField w causePp
    else getField v mstatusMpp
  mprv : getField t.mstatus mstatusMprv = if H.rvu then getField v mstatusMprv else 0
  others : ∀ i < xlen, i ≠ xlen - 1 → NotInStack .machine i → ¬mstatusMprv.Has i →
    v.getLsbD i = u.mstatus.getLsbD i → t.mstatus.getLsbD i = u.mstatus.getLsbD i
  mcause : u.cpuInClicMode = false → t.mcause = w
  pil : getField t.mcause causePil = getField w causePil
  inhv : getField t.mcause causeInhv = getField w causeInhv
  frame : t = { u with mstatus := t.mstatus, mcause := t.mcause }

theorem rewritten (H : Hart xlen) (u : State xlen) (v w : BitVec xlen)
    (allowed : mppAllowed H (getField v mstatusMpp) = true) :
    Rewritten H u v w (writeMcause H (writeMstatus H u v) w) := by
  have first := written_withDirty H u.mstatus v
  cases direct : u.cpuInClicMode with
  | false =>
    have stored : ({ u with mstatus := withDirty (mstatusStored H u.mstatus v) } :
        State xlen).cpuInClicMode = false := direct
    rw [writeMstatus_direct direct, writeMcause_direct stored]
    refine ⟨first.mie, ?_, ?_, first.mprv, ?_, fun _ => rfl, rfl, rfl, rfl⟩
    · rw [direct]
      exact first.mpie
    · rw [direct]
      rw [first.mpp, allowed]
      simp
    · intro i less notTop outside notMprv same
      exact first.others i less notTop (notInStack_machine outside).2.2 notMprv same
  | true =>
    have same : ({ writeMstatus H u v with mcause := w } : State xlen).cpuInClicMode = true :=
      direct
    unfold writeMcause
    simp only [same, if_true]
    -- the second write of `mstatus` carries the aliased bits of `mcause`
    generalize word : setField
      (setField (writeMstatus H u v).mstatus mstatusMpp (getField w causePp)) mstatusMpie
      (getField w causePie) = v'
    have second := written_withDirty H (writeMstatus H u v).mstatus v'
    have mpp' : getField v' mstatusMpp = getField w causePp := by
      rw [← word, getField_other H (by decide) (by decide),
        getField_copied (g := causePp) H (by decide) (by decide) (by decide)]
    have mpie' : getField v' mstatusMpie = getField w causePie := by
      rw [← word, getField_copied (g := causePie) H (by decide) (by decide) (by decide)]
    have mcause : (writeMstatus H { writeMstatus H u v with mcause := w } v').mcause =
        mirrored w (withDirty (mstatusStored H (writeMstatus H u v).mstatus v')) := if_pos same
    refine ⟨?_, ?_, ?_, ?_, ?_, ?_, ?_, ?_, rfl⟩
    · refine second.mie.trans ?_
      rw [← word, getField_other H (by decide) (by decide),
        getField_other H (by decide) (by decide)]
      exact first.mie
    · rw [direct]
      exact second.mpie.trans mpie'
    · rw [direct]
      refine second.mpp.trans ?_
      rw [mpp']
      have kept : getField (writeMstatus H u v).mstatus mstatusMpp = getField v mstatusMpp := by
        refine first.mpp.trans ?_
        rw [allowed]
        rfl
      rw [kept]
      simp
    · refine second.mprv.trans ?_
      have kept : getField v' mstatusMprv = getField (writeMstatus H u v).mstatus mstatusMprv := by
        rw [← word, getField_other H (by decide) (by decide),
          getField_other H (by decide) (by decide)]
      rw [kept]
      have before : getField (writeMstatus H u v).mstatus mstatusMprv =
          if H.rvu then getField v mstatusMprv else 0 := first.mprv
      rw [before]
      cases H.rvu <;> rfl
    · intro i less notTop outside notMprv agrees
      obtain ⟨mie, mpie, mpp⟩ := notInStack_machine outside
      have kept : v'.getLsbD i = (writeMstatus H u v).mstatus.getLsbD i := by
        rw [← word, setField_of_not_has less mpie, setField_of_not_has less mpp]
      refine (second.others i less notTop mpp notMprv kept).trans ?_
      exact first.others i less notTop mpp notMprv agrees
    · intro other
      rw [direct] at other
      cases other
    · rw [mcause, mirrored_getField H (by decide) (by decide) (by decide),
        mirrored_getField H (by decide) (by decide) (by decide)]
    · rw [mcause, mirrored_getField H (by decide) (by decide) (by decide),
        mirrored_getField H (by decide) (by decide) (by decide)]

theorem toNat_lt_of_allowed (H : Hart xlen) {p : BitVec xlen} (allowed : mppAllowed H p = true) :
    p.toNat < 4 := by
  unfold mppAllowed at allowed
  split at allowed
  next user =>
    rw [user]
    rcases H.xlen_eq with rfl | rfl <;> decide
  next =>
    split at allowed
    next supervisor =>
      rw [supervisor]
      rcases H.xlen_eq with rfl | rfl <;> decide
    next =>
      rw [of_decide_eq_true allowed]
      rcases H.xlen_eq with rfl | rfl <;> decide

theorem pushM_mpp (H : Hart xlen) (core : mppAllowed H s.priv = true) :
    getField (s.pushM H) mstatusMpp = s.priv :=
  getField_setField_of_lt (fits H (by decide)) (toNat_lt_of_allowed H core)

theorem previousEnable_eq (since : H.privilegeArchitecture.since110 = true)
    (mstatus priv : BitVec xlen) (xie : Field) :
    previousEnable H mstatus priv xie = getField mstatus xie :=
  if_pos since

theorem pushM_mpie (since : H.privilegeArchitecture.since110 = true) :
    getField (s.pushM H) mstatusMpie = getField s.mstatus mstatusMie := by
  unfold State.pushM
  rw [previousEnable_eq since, getField_other H (by decide) (by decide),
    getField_other H (by decide) (by decide),
    getField_copied (g := mstatusMie) H (by decide) (by decide) (by decide)]

theorem pushM_mprv : getField (s.pushM H) mstatusMprv = getField s.mstatus mstatusMprv := by
  unfold State.pushM
  rw [getField_other H (by decide) (by decide), getField_other H (by decide) (by decide),
    getField_other H (by decide) (by decide)]

/-- The state in which the handler of M-mode starts, if `w` has been written to `mcause`. -/
structure PushedM (H : Hart xlen) (s : State xlen) (w : BitVec xlen) (t : State xlen) : Prop where
  priv : t.priv = prvM
  mepc : t.mepc = s.pc
  clic : t.cpuInClicMode = s.cpuInClicMode
  mpie : getField t.mstatus mstatusMpie =
    if s.cpuInClicMode then getField w causePie else getField s.mstatus mstatusMie
  mpp : getField t.mstatus mstatusMpp =
    if s.cpuInClicMode ∧ mppAllowed H (getField w causePp) = true then getField w causePp
    else s.priv
  mprv : getField t.mstatus mstatusMprv = if H.rvu then getField s.mstatus mstatusMprv else 0
  others : ∀ i < xlen, i ≠ xlen - 1 → NotInStack .machine i → ¬mstatusMprv.Has i →
    t.mstatus.getLsbD i = s.mstatus.getLsbD i
  mcause : s.cpuInClicMode = false → t.mcause = w
  pil : getField t.mcause causePil = getField w causePil
  inhv : getField t.mcause causeInhv = getField w causeInhv

/-- The word that the trap writes to `mcause`. -/
def State.mcauseWord (s : State xlen) : BitVec xlen :=
  s.causeWord (getField s.mintstatus mintstatusMil) (getField s.mstatus mstatusMie)

theorem PushedM.of_writes
    (writes : Rewritten H u v w t) (mstatus : u.mstatus = s.mstatus)
    (clicMode : u.cpuInClicMode = s.cpuInClicMode)
    (mpie : getField v mstatusMpie = getField s.mstatus mstatusMie)
    (mpp : getField v mstatusMpp = s.priv)
    (mprv : getField v mstatusMprv = getField s.mstatus mstatusMprv)
    (agree : ∀ i < xlen, NotInStack .machine i → v.getLsbD i = s.mstatus.getLsbD i)
    (priv : r.priv = prvM) (mepc : r.mepc = s.pc) (mtvec : r.mtvec = s.mtvec)
    (mstatus' : r.mstatus = t.mstatus) (mcause' : r.mcause = t.mcause) :
    PushedM H s w r where
  priv := priv
  mepc := mepc
  clic := by
    unfold State.cpuInClicMode
    rw [mtvec]
  mpie := by rw [mstatus', writes.mpie, clicMode, mpie]
  mpp := by rw [mstatus', writes.mpp, clicMode, mpp]
  mprv := by rw [mstatus', writes.mprv, mprv]
  others := by
    intro i less notTop outside notMprv
    rw [mstatus', writes.others i less notTop outside notMprv (by rw [mstatus, agree i less outside]),
      mstatus]
  mcause := fun direct => by rw [mcause', writes.mcause (clicMode.trans direct)]
  pil := by rw [mcause', writes.pil]
  inhv := by rw [mcause', writes.inhv]

theorem raiseLevel_frame (isInterrupt : Bool) (level : Field) :
    (s.raiseLevel isInterrupt level).mstatus = s.mstatus ∧
      (s.raiseLevel isInterrupt level).mcause = s.mcause ∧
      (s.raiseLevel isInterrupt level).scause = s.scause ∧
      (s.raiseLevel isInterrupt level).mepc = s.mepc ∧
      (s.raiseLevel isInterrupt level).sepc = s.sepc ∧
      (s.raiseLevel isInterrupt level).mtvec = s.mtvec := by
  unfold State.raiseLevel
  split <;> exact ⟨rfl, rfl, rfl, rfl, rfl, rfl⟩

theorem enterM_pushed (since : H.privilegeArchitecture.since110 = true)
    (core : mppAllowed H s.priv = true) (clic : ClicInterrupt) :
    ∃ t, s.enterM H clic = some t ∧ ∀ index,
      PushedM H s s.mcauseWord { t with exceptionIndex := index } := by
  refine ⟨_, riscvSetMode_prvM H, fun index => ?_⟩
  have mpp := pushM_mpp H core
  have writes := rewritten H (s.saveM H clic) (s.pushM H) s.mcauseWord (by rw [mpp, core])
  rw [previousEnable_eq since]
  change PushedM H s s.mcauseWord { (writeMcause H (writeMstatus H (s.saveM H clic) (s.pushM H))
    s.mcauseWord).raiseLevel s.isInterrupt mintstatusMil with
      priv := prvM, exceptionIndex := index }
  generalize writeMcause H (writeMstatus H (s.saveM H clic) (s.pushM H)) s.mcauseWord = t at writes
  obtain ⟨mstatus, mcause, _, mepc, _, mtvec⟩ := @raiseLevel_frame _ t s.isInterrupt mintstatusMil
  have saved : t.mepc = s.pc ∧ t.mtvec = s.mtvec := by
    rw [writes.frame]
    exact ⟨rfl, rfl⟩
  exact PushedM.of_writes writes rfl rfl (pushM_mpie since) mpp pushM_mprv
    (fun _ less outside => pushM_bit less outside) rfl (mepc.trans saved.1) (mtvec.trans saved.2)
    mstatus mcause

theorem doNmi_pushed (since : H.privilegeArchitecture.since110 = true)
    (core : mppAllowed H s.priv = true) (nmi : s.nmiPending ≠ 0) :
    ∃ t, doNmi H s = some t ∧ PushedM H s (H.nmiMcause (lowestBitOf s.nmiPending)) t := by
  have mpp : getField (s.pushNmi H) mstatusMpp = s.priv := by
    unfold State.pushNmi
    rw [getField_other H (by decide) (by decide)]
    exact getField_setField_of_lt (fits H (by decide)) (toNat_lt_of_allowed H core)
  have mpie : getField (s.pushNmi H) mstatusMpie = getField s.mstatus mstatusMie := by
    unfold State.pushNmi
    rw [previousEnable_eq since, getField_other H (by decide) (by decide),
      getField_other H (by decide) (by decide),
      getField_copied (g := mstatusMie) H (by decide) (by decide) (by decide)]
  have mprv : getField (s.pushNmi H) mstatusMprv = getField s.mstatus mstatusMprv := by
    unfold State.pushNmi
    rw [getField_other H (by decide) (by decide), getField_other H (by decide) (by decide),
      getField_other H (by decide) (by decide)]
  have agree : ∀ i < xlen, NotInStack .machine i →
      (s.pushNmi H).getLsbD i = s.mstatus.getLsbD i := by
    intro i less outside
    obtain ⟨mieOut, mpieOut, mppOut⟩ := notInStack_machine outside
    unfold State.pushNmi
    rw [setField_of_not_has less mieOut, setField_of_not_has less mppOut,
      setField_of_not_has less mpieOut]
  unfold doNmi
  rw [if_neg nmi, riscvSetMode_prvM H]
  refine ⟨_, rfl, ?_⟩
  generalize lowestBitOf s.nmiPending = nmiIndex
  have writes := rewritten H { s with priv := prvM } (s.pushNmi H) (H.nmiMcause nmiIndex)
    (by rw [mpp, core])
  change PushedM H s (H.nmiMcause nmiIndex)
    ((writeMcause H (writeMstatus H { s with priv := prvM } (s.pushNmi H))
      (H.nmiMcause nmiIndex)).saveNmi H nmiIndex)
  generalize writeMcause H (writeMstatus H { s with priv := prvM } (s.pushNmi H))
    (H.nmiMcause nmiIndex) = t at writes
  have saved : t.priv = prvM ∧ t.pc = s.pc ∧ t.mtvec = s.mtvec := by
    rw [writes.frame]
    exact ⟨rfl, rfl, rfl⟩
  exact PushedM.of_writes writes rfl rfl mpie mpp mprv agree saved.1 saved.2.1 saved.2.2 rfl
    rfl

theorem riscvSetMode_field (H : Hart xlen) {f : Field} (narrow : f.width ≤ 2)
    (low : f.shift + f.width ≤ 32) (reg : BitVec xlen) :
    riscvSetMode s (getField reg f) =
      some { s with priv := if getField reg f = prvH then prvU else getField reg f } := by
  have small : (getField reg f).toNat < 4 :=
    Nat.lt_of_lt_of_le (toNat_getField_lt (fits H low)) (Nat.pow_le_pow_right (by decide) narrow)
  have least : (prvM : BitVec xlen).toNat = 3 := by
    rcases H.xlen_eq with rfl | rfl <;> rfl
  unfold riscvSetMode
  rw [if_neg]
  rw [gt_iff_lt, BitVec.lt_def, least]
  omega

theorem lowestPriv_allowed (H : Hart xlen) : mppAllowed H (lowestPriv H) = true := by
  unfold lowestPriv mppAllowed
  cases rvu : H.rvu with
  | true => simp
  | false => rcases H.xlen_eq with rfl | rfl <;> rfl

theorem getField_set {f : Field} (H : Hart xlen) (low : f.shift + f.width ≤ 32)
    (single : f.width = 1) (reg : BitVec xlen) : getField (setField reg f 1) f = 1 := by
  refine getField_setField_of_lt (fits H low) ?_
  rw [single]
  rcases H.xlen_eq with rfl | rfl <;> decide

theorem getField_clear {f : Field} (H : Hart xlen) (low : f.shift + f.width ≤ 32)
    (reg : BitVec xlen) : getField (setField reg f 0) f = 0 :=
  getField_setField_of_lt (fits H low) (Nat.two_pow_pos f.width)

/-- The fields that `mret` pops. -/
structure PoppedFields (H : Hart xlen) (reg popped : BitVec xlen) : Prop where
  mie : getField popped mstatusMie = getField reg mstatusMpie
  mpie : getField popped mstatusMpie = 1
  mpp : getField popped mstatusMpp = lowestPriv H
  mprv : getField popped mstatusMprv =
    if H.privilegeArchitecture.since112 = true ∧ getField reg mstatusMpp ≠ prvM then 0
    else getField reg mstatusMprv
  others : ∀ i < xlen, NotInStack .machine i → ¬mstatusMprv.Has i → popped.getLsbD i = reg.getLsbD i

theorem popM_fields (since : H.privilegeArchitecture.since110 = true) (reg : BitVec xlen) :
    PoppedFields H reg (popM H reg) := by
  have enable : enableField H mstatusMie (getField reg mstatusMpp) = mstatusMie := if_pos since
  unfold popM
  simp only [enable]
  generalize base : setField
    (setField (setField reg mstatusMie (getField reg mstatusMpie)) mstatusMpie 1) mstatusMpp
    (lowestPriv H) = popped
  have mie : getField popped mstatusMie = getField reg mstatusMpie := by
    rw [← base, getField_other H (by decide) (by decide), getField_other H (by decide) (by decide),
      getField_copied (g := mstatusMpie) H (by decide) (by decide) (by decide)]
  have mpie : getField popped mstatusMpie = 1 := by
    rw [← base, getField_other H (by decide) (by decide), getField_set H (by decide) (by decide)]
  have mpp : getField popped mstatusMpp = lowestPriv H := by
    rw [← base]
    exact getField_setField_of_lt (fits H (by decide))
      (toNat_lt_of_allowed H (lowestPriv_allowed H))
  have mprv : getField popped mstatusMprv = getField reg mstatusMprv := by
    rw [← base, getField_other H (by decide) (by decide), getField_other H (by decide) (by decide),
      getField_other H (by decide) (by decide)]
  have others (i : Nat) (less : i < xlen) (outside : NotInStack .machine i) :
      popped.getLsbD i = reg.getLsbD i := by
    obtain ⟨mieOut, mpieOut, mppOut⟩ := notInStack_machine outside
    rw [← base, setField_of_not_has less mppOut, setField_of_not_has less mpieOut,
      setField_of_not_has less mieOut]
  by_cases clears : H.privilegeArchitecture.since112 = true ∧ getField reg mstatusMpp ≠ prvM
  · have taken : (H.privilegeArchitecture.since112 &&
        decide (getField reg mstatusMpp ≠ prvM)) = true := by
      rw [clears.1, decide_eq_true clears.2]
      rfl
    rw [if_pos taken]
    refine ⟨?_, ?_, ?_, ?_, ?_⟩
    · rw [getField_other H (by decide) (by decide), mie]
    · rw [getField_other H (by decide) (by decide), mpie]
    · rw [getField_other H (by decide) (by decide), mpp]
    · rw [getField_clear H (by decide), if_pos clears]
    · intro i less outside notMprv
      rw [setField_of_not_has less notMprv, others i less outside]
  · have skipped : ¬(H.privilegeArchitecture.since112 &&
        decide (getField reg mstatusMpp ≠ prvM)) = true := by
      rw [Bool.and_eq_true, decide_eq_true_eq]
      exact clears
    rw [if_neg skipped]
    exact ⟨mie, mpie, mpp, by rw [mprv, if_neg clears], fun i less outside _ => others i less outside⟩

/-- What `mret` makes of the registers. -/
structure PoppedM (H : Hart xlen) (r r' : State xlen) : Prop where
  pc : r'.pc = returnAddress H r r.mcause r.mepc
  priv : r'.priv =
    if getField r.mstatus mstatusMpp = prvH then prvU else getField r.mstatus mstatusMpp
  mie : getField r'.mstatus mstatusMie = getField r.mstatus mstatusMpie
  mpie : getField r'.mstatus mstatusMpie = 1
  mpp : getField r'.mstatus mstatusMpp = lowestPriv H
  mprv : getField r'.mstatus mstatusMprv = if H.rvu = false ∨
      H.privilegeArchitecture.since112 = true ∧ getField r.mstatus mstatusMpp ≠ prvM then 0
    else getField r.mstatus mstatusMprv
  others : ∀ i < xlen, i ≠ xlen - 1 → NotInStack .machine i → ¬mstatusMprv.Has i →
    r'.mstatus.getLsbD i = r.mstatus.getLsbD i
  mil : r.cpuInClicMode = true → getField r'.mintstatus mintstatusMil = getField r.mcause causePil
  mcause : r.cpuInClicMode = false →
    r'.mcause = setField (setField r.mcause causePp (lowestPriv H)) causePie 1

theorem writeMstatus_mcause_field {f : Field} (H : Hart xlen) (low : f.shift + f.width ≤ 32)
    (apartPie : f.Disjoint causePie) (apartPp : f.Disjoint causePp) (u : State xlen)
    (v : BitVec xlen) : getField (writeMstatus H u v).mcause f = getField u.mcause f := by
  unfold writeMstatus
  dsimp only
  split
  · exact mirrored_getField H low apartPie apartPp _ _
  · rfl

theorem restoreMil_frame : (restoreMil s).mstatus = s.mstatus ∧ (restoreMil s).mcause = s.mcause ∧
      (restoreMil s).priv = s.priv ∧ (restoreMil s).mtvec = s.mtvec := by
  unfold restoreMil
  split <;> exact ⟨rfl, rfl, rfl, rfl⟩

theorem restoreMil_mil (H : Hart xlen) (clic : s.cpuInClicMode = true) :
    getField (restoreMil s).mintstatus mintstatusMil = getField s.mcause causePil := by
  unfold restoreMil
  rw [if_pos clic]
  exact getField_copied (g := causePil) H (by decide) (by decide) (by decide) _ _

theorem helperMret_spec (since : H.privilegeArchitecture.since110 = true) (priv : r.priv = prvM)
    (legal : retpcLegal H r.mepc = true) :
    ∃ r', helperMret H r = some r' ∧ PoppedM H r r' := by
  have notLess : ¬r.priv < prvM := by
    rw [priv, BitVec.lt_def]
    exact Nat.lt_irrefl _
  unfold helperMret
  rw [if_neg notLess, legal, riscvSetMode_field H (by decide) (by decide)]
  refine ⟨_, rfl, ?_⟩
  generalize setPriv : ({ r with
      priv := (if getField r.mstatus mstatusMpp = prvH then prvU
        else getField r.mstatus mstatusMpp) } : State xlen) = u
  have same : u.mstatus = r.mstatus ∧ u.mcause = r.mcause ∧ u.mtvec = r.mtvec ∧
      u.mintstatus = r.mintstatus := by
    rw [← setPriv]
    exact ⟨rfl, rfl, rfl, rfl⟩
  have newPriv : u.priv =
      if getField r.mstatus mstatusMpp = prvH then prvU else getField r.mstatus mstatusMpp := by
    rw [← setPriv]
  have clicMode : u.cpuInClicMode = r.cpuInClicMode := by
    unfold State.cpuInClicMode
    rw [same.2.2.1]
  have popped := popM_fields since r.mstatus
  dsimp only
  generalize word : setField
    (setField (writeMstatus H u (popM H r.mstatus)).mcause causePp (lowestPriv H)) causePie 1 = w
  have writes := rewritten H u (popM H r.mstatus) w (by rw [popped.mpp, lowestPriv_allowed])
  generalize writeMcause H (writeMstatus H u (popM H r.mstatus)) w = t at writes
  have pie : getField w causePie = 1 := by
    rw [← word, getField_set H (by decide) (by decide)]
  have pp : getField w causePp = lowestPriv H := by
    rw [← word, getField_other H (by decide) (by decide)]
    exact getField_setField_of_lt (fits H (by decide))
      (toNat_lt_of_allowed H (lowestPriv_allowed H))
  have pil : getField w causePil = getField r.mcause causePil := by
    rw [← word, getField_other H (by decide) (by decide), getField_other H (by decide) (by decide),
      writeMstatus_mcause_field H (by decide) (by decide) (by decide), same.2.1]
  have inhv : getField w causeInhv = getField r.mcause causeInhv := by
    rw [← word, getField_other H (by decide) (by decide), getField_other H (by decide) (by decide),
      writeMstatus_mcause_field H (by decide) (by decide) (by decide), same.2.1]
  have tvec : t.mtvec = r.mtvec ∧ t.priv = u.priv := by
    rw [writes.frame]
    exact ⟨same.2.2.1, rfl⟩
  have mode : t.cpuInClicMode = r.cpuInClicMode := by
    unfold State.cpuInClicMode
    rw [tvec.1]
  obtain ⟨mstatus, mcause, privKept, mtvec⟩ := @restoreMil_frame _ t
  refine ⟨?_, ?_, ?_, ?_, ?_, ?_, ?_, ?_, ?_⟩
  · have modeAfter : (restoreMil t).cpuInClicMode = r.cpuInClicMode := by
      unfold State.cpuInClicMode
      rw [mtvec, tvec.1]
    change returnAddress H (restoreMil t) (restoreMil t).mcause r.mepc = _
    unfold returnAddress
    rw [modeAfter, mcause, writes.inhv, inhv]
  · exact privKept.trans (tvec.2.trans newPriv)
  · refine (congrArg (getField · mstatusMie) mstatus).trans ?_
    exact writes.mie.trans popped.mie
  · refine (congrArg (getField · mstatusMpie) mstatus).trans ?_
    refine writes.mpie.trans ?_
    rw [pie, popped.mpie, ite_self]
  · refine (congrArg (getField · mstatusMpp) mstatus).trans ?_
    refine writes.mpp.trans ?_
    rw [pp, popped.mpp, ite_self]
  · refine (congrArg (getField · mstatusMprv) mstatus).trans ?_
    refine writes.mprv.trans ?_
    rw [popped.mprv]
    cases H.rvu <;> simp
  · intro i less notTop outside notMprv
    refine (congrArg (·.getLsbD i) mstatus).trans ?_
    refine (writes.others i less notTop outside notMprv ?_).trans (by rw [same.1])
    rw [popped.others i less outside notMprv, same.1]
  · intro clic
    refine (restoreMil_mil H (mode.trans clic)).trans ?_
    rw [writes.pil, pil]
  · intro direct
    refine mcause.trans ?_
    rw [writes.mcause (clicMode.trans direct), ← word, writeMstatus_direct (clicMode.trans direct),
      same.2.1]

end Tlib.Riscv.Trap
