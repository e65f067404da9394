import Tlib.Riscv.TrapReturn

/-!
Contract: a trap return undoes the trap entry.

Owns: the exact condition for `mret` and for `sret`, whatever the handler leaves in the other
registers.
-/

namespace Tlib.Riscv.Trap

open Tlib.Library.BitFields BitVec List

variable {xlen : Nat} {H : Hart xlen} {s t u r r' : State xlen} {v w : BitVec xlen}

/-! ### `mret` -/

/-- `mret` undoes a trap that has written `w` to `mcause`. -/
structure MachineExact (H : Hart xlen) (s : State xlen) (w : BitVec xlen) : Prop where
  aligned : retpcLegal H s.pc = true
  direct : s.cpuInClicMode = false →
    getField w causePie = 1 ∧ getField w causePp = leastPriv H .machine
  clic : s.cpuInClicMode = true → getField w causePie = getField s.mstatus mstatusMie ∧
      (mppAllowed H (getField w causePp) = true → getField w causePp = s.priv) ∧
      getField w causePil = getField s.mintstatus mintstatusMil ∧
      (getField w causeInhv = 0 ∨ H.ldpPhys s.pc &&& ~~~1 = s.pc)

theorem prvH_not_allowed (H : Hart xlen) {p : BitVec xlen} (allowed : mppAllowed H p = true) :
    p ≠ prvH := by
  intro hypervisor
  rw [hypervisor] at allowed
  unfold mppAllowed at allowed
  rcases H.xlen_eq with rfl | rfl
  · exact absurd allowed (by simp [prvH, prvU, prvS, prvM])
  · exact absurd allowed (by simp [prvH, prvU, prvS, prvM])

theorem entered_eq_iff (H : Hart xlen) {p q : BitVec xlen} (allowed : mppAllowed H q = true)
    (back : p = q ∨ mppAllowed H p = true) :
    (if p = prvH then prvU else p) = q ↔ p = q := by
  have ne : p ≠ prvH := by
    rcases back with same | other
    · rw [same]
      exact prvH_not_allowed H allowed
    · exact prvH_not_allowed H other
  rw [if_neg ne]

theorem setCause_eq_self_iff (H : Hart xlen) {p : BitVec xlen} (small : p.toNat < 4) :
    setField (setField w causePp p) causePie 1 = w ↔
      getField w causePie = 1 ∧ getField w causePp = p := by
  have one : getField (1 : BitVec xlen) { shift := 0, width := causePie.width } = 1 :=
    getField_low (Nat.le_trans (by decide) H.le_xlen) (by
      rcases H.xlen_eq with rfl | rfl <;> decide)
  have low : getField p { shift := 0, width := causePp.width } = p :=
    getField_low (Nat.le_trans (by decide) H.le_xlen) small
  constructor
  · intro same
    have pie : getField w causePie = 1 := by
      rw [← same, getField_set H (by decide) (by decide)]
    refine ⟨pie, ?_⟩
    rw [← same, getField_other H (by decide) (by decide)]
    exact getField_setField_of_lt (fits H (by decide)) small
  · intro fields
    have pp : setField w causePp p = w := by
      rw [setField_eq_self_iff (fits H (by decide)), low, fields.2]
    rw [pp, setField_eq_self_iff (fits H (by decide)), one, fields.1]

theorem Handled.returnAddress_eq (handled : Handled .machine t r) (pushed : PushedM H s w t) :
    returnAddress H r r.mcause r.mepc =
      if s.cpuInClicMode && getField w causeInhv ≠ 0 then H.ldpPhys s.pc &&& ~~~1 else s.pc := by
  have mcause : r.mcause = t.mcause := handled.xcause
  have mepc : r.mepc = t.mepc := handled.xepc
  unfold returnAddress
  rw [handled.clic, pushed.clic, mcause, pushed.inhv, mepc, pushed.mepc]

theorem PoppedM.undoes_iff (core : mppAllowed H s.priv = true) (pushed : PushedM H s w t)
    (handled : Handled .machine t r) (popped : PoppedM H r r') (legal : retpcLegal H s.pc = true) :
    Undone H .machine s t r' ↔ MachineExact H s w := by
  have mcause : r.mcause = t.mcause := handled.xcause
  have clicMode : r.cpuInClicMode = s.cpuInClicMode := handled.clic.trans pushed.clic
  have pc := popped.pc.trans (handled.returnAddress_eq pushed)
  have mpp : getField r.mstatus mstatusMpp =
      if s.cpuInClicMode ∧ mppAllowed H (getField w causePp) = true then getField w causePp
      else s.priv := by
    rw [handled.mstatus, pushed.mpp]
  have mie : getField r'.mstatus mstatusMie =
      if s.cpuInClicMode then getField w causePie else getField s.mstatus mstatusMie := by
    rw [popped.mie, handled.mstatus, pushed.mpie]
  -- the mode that `MPP` holds is one that the hart supports
  have back : getField r.mstatus mstatusMpp = s.priv ∨
      mppAllowed H (getField r.mstatus mstatusMpp) = true := by
    rw [mpp]
    split
    next aliased => exact Or.inr aliased.2
    next => exact Or.inl rfl
  have privIff : r'.priv = s.priv ↔ getField r.mstatus mstatusMpp = s.priv := by
    rw [popped.priv]
    exact entered_eq_iff H core back
  have written (direct : s.cpuInClicMode = false) : r'.mcause = t.mcause ↔
        getField w causePie = 1 ∧ getField w causePp = leastPriv H .machine := by
    rw [popped.mcause (clicMode.trans direct), mcause, pushed.mcause direct]
    exact setCause_eq_self_iff H (toNat_lt_of_allowed H (lowestPriv_allowed H))
  constructor
  · intro undone
    refine ⟨legal, fun direct => (written direct).mp (undone.xcause direct), fun clic => ?_⟩
    have pie : getField w causePie = getField s.mstatus mstatusMie := by
      have enabled := mie.symm.trans undone.xie
      rwa [if_pos clic] at enabled
    have pp (allowed : mppAllowed H (getField w causePp) = true) : getField w causePp = s.priv := by
      have priv := mpp.symm.trans (privIff.mp undone.priv)
      rwa [if_pos ⟨clic, allowed⟩] at priv
    have pil : getField w causePil = getField s.mintstatus mintstatusMil := by
      rw [← pushed.pil, ← mcause, ← popped.mil (clicMode.trans clic)]
      exact undone.level clic
    refine ⟨pie, pp, pil, ?_⟩
    have same := pc.symm.trans undone.pc
    rw [clic, Bool.true_and] at same
    by_cases inhv : getField w causeInhv = 0
    · exact Or.inl inhv
    · rw [if_pos (decide_eq_true inhv)] at same
      exact Or.inr same
  · intro exact_
    have restored : getField r.mstatus mstatusMpp = s.priv := by
      rw [mpp]
      split
      next aliased => exact (exact_.clic aliased.1).2.1 aliased.2
      next => rfl
    exact
      { pc := by
          rw [pc]
          cases clic : s.cpuInClicMode with
          | false => rfl
          | true =>
            rcases (exact_.clic clic).2.2.2 with zero | same
            · simp [zero]
            · rw [same, ite_self]
        priv := privIff.mpr restored
        xie := by
          refine mie.trans ?_
          cases clic : s.cpuInClicMode with
          | false => rfl
          | true => exact (exact_.clic clic).1
        level := by
          intro clic
          refine (popped.mil (clicMode.trans clic)).trans ?_
          rw [mcause, pushed.pil]
          exact (exact_.clic clic).2.2.1
        xpie := popped.mpie
        xpp := popped.mpp
        mprv := by
          intro clears
          rw [popped.mprv, restored]
          exact if_pos (Or.inr clears)
        mprvKept := by
          intro rvu kept
          rw [popped.mprv, restored, if_neg, handled.mstatus, pushed.mprv, if_pos rvu]
          rintro (none | clears)
          · rw [rvu] at none
            cases none
          · exact kept clears
        others := by
          intro i less notTop outside notMprv
          rw [popped.others i less notTop outside notMprv, handled.mstatus,
            pushed.others i less notTop outside notMprv]
        xcause := fun direct => (written direct).mpr (exact_.direct direct) }

theorem helperMret_refused (illegal : retpcLegal H r.mepc = false) : helperMret H r = none := by
  unfold helperMret
  split
  · rfl
  · rw [illegal]
    rfl

theorem helperMret_undone_iff (since : H.privilegeArchitecture.since110 = true)
    (core : mppAllowed H s.priv = true) (pushed : PushedM H s w t)
    (handled : Handled .machine t r) :
    (∃ r', helperMret H r = some r' ∧ Undone H .machine s t r') ↔ MachineExact H s w := by
  have mepc : r.mepc = s.pc := Eq.trans handled.xepc pushed.mepc
  cases legal : retpcLegal H s.pc with
  | true =>
    obtain ⟨r', returned, popped⟩ := helperMret_spec since handled.priv (by rw [mepc, legal])
    simp only [returned, Option.some.injEq, exists_eq_left']
    exact popped.undoes_iff core pushed handled legal
  | false =>
    have refused : helperMret H r = none := helperMret_refused (by rw [mepc, legal])
    constructor
    · rintro ⟨_, returned, _⟩
      rw [refused] at returned
      cases returned
    · intro exact_
      rw [exact_.aligned] at legal
      cases legal

/-! ### The entry into S-mode -/

theorem sstatusMask_has {f : Field} {i : Nat}
    (member : f ∈ [mstatusSie, mstatusSpie, mstatusSpp]) (has : f.Has i) (less : i < xlen) :
    (sstatusMask : BitVec xlen).getLsbD i = true := by
  unfold sstatusMask
  rw [getLsbD_masks _ _ less]
  simp only [any_append, Bool.or_eq_true, any_eq_true, decide_eq_true_eq]
  refine Or.inr (Or.inl ⟨f, ?_, has⟩)
  simp only [mem_cons, not_mem_nil, or_false] at member
  rcases member with rfl | rfl | rfl <;> simp

theorem sstatusMask_mprv (H : Hart xlen) : (sstatusMask : BitVec xlen).getLsbD 17 = false := by
  rcases H.xlen_eq with rfl | rfl <;> decide

/-- A write of `sstatus`. -/
structure RewrittenS (H : Hart xlen) (u : State xlen) (v : BitVec xlen) (t : State xlen) :
    Prop where
  supervisor : ∀ f ∈ [mstatusSie, mstatusSpie, mstatusSpp], getField t.mstatus f = getField v f
  mprv : getField t.mstatus mstatusMprv = if H.rvu then getField u.mstatus mstatusMprv else 0
  others : ∀ i < xlen, i ≠ xlen - 1 → ¬mstatusMprv.Has i →
    v.getLsbD i = u.mstatus.getLsbD i → t.mstatus.getLsbD i = u.mstatus.getLsbD i
  frame : t = { u with mstatus := t.mstatus, mcause := t.mcause }

theorem rewrittenS (rvs : H.rvs = true) (u : State xlen) (v : BitVec xlen)
    (agree : ∀ i, mstatusMpp.Has i → v.getLsbD i = u.mstatus.getLsbD i) :
    RewrittenS H u v (writeSstatus H u v) := by
  have wide := H.le_xlen
  unfold writeSstatus
  generalize word : (u.mstatus &&& ~~~sstatusMask) ||| (v &&& sstatusMask) = v'
  have bit (i : Nat) (less : i < xlen) : v'.getLsbD i =
      if (sstatusMask : BitVec xlen).getLsbD i then v.getLsbD i else u.mstatus.getLsbD i := by
    rw [← word]
    simp only [getLsbD_or, getLsbD_and, getLsbD_not, less, decide_true,
      Bool.true_and]
    cases (sstatusMask : BitVec xlen).getLsbD i <;> simp
  have same (i : Nat) (less : i < xlen) (equal : v.getLsbD i = u.mstatus.getLsbD i) :
      v'.getLsbD i = u.mstatus.getLsbD i := by
    rw [bit i less, equal, ite_self]
  have writes := written_withDirty H u.mstatus v'
  have inside (f : Field) (i : Nat) (low : f.shift + f.width ≤ 32) (has : f.Has i) : i < xlen := by
    unfold Field.Has at has
    omega
  have mpp : getField v' mstatusMpp = getField u.mstatus mstatusMpp :=
    getField_congr (fits H (by decide)) fun i has =>
      same i (inside mstatusMpp i (by decide) has) (agree i has)
  refine ⟨?_, ?_, ?_, rfl⟩
  · intro f member
    refine (writes.supervisor rvs f member).trans ?_
    have low : f.shift + f.width ≤ 32 := by
      simp only [mem_cons, not_mem_nil, or_false] at member
      rcases member with rfl | rfl | rfl <;> decide
    refine getField_congr (fits H low) fun i has => ?_
    rw [bit i (inside f i low has), sstatusMask_has member has (inside f i low has)]
    rfl
  · refine writes.mprv.trans ?_
    have kept : getField v' mstatusMprv = getField u.mstatus mstatusMprv := by
      refine getField_congr (fits H (by decide)) fun i has => ?_
      have place : i = 17 := by
        unfold Field.Has mstatusMprv at has
        simp only at has
        omega
      rw [place, bit 17 (by omega), sstatusMask_mprv H]
      rfl
    rw [kept]
  · intro i less notTop notMprv equal
    by_cases inMpp : mstatusMpp.Has i
    · have back : getField (writeMstatus H u v').mstatus mstatusMpp =
          getField u.mstatus mstatusMpp := by
        refine writes.mpp.trans ?_
        rw [mpp, ite_self]
      exact getLsbD_of_getField (fits H (by decide)) back inMpp
    · exact writes.others i less notTop inMpp notMprv (same i less equal)

structure PushedS (H : Hart xlen) (s : State xlen) (w : BitVec xlen) (t : State xlen) : Prop where
  priv : t.priv = prvS
  sepc : t.sepc = s.pc
  clic : t.cpuInClicMode = s.cpuInClicMode
  spie : getField t.mstatus mstatusSpie = getField s.mstatus mstatusSie
  spp : getField t.mstatus mstatusSpp = getField s.priv { shift := 0, width := 1 }
  mprv : getField t.mstatus mstatusMprv = if H.rvu then getField s.mstatus mstatusMprv else 0
  others : ∀ i < xlen, i ≠ xlen - 1 → NotInStack .supervisor i → ¬mstatusMprv.Has i →
    t.mstatus.getLsbD i = s.mstatus.getLsbD i
  scause : t.scause = w

/-- The word that the trap writes to `scause`. -/
def State.scauseWord (s : State xlen) : BitVec xlen :=
  s.causeWord (getField s.mintstatus mintstatusSil) (getField s.mstatus mstatusSie)

theorem notInStack_of_mpp {i : Nat} (has : mstatusMpp.Has i) : NotInStack .supervisor i := by
  unfold NotInStack TrapMode.stack
  intro f member
  unfold Field.Has mstatusMpp at has
  simp only [mem_cons, not_mem_nil, or_false] at member
  rcases member with rfl | rfl | rfl
  · unfold Field.Has mstatusSie
    simp only at has ⊢
    omega
  · unfold Field.Has mstatusSpie
    simp only at has ⊢
    omega
  · unfold Field.Has mstatusSpp
    simp only at has ⊢
    omega

theorem enterS_pushed (since : H.privilegeArchitecture.since110 = true) (clic : ClicInterrupt) :
    ∃ t, s.enterS H clic = some t ∧ (H.rvs = true → ∀ index,
      PushedS H s s.scauseWord { t with exceptionIndex := index }) := by
  refine ⟨_, riscvSetMode_prvS H, fun rvs index => ?_⟩
  have wide := H.le_xlen
  have inside (i : Nat) (has : mstatusMpp.Has i) : i < xlen := by
    unfold Field.Has mstatusMpp at has
    simp only at has
    omega
  have writes := rewrittenS rvs (s.saveS H clic) (s.pushS H) fun i has =>
    pushS_bit (inside i has) (notInStack_of_mpp has)
  have spie : getField (s.pushS H) mstatusSpie = getField s.mstatus mstatusSie := by
    unfold State.pushS
    rw [previousEnable_eq since, getField_other H (by decide) (by decide),
      getField_other H (by decide) (by decide),
      getField_copied (g := mstatusSie) H (by decide) (by decide) (by decide)]
  have spp : getField (s.pushS H) mstatusSpp = getField s.priv { shift := 0, width := 1 } :=
    getField_setField (fits H (by decide))
  rw [previousEnable_eq since]
  change PushedS H s s.scauseWord { (writeScause (writeSstatus H (s.saveS H clic) (s.pushS H))
    s.scauseWord).raiseLevel s.isInterrupt mintstatusSil with
      priv := prvS, exceptionIndex := index }
  generalize writeSstatus H (s.saveS H clic) (s.pushS H) = t at writes
  obtain ⟨mstatus, _, scause, _, sepc, mtvec⟩ :=
    @raiseLevel_frame _ (writeScause t s.scauseWord) s.isInterrupt mintstatusSil
  have saved : t.sepc = s.pc ∧ t.mtvec = s.mtvec := by
    rw [writes.frame]
    exact ⟨rfl, rfl⟩
  exact
    { priv := rfl
      sepc := sepc.trans saved.1
      clic := by
        unfold State.cpuInClicMode
        exact congrArg (fun reg => decide (getField reg mtvecMode = 3)) (mtvec.trans saved.2)
      spie := by
        refine (congrArg (getField · mstatusSpie) mstatus).trans ?_
        exact (writes.supervisor mstatusSpie (by simp)).trans spie
      spp := by
        refine (congrArg (getField · mstatusSpp) mstatus).trans ?_
        exact (writes.supervisor mstatusSpp (by simp)).trans spp
      mprv := (congrArg (getField · mstatusMprv) mstatus).trans writes.mprv
      others := by
        intro i less notTop outside notMprv
        refine (congrArg (·.getLsbD i) mstatus).trans ?_
        exact writes.others i less notTop notMprv (pushS_bit less outside)
      scause := scause }

/-! ### `sret` -/

/-- What `sret` makes of the registers. -/
structure PoppedS (H : Hart xlen) (r r' : State xlen) : Prop where
  pc : r'.pc = returnAddress H r r.scause r.sepc
  priv : r'.priv = getField r.mstatus mstatusSpp
  sie : getField r'.mstatus mstatusSie = getField r.mstatus mstatusSpie
  spie : getField r'.mstatus mstatusSpie = 1
  spp : getField r'.mstatus mstatusSpp = prvU
  mprv : getField r'.mstatus mstatusMprv = if H.rvu then getField r.mstatus mstatusMprv else 0
  others : ∀ i < xlen, i ≠ xlen - 1 → NotInStack .supervisor i → ¬mstatusMprv.Has i →
    r'.mstatus.getLsbD i = r.mstatus.getLsbD i
  sil : r.cpuInClicMode = true → getField r'.mintstatus mintstatusSil = getField r.scause causePil
  scause : r'.scause = setField (setField r.scause causePp prvU) causePie 1

/-- The fields that `sret` asks to be written. -/
structure PoppedFieldsS (reg popped : BitVec xlen) : Prop where
  sie : getField popped mstatusSie = getField reg mstatusSpie
  spie : getField popped mstatusSpie = 1
  spp : getField popped mstatusSpp = prvU
  others : ∀ i < xlen, NotInStack .supervisor i → ¬mstatusMprv.Has i →
    popped.getLsbD i = reg.getLsbD i

theorem popS_fields (since : H.privilegeArchitecture.since110 = true) (reg : BitVec xlen) :
    PoppedFieldsS reg (popS H reg) := by
  have enable : enableField H mstatusSie (getField reg mstatusSpp) = mstatusSie := if_pos since
  unfold popS
  simp only [enable]
  generalize base : setField
    (setField (setField reg mstatusSie (getField reg mstatusSpie)) mstatusSpie 1) mstatusSpp
    prvU = popped
  have sie : getField popped mstatusSie = getField reg mstatusSpie := by
    rw [← base, getField_other H (by decide) (by decide), getField_other H (by decide) (by decide),
      getField_copied (g := mstatusSpie) H (by decide) (by decide) (by decide)]
  have spie : getField popped mstatusSpie = 1 := by
    rw [← base, getField_other H (by decide) (by decide), getField_set H (by decide) (by decide)]
  have spp : getField popped mstatusSpp = prvU := by
    rw [← base]
    exact getField_clear H (by decide) _
  have others (i : Nat) (less : i < xlen) (outside : NotInStack .supervisor i) :
      popped.getLsbD i = reg.getLsbD i := by
    obtain ⟨sieOut, spieOut, sppOut⟩ := notInStack_supervisor outside
    rw [← base, setField_of_not_has less sppOut, setField_of_not_has less spieOut,
      setField_of_not_has less sieOut]
  split
  · refine ⟨?_, ?_, ?_, ?_⟩
    · rw [getField_other H (by decide) (by decide), sie]
    · rw [getField_other H (by decide) (by decide), spie]
    · rw [getField_other H (by decide) (by decide), spp]
    · intro i less outside notMprv
      rw [setField_of_not_has less notMprv, others i less outside]
  · exact ⟨sie, spie, spp, fun i less outside _ => others i less outside⟩

theorem restoreSil_frame : (restoreSil s).mstatus = s.mstatus ∧ (restoreSil s).scause = s.scause ∧
      (restoreSil s).priv = s.priv ∧ (restoreSil s).mtvec = s.mtvec := by
  unfold restoreSil
  split <;> exact ⟨rfl, rfl, rfl, rfl⟩

theorem restoreSil_sil (H : Hart xlen) (clic : s.cpuInClicMode = true) :
    getField (restoreSil s).mintstatus mintstatusSil = getField s.scause causePil := by
  have wide := H.le_xlen
  unfold restoreSil
  rw [if_pos clic]
  unfold writeSintstatus
  dsimp only
  have copied := getField_copied (f := mintstatusSil) (g := causePil) H (by decide) (by decide)
    (by decide) s.mintstatus s.scause
  refine Eq.trans ?_ copied
  refine getField_congr (fits H (by decide)) fun i has => ?_
  have inMask : sintstatusMask.Has i := by
    unfold Field.Has mintstatusSil at has
    unfold Field.Has sintstatusMask
    simp only at has ⊢
    omega
  have less : i < xlen := by
    unfold Field.Has sintstatusMask at inMask
    simp only at inMask
    omega
  rw [getLsbD_setField less, if_pos inMask]
  rfl

theorem helperSret_spec (since : H.privilegeArchitecture.since110 = true) (rvs : H.rvs = true)
    (priv : r.priv = prvS) (tsr : getField r.mstatus mstatusTsr = 0)
    (legal : retpcLegal H r.sepc = true) :
    ∃ r', helperSret H r = some r' ∧ PoppedS H r r' := by
  have wide := H.le_xlen
  have notLess : ¬r.priv < prvS := by
    rw [priv, lt_def]
    exact Nat.lt_irrefl _
  have sppPriv : getField r.mstatus mstatusSpp ≠ prvH := by
    have small : (getField r.mstatus mstatusSpp).toNat < 2 := toNat_getField_lt (fits H (by decide))
    have two : (prvH : BitVec xlen).toNat = 2 := by
      rcases H.xlen_eq with rfl | rfl <;> rfl
    intro same
    rw [same, two] at small
    omega
  have tvmOff : (H.privilegeArchitecture.since110 && decide (r.priv = prvS) &&
      decide (getField r.mstatus mstatusTsr ≠ 0)) = false := by
    rw [tsr]
    simp
  unfold helperSret
  rw [rvs, if_neg notLess, tvmOff, legal, riscvSetMode_field H (by decide) (by decide),
    if_neg sppPriv]
  refine ⟨_, rfl, ?_⟩
  generalize setPriv : ({ r with priv := getField r.mstatus mstatusSpp } : State xlen) = u
  have same : u.mstatus = r.mstatus ∧ u.scause = r.scause ∧ u.mtvec = r.mtvec ∧
      u.priv = getField r.mstatus mstatusSpp := by
    rw [← setPriv]
    exact ⟨rfl, rfl, rfl, rfl⟩
  have popped := popS_fields since r.mstatus
  have writes := rewrittenS rvs u (popS H r.mstatus) fun i has => by
    have less : i < xlen := by
      unfold Field.Has mstatusMpp at has
      simp only at has
      omega
    have notMprv : ¬mstatusMprv.Has i := by
      unfold Field.Has mstatusMpp at has
      unfold Field.Has mstatusMprv
      simp only at has ⊢
      omega
    rw [popped.others i less (notInStack_of_mpp has) notMprv, same.1]
  dsimp only
  generalize writeSstatus H u (popS H r.mstatus) = t at writes
  have before : t.scause = r.scause ∧ t.mtvec = r.mtvec ∧
      t.priv = getField r.mstatus mstatusSpp := by
    rw [writes.frame]
    exact same.2
  rw [before.1]
  generalize word : setField (setField r.scause causePp prvU) causePie 1 = w
  have pil : getField w causePil = getField r.scause causePil := by
    rw [← word, getField_other H (by decide) (by decide), getField_other H (by decide) (by decide)]
  have inhv : getField w causeInhv = getField r.scause causeInhv := by
    rw [← word, getField_other H (by decide) (by decide), getField_other H (by decide) (by decide)]
  have mode : (writeScause t w).cpuInClicMode = r.cpuInClicMode := by
    unfold State.cpuInClicMode
    exact congrArg (fun reg => decide (getField reg mtvecMode = 3)) before.2.1
  obtain ⟨mstatus, scause, privKept, mtvec⟩ := @restoreSil_frame _ (writeScause t w)
  refine ⟨?_, ?_, ?_, ?_, ?_, ?_, ?_, ?_, ?_⟩
  · have modeAfter : (restoreSil (writeScause t w)).cpuInClicMode = r.cpuInClicMode := by
      unfold State.cpuInClicMode
      exact congrArg (fun reg => decide (getField reg mtvecMode = 3)) (mtvec.trans before.2.1)
    change returnAddress H (restoreSil (writeScause t w)) (restoreSil (writeScause t w)).scause
      r.sepc = _
    have cause : (restoreSil (writeScause t w)).scause = w := scause
    unfold returnAddress
    rw [modeAfter, cause, inhv]
  · exact privKept.trans before.2.2
  · refine (congrArg (getField · mstatusSie) mstatus).trans ?_
    exact (writes.supervisor mstatusSie (by simp)).trans popped.sie
  · refine (congrArg (getField · mstatusSpie) mstatus).trans ?_
    exact (writes.supervisor mstatusSpie (by simp)).trans popped.spie
  · refine (congrArg (getField · mstatusSpp) mstatus).trans ?_
    exact (writes.supervisor mstatusSpp (by simp)).trans popped.spp
  · refine (congrArg (getField · mstatusMprv) mstatus).trans ?_
    refine writes.mprv.trans ?_
    rw [same.1]
  · intro i less notTop outside notMprv
    refine (congrArg (·.getLsbD i) mstatus).trans ?_
    refine (writes.others i less notTop notMprv ?_).trans (by rw [same.1])
    rw [popped.others i less outside notMprv, same.1]
  · intro clic
    exact (restoreSil_sil H (mode.trans clic)).trans pil
  · exact scause.trans word.symm

/-- `sret` undoes a trap that has written `w` to `scause`. -/
structure SupervisorExact (H : Hart xlen) (s : State xlen) (w : BitVec xlen) : Prop where
  rvs : H.rvs = true
  rvu : H.rvu = true
  below : s.priv ≠ prvM
  tsr : getField s.mstatus mstatusTsr = 0
  aligned : retpcLegal H s.pc = true
  direct : s.cpuInClicMode = false →
    getField w causePie = 1 ∧ getField w causePp = leastPriv H .supervisor
  mprv : H.privilegeArchitecture.since112 = true → getField s.mstatus mstatusMprv = 0

theorem spp_eq_iff (H : Hart xlen) {p : BitVec xlen} (core : mppAllowed H p = true) :
    getField p { shift := 0, width := 1 } = p ↔ p ≠ prvM := by
  unfold mppAllowed at core
  split at core
  next user =>
    rw [user]
    rcases H.xlen_eq with rfl | rfl <;> decide
  next =>
    split at core
    next supervisor =>
      rw [supervisor]
      rcases H.xlen_eq with rfl | rfl <;> decide
    next =>
      rw [of_decide_eq_true core]
      rcases H.xlen_eq with rfl | rfl <;> decide

theorem PoppedS.undoes_iff (core : mppAllowed H s.priv = true) (pushed : PushedS H s w t)
    (handled : Handled .supervisor t r) (popped : PoppedS H r r') (rvs : H.rvs = true)
    (tsrClear : getField s.mstatus mstatusTsr = 0) (legal : retpcLegal H s.pc = true)
    (clicCause : s.cpuInClicMode = true →
      getField w causePil = getField s.mintstatus mintstatusSil ∧ getField w causeInhv = 0) :
    Undone H .supervisor s t r' ↔ SupervisorExact H s w := by
  have xcause : r.scause = t.scause := handled.xcause
  have sepc : r.sepc = s.pc := Eq.trans handled.xepc pushed.sepc
  have clicMode : r.cpuInClicMode = s.cpuInClicMode := handled.clic.trans pushed.clic
  have cause : r.scause = w := xcause.trans pushed.scause
  have restored : r'.priv = getField s.priv { shift := 0, width := 1 } := by
    rw [popped.priv, handled.mstatus, pushed.spp]
  have mprv : getField r'.mstatus mstatusMprv =
      if H.rvu then getField s.mstatus mstatusMprv else 0 := by
    rw [popped.mprv, handled.mstatus, pushed.mprv]
    cases H.rvu <;> rfl
  have written : r'.scause = t.scause ↔ getField w causePie = 1 ∧ getField w causePp = prvU := by
    rw [popped.scause, ← xcause, cause]
    refine setCause_eq_self_iff H ?_
    rcases H.xlen_eq with rfl | rfl <;> decide
  constructor
  · intro undone
    have rvu : H.rvu = true := by
      have least := popped.spp.symm.trans undone.xpp
      unfold leastPriv at least
      cases rvu : H.rvu with
      | true => rfl
      | false =>
        rw [rvu] at least
        rcases H.xlen_eq with rfl | rfl <;> exact absurd least (by decide)
    have below : s.priv ≠ prvM := (spp_eq_iff H core).mp (restored.symm.trans undone.priv)
    refine ⟨rvs, rvu, below, tsrClear, legal, fun direct => ?_, fun since112 => ?_⟩
    · have fields := written.mp (undone.xcause direct)
      unfold leastPriv
      rw [rvu]
      exact fields
    · have cleared := undone.mprv ⟨since112, below⟩
      rwa [mprv, if_pos rvu] at cleared
  · intro exact_
    exact
      { pc := by
          rw [popped.pc, sepc]
          unfold returnAddress
          rw [clicMode, cause]
          cases clic : s.cpuInClicMode with
          | false => rfl
          | true => simp [(clicCause clic).2]
        priv := restored.trans ((spp_eq_iff H core).mpr exact_.below)
        xie := by
          refine popped.sie.trans ?_
          rw [handled.mstatus]
          exact pushed.spie
        level := by
          intro clic
          refine (popped.sil (clicMode.trans clic)).trans ?_
          rw [cause]
          exact (clicCause clic).1
        xpie := popped.spie
        xpp := by
          refine popped.spp.trans ?_
          unfold leastPriv
          rw [exact_.rvu]
          rfl
        mprv := by
          intro clears
          rw [mprv, if_pos exact_.rvu]
          exact exact_.mprv clears.1
        mprvKept := by
          intro rvu _
          rw [mprv, if_pos rvu]
        others := by
          intro i less notTop outside notMprv
          rw [popped.others i less notTop outside notMprv, handled.mstatus,
            pushed.others i less notTop outside notMprv]
        xcause := by
          intro direct
          refine written.mpr ?_
          have fields := exact_.direct direct
          unfold leastPriv at fields
          rw [exact_.rvu] at fields
          exact fields }

theorem PushedS.tsr (pushed : PushedS H s w t) :
    getField t.mstatus mstatusTsr = getField s.mstatus mstatusTsr := by
  have wide := H.le_xlen
  refine getField_congr (fits H (by decide)) fun i has => ?_
  have place : i = 22 := by
    unfold Field.Has mstatusTsr at has
    simp only at has
    omega
  rw [place]
  refine pushed.others 22 (by omega) (by omega) ?_ (by decide)
  unfold NotInStack TrapMode.stack
  decide

theorem helperSret_refused (since : H.privilegeArchitecture.since110 = true)
    (priv : r.priv = prvS)
    (refusing : ¬(H.rvs = true ∧ getField r.mstatus mstatusTsr = 0 ∧ retpcLegal H r.sepc = true)) :
    helperSret H r = none := by
  unfold helperSret
  split
  · rfl
  next supervisor =>
    split
    · rfl
    · split
      · rfl
      next open_ =>
        have rvs : H.rvs = true := by simpa using supervisor
        have tsrClear : getField r.mstatus mstatusTsr = 0 := by
          rw [since, priv] at open_
          simpa using open_
        have illegal : retpcLegal H r.sepc = false := by
          rw [← Bool.not_eq_true]
          exact fun legal => refusing ⟨rvs, tsrClear, legal⟩
        rw [illegal]
        rfl

theorem helperSret_undone_iff (since : H.privilegeArchitecture.since110 = true)
    (core : mppAllowed H s.priv = true) (pushed : H.rvs = true → PushedS H s w t)
    (handled : Handled .supervisor t r)
    (clicCause : s.cpuInClicMode = true →
      getField w causePil = getField s.mintstatus mintstatusSil ∧ getField w causeInhv = 0) :
    (∃ r', helperSret H r = some r' ∧ Undone H .supervisor s t r') ↔ SupervisorExact H s w := by
  have priv : r.priv = prvS := handled.priv
  have sepc (rvs : H.rvs = true) : r.sepc = s.pc := Eq.trans handled.xepc (pushed rvs).sepc
  have tsr (rvs : H.rvs = true) :
      getField r.mstatus mstatusTsr = getField s.mstatus mstatusTsr := by
    rw [handled.mstatus, (pushed rvs).tsr]
  by_cases returning : H.rvs = true ∧ getField r.mstatus mstatusTsr = 0 ∧ retpcLegal H r.sepc = true
  · obtain ⟨rvs, tsrClear, legal⟩ := returning
    obtain ⟨r', returned, popped⟩ := helperSret_spec since rvs priv tsrClear legal
    simp only [returned, Option.some.injEq, exists_eq_left']
    rw [tsr rvs] at tsrClear
    rw [sepc rvs] at legal
    exact popped.undoes_iff core (pushed rvs) handled rvs tsrClear legal clicCause
  · have refused := helperSret_refused since priv returning
    constructor
    · rintro ⟨_, returned, _⟩
      rw [refused] at returned
      cases returned
    · intro exact_
      refine absurd ⟨exact_.rvs, ?_, ?_⟩ returning
      · rw [tsr exact_.rvs, exact_.tsr]
      · rw [sepc exact_.rvs, exact_.aligned]

/-! ### Every trap -/

def State.pendingCause (H : Hart xlen) (s : State xlen) : BitVec xlen :=
  if s.nmiPending ≠ 0 then H.nmiMcause (lowestBitOf s.nmiPending)
  else s.exceptionIndex.setWidth xlen

/-- When the return undoes the entry. -/
structure UndoneExact (H : Hart xlen) (s : State xlen) : Prop where
  aligned : retpcLegal H s.pc = true
  direct : s.cpuInClicMode = false → getField (s.pendingCause H) causePie = 1 ∧
      getField (s.pendingCause H) causePp = leastPriv H s.trapMode
  nmi : s.nmiPending ≠ 0 → s.cpuInClicMode = true →
    getField (s.pendingCause H) causePie = getField s.mstatus mstatusMie ∧
      (mppAllowed H (getField (s.pendingCause H) causePp) = true →
        getField (s.pendingCause H) causePp = s.priv) ∧
      getField (s.pendingCause H) causePil = getField s.mintstatus mintstatusMil ∧
      (getField (s.pendingCause H) causeInhv = 0 ∨ H.ldpPhys s.pc &&& ~~~1 = s.pc)
  supervisor : s.trapMode = .supervisor →
    H.rvs = true ∧ H.rvu = true ∧ s.priv ≠ prvM ∧ getField s.mstatus mstatusTsr = 0 ∧
      (H.privilegeArchitecture.since112 = true → getField s.mstatus mstatusMprv = 0)

theorem fixedCause_bit (H : Hart xlen) {i : Nat} (above : 27 ≤ i) (below : i < 31) :
    s.fixedCause.getLsbD i = (s.exceptionIndex.setWidth xlen).getLsbD i := by
  have wide := H.le_xlen
  have less : i < xlen := by omega
  unfold State.fixedCause State.bit
  split
  · have notTop : (causeInterrupt : BitVec xlen).getLsbD i = false := by
      unfold causeInterrupt
      rw [getLsbD_shiftLeft, decide_eq_true (show i < xlen - 1 by omega)]
      simp
    have kept : (0x7FFFFFFF : BitVec 32).getLsbD i = true := by
      obtain rfl | rfl | rfl | rfl : i = 27 ∨ i = 28 ∨ i = 29 ∨ i = 30 := by omega
      all_goals decide
    rw [getLsbD_or, notTop, getLsbD_setWidth, getLsbD_setWidth,
      getLsbD_and, kept, Bool.or_false, Bool.and_true]
  · split
    next ecall =>
      -- the numbers of the environment calls are small
      have small (x : BitVec xlen) (less16 : x.toNat < 2 ^ 4) : x.getLsbD i = false := by
        rw [← testBit_toNat]
        exact Nat.testBit_lt_two_pow
          (Nat.lt_of_lt_of_le less16 (Nat.pow_le_pow_right (by decide) (by omega)))
      rw [ecall, small ((8 : BitVec 32).setWidth xlen)]
      · refine small _ ?_
        repeat' split
        all_goals rcases H.xlen_eq with rfl | rfl <;> decide
      · rcases H.xlen_eq with rfl | rfl <;> decide
    · rfl

theorem fixedCause_getField (H : Hart xlen) {f : Field} (above : 27 ≤ f.shift)
    (below : f.shift + f.width ≤ 31) :
    getField s.fixedCause f = getField (s.exceptionIndex.setWidth xlen) f := by
  have wide := H.le_xlen
  refine getField_congr (by omega) fun i has => ?_
  unfold Field.Has at has
  exact fixedCause_bit H (by omega) (by omega)

theorem causeWord_fields (H : Hart xlen) (core : mppAllowed H s.priv = true)
    (clic : s.cpuInClicMode = true) {f g : Field} (lowF : f.shift + f.width ≤ 32)
    (wideF : f.width = 8) (lowG : g.shift + g.width ≤ 32) (single : g.width = 1) :
    getField (s.causeWord (getField s.mintstatus f) (getField s.mstatus g)) causePie =
        getField s.mstatus g ∧
      getField (s.causeWord (getField s.mintstatus f) (getField s.mstatus g)) causePp = s.priv ∧
      getField (s.causeWord (getField s.mintstatus f) (getField s.mstatus g)) causePil =
        getField s.mintstatus f ∧
      getField (s.causeWord (getField s.mintstatus f) (getField s.mstatus g)) causeInhv = 0 := by
  unfold State.causeWord
  rw [if_pos clic]
  refine ⟨?_, ?_, ?_, ?_⟩
  · rw [getField_other H (by decide) (by decide), getField_other H (by decide) (by decide),
      getField_copied H (by decide) lowG single]
  · rw [getField_other H (by decide) (by decide)]
    exact getField_setField_of_lt (fits H (by decide)) (toNat_lt_of_allowed H core)
  · rw [getField_other H (by decide) (by decide), getField_other H (by decide) (by decide),
      getField_other H (by decide) (by decide), getField_copied H (by decide) lowF wideF]
  · exact getField_clear H (by decide) _

theorem machineExact_iff (core : mppAllowed H s.priv = true) (noNmi : s.nmiPending = 0)
    (mode : s.trapMode = .machine) : MachineExact H s s.mcauseWord ↔ UndoneExact H s := by
  have cause : s.pendingCause H = s.exceptionIndex.setWidth xlen := by
    unfold State.pendingCause
    rw [noNmi]
    rfl
  have direct (direct : s.cpuInClicMode = false) : s.mcauseWord = s.fixedCause :=
    causeWord_direct direct _ _
  constructor
  · intro exact_
    refine ⟨exact_.aligned, fun plain => ?_, fun nmi => absurd noNmi nmi, fun other => ?_⟩
    · have fields := exact_.direct plain
      rw [direct plain, fixedCause_getField H (by decide) (by decide),
        fixedCause_getField H (by decide) (by decide), ← cause] at fields
      rw [mode]
      exact fields
    · rw [mode] at other
      cases other
  · intro exact_
    refine ⟨exact_.aligned, fun plain => ?_, fun clic => ?_⟩
    · have fields := exact_.direct plain
      rw [direct plain, fixedCause_getField H (by decide) (by decide),
        fixedCause_getField H (by decide) (by decide), ← cause]
      rw [mode] at fields
      exact fields
    · obtain ⟨pie, pp, pil, inhv⟩ := causeWord_fields H core clic (f := mintstatusMil)
        (g := mstatusMie) (by decide) (by decide) (by decide) (by decide)
      exact ⟨pie, fun _ => pp, pil, Or.inl inhv⟩

theorem nmiExact_iff (nmi : s.nmiPending ≠ 0) :
    MachineExact H s (H.nmiMcause (lowestBitOf s.nmiPending)) ↔ UndoneExact H s := by
  have cause : s.pendingCause H = H.nmiMcause (lowestBitOf s.nmiPending) := if_pos nmi
  have mode : s.trapMode = .machine := if_pos nmi
  rw [← cause]
  constructor
  · intro exact_
    refine ⟨exact_.aligned, fun plain => ?_, fun _ => exact_.clic, fun other => ?_⟩
    · rw [mode]
      exact exact_.direct plain
    · rw [mode] at other
      cases other
  · intro exact_
    refine ⟨exact_.aligned, fun plain => ?_, exact_.nmi nmi⟩
    rw [← mode]
    exact exact_.direct plain

theorem supervisorExact_iff (noNmi : s.nmiPending = 0) (mode : s.trapMode = .supervisor) :
    SupervisorExact H s s.scauseWord ↔ UndoneExact H s := by
  have cause : s.pendingCause H = s.exceptionIndex.setWidth xlen := by
    unfold State.pendingCause
    rw [noNmi]
    rfl
  have direct (direct : s.cpuInClicMode = false) : s.scauseWord = s.fixedCause :=
    causeWord_direct direct _ _
  constructor
  · intro exact_
    refine ⟨exact_.aligned, fun plain => ?_, fun nmi => absurd noNmi nmi, fun _ =>
      ⟨exact_.rvs, exact_.rvu, exact_.below, exact_.tsr, exact_.mprv⟩⟩
    have fields := exact_.direct plain
    rw [direct plain, fixedCause_getField H (by decide) (by decide),
      fixedCause_getField H (by decide) (by decide), ← cause] at fields
    rw [mode]
    exact fields
  · intro exact_
    obtain ⟨rvs, rvu, below, tsr, mprv⟩ := exact_.supervisor mode
    refine ⟨rvs, rvu, below, tsr, exact_.aligned, fun plain => ?_, mprv⟩
    have fields := exact_.direct plain
    rw [direct plain, fixedCause_getField H (by decide) (by decide),
      fixedCause_getField H (by decide) (by decide), ← cause]
    rw [mode] at fields
    exact fields

/-- A trap is undone by the return of its mode, whatever the handler does to the other
registers, under exactly these conditions. -/
theorem undone_iff (H : Hart xlen) (s : State xlen)
    (since : H.privilegeArchitecture.since110 = true) (core : mppAllowed H s.priv = true)
    (pending : s.nmiPending ≠ 0 ∨ s.exceptionIndex ≠ excpNone) :
    ∃ t, doInterrupt H s = some t ∧ ∀ r, Handled s.trapMode t r →
      ((∃ r', xret H s.trapMode r = some r' ∧ Undone H s.trapMode s t r') ↔ UndoneExact H s) := by
  by_cases nmi : s.nmiPending ≠ 0
  · obtain ⟨t, entered, pushed⟩ := doNmi_pushed since core nmi
    have mode : s.trapMode = .machine := if_pos nmi
    refine ⟨t, ?_, fun r handled => ?_⟩
    · unfold doInterrupt
      rw [if_pos nmi, entered]
    · rw [mode] at handled ⊢
      rw [← nmiExact_iff nmi]
      exact helperMret_undone_iff since core pushed handled
  · have noNmi : s.nmiPending = 0 := not_not.mp nmi
    have index : s.exceptionIndex ≠ excpNone := pending.resolve_left nmi
    have mode : s.trapMode = s.entryMode := if_neg nmi
    have split : doInterrupt H s = (if s.entryMode = .machine then s.enterM H (acknowledge H s)
          else s.enterS H (acknowledge H s)).map
          fun t => { t with exceptionIndex := excpNone } := by
      unfold doInterrupt State.takeTrap State.entryMode
      rw [if_neg nmi, if_neg index]
      split <;> rfl
    rw [split]
    cases which : s.entryMode with
    | machine =>
      rw [which] at mode
      obtain ⟨t, entered, pushed⟩ := enterM_pushed (H := H) (s := s) since core (acknowledge H s)
      rw [if_pos rfl, entered, mode]
      refine ⟨_, rfl, fun r handled => ?_⟩
      rw [← machineExact_iff core noNmi mode]
      exact helperMret_undone_iff since core (pushed excpNone) handled
    | supervisor =>
      rw [which] at mode
      obtain ⟨t, entered, pushed⟩ := enterS_pushed (H := H) (s := s) since (acknowledge H s)
      rw [if_neg (by decide), entered, mode]
      refine ⟨_, rfl, fun r handled => ?_⟩
      rw [← supervisorExact_iff noNmi mode]
      refine helperSret_undone_iff since core (fun rvs => pushed rvs excpNone) handled
        fun clic => ?_
      obtain ⟨_, _, pil, inhv⟩ := causeWord_fields H core clic (f := mintstatusSil)
        (g := mstatusSie) (by decide) (by decide) (by decide) (by decide)
      exact ⟨pil, inhv⟩

def clicState : State 64 := { sampleState 2 0 0 with mtvec := 0x80001003 }

/-- Its return undoes it. -/
theorem undone_clic : ∃ t, doInterrupt sampleHart clicState = some t ∧ ∀ r, Handled .machine t r →
      ∃ r', xret sampleHart .machine r = some r' ∧ Undone sampleHart .machine clicState t r' := by
  obtain ⟨t, entered, undone⟩ := undone_iff sampleHart clicState (by decide) (by decide)
    (.inr (by decide))
  refine ⟨t, entered, fun r handled => (undone r handled).mpr ⟨?_, ?_, ?_, ?_⟩⟩
  · decide
  · intro direct
    exact absurd direct (by decide)
  · intro nmi
    exact absurd (show clicState.nmiPending = 0 by decide) nmi
  · intro supervisor
    exact absurd supervisor (by decide)

/-- Outside CLIC mode `mret` sets bit 27 of `mcause`. -/
theorem mret_changes_mcause :
    ¬∀ (H : Hart 64) (s t : State 64), H.privilegeArchitecture.since110 = true →
      mppAllowed H s.priv = true → s.exceptionIndex ≠ excpNone → doInterrupt H s = some t →
      ∃ r', xret H s.trapMode t = some r' ∧ Undone H s.trapMode s t r' := by
  intro undone
  have entered : ∃ t, doInterrupt sampleHart (sampleState 2 0 0) = some t ∧
      ∃ r', helperMret sampleHart t = some r' ∧ t.mcause = 2 ∧ r'.mcause = 0x8000002 := by
    refine ⟨_, rfl, _, rfl, ?_, ?_⟩
    · decide
    · decide
  obtain ⟨t, entered, r', returned, before, after⟩ := entered
  obtain ⟨r'', again, undone⟩ := undone sampleHart (sampleState 2 0 0) t (by decide) (by decide)
    (by decide) entered
  have same : r'' = r' := Option.some.inj (again.symm.trans returned)
  have kept : r'.mcause = t.mcause := same ▸ undone.xcause (by decide)
  rw [before, after] at kept
  exact absurd kept (by decide)

end Tlib.Riscv.Trap
