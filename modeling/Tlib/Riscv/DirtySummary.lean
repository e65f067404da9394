import Tlib.Riscv.TrapReturn

/-!
Contract: the summary of dirty state in `mstatus`.

Owns: the writers of `mstatus.FS`, `mstatus.VS` and `mstatus.XS`, and the runs in which every read
of `SD` is right.
-/

namespace Tlib.Riscv.Trap

open Tlib.Library.BitFields BitVec Option Or

variable {xlen : Nat} {H : Hart xlen} {m m' v : BitVec xlen}

/-! ### Registers -/

structure Units (xlen : Nat) where
  (fflags frm vlenb vstart vxsat vxrm vcsr : BitVec xlen)
  deriving DecidableEq, Repr

structure Core (xlen : Nat) where
  trap : State xlen
  units : Units xlen
  deriving DecidableEq, Repr

/-- The registers whose writes reach `FS`, `VS` or `XS`. -/
inductive Csr where
  | fflags
  | frm
  | fcsr
  | mstatus
  | sstatus
  | vstart
  | vxsat
  | vxrm
  | vcsr
  deriving DecidableEq, Repr

/-- `set_default_mstatus`; `fpu` stands for `RISCV_FEATURE_RVD` or `RISCV_FEATURE_RVF`. -/
def setDefaultMstatus (fpu : Bool) : BitVec xlen :=
  let initial := if fpu then BitVec.ofNat xlen 0x2000 ||| BitVec.ofNat xlen 0x8000 else 0
  setField initial mstatusMpp prvM

def markFsDirty (s : State xlen) : State xlen :=
  { s with mstatus := s.mstatus ||| (mstatusFs.mask xlen ||| mstatusXs.mask xlen) }

/-- What the code of a floating-point load does to `mstatus`. -/
def genFpLoad (s : State xlen) : State xlen :=
  { s with mstatus := s.mstatus ||| mstatusFs.mask xlen }

def helperRaiseIllegalInstruction (s : State xlen) : State xlen :=
  { s with badaddr := s.opcode, exceptionIndex := 2 }

def riscvMstatusFs (s : State xlen) : Bool := s.mstatus &&& mstatusFs.mask xlen ≠ 0

/-- A write of the floating-point unit's registers, with `FS` off an illegal instruction. -/
def writeFloat (c : Core xlen) (units : Units xlen) : Core xlen :=
  if riscvMstatusFs c.trap then ⟨markFsDirty c.trap, units⟩
  else ⟨helperRaiseIllegalInstruction c.trap, c.units⟩

/-- A write of the vector unit's registers, after `validate_vector_state`. -/
def writeVector (c : Core xlen) (units : Units xlen) : Core xlen :=
  if getField c.trap.mstatus mstatusVs = 0 then ⟨helperRaiseIllegalInstruction c.trap, c.units⟩
  else ⟨{ c.trap with mstatus := setField c.trap.mstatus mstatusVs 3 }, units⟩

def csrWriteHelper (H : Hart xlen) (c : Core xlen) (valToWrite : BitVec xlen) : Csr → Core xlen
  | .fflags => writeFloat c { c.units with fflags := valToWrite &&& 0x1f }
  | .frm => writeFloat c { c.units with frm := valToWrite &&& 0x7 }
  | .fcsr =>
    writeFloat c
      { c.units with
        fflags := valToWrite &&& 0x1f
        frm := (valToWrite &&& 0xe0) >>> 5 }
  | .mstatus => { c with trap := writeMstatus H c.trap valToWrite }
  | .sstatus => { c with trap := writeSstatus H c.trap valToWrite }
  | .vstart => writeVector c { c.units with vstart := valToWrite &&& (c.units.vlenb * 8 - 1) }
  | .vxsat =>
    writeVector c
      { c.units with
        vxsat := valToWrite &&& 1
        vcsr := (c.units.vcsr &&& ~~~(1 : BitVec xlen)) ||| (valToWrite &&& 1) }
  | .vxrm =>
    writeVector c
      { c.units with
        vxrm := valToWrite &&& 3
        vcsr := (c.units.vcsr &&& ~~~(6 : BitVec xlen)) ||| ((valToWrite &&& 3) <<< 1) }
  | .vcsr =>
    writeVector c
      { c.units with
        vcsr := valToWrite &&& 7
        vxsat := valToWrite &&& 7 &&& 1
        vxrm := ((valToWrite &&& 7) >>> 1) &&& 3 }

/-- The bits that a read of `sstatus` shows. -/
def sstatusReadMask (H : Hart xlen) : BitVec xlen :=
  ([mstatusSie, mstatusSpie, mstatusUie, mstatusUpie, mstatusSpp, mstatusFs, mstatusXs,
      mstatusSum, mstatusSd xlen] ++
    (if H.privilegeArchitecture.since110 then [mstatusMxr] else []) ++
    (if xlen = 64 then [mstatusUxl] else [])).foldl (fun mask f => mask ||| f.mask xlen) 0

def readMstatus (c : Core xlen) : BitVec xlen := c.trap.mstatus

def readSstatus (H : Hart xlen) (c : Core xlen) : BitVec xlen :=
  c.trap.mstatus &&& sstatusReadMask H

/-! ### Runs -/

inductive Action (xlen : Nat) where
  | csrWrite (csr : Csr) (valToWrite : BitVec xlen)
  | markFsDirty
  | fpLoad
  | doInterrupt
  | xret (m : TrapMode)
  | elsewhere (c : Core xlen)

def Action.apply (H : Hart xlen) (c : Core xlen) : Action xlen → Option (Core xlen)
  | .csrWrite csr valToWrite => some (csrWriteHelper H c valToWrite csr)
  | .markFsDirty => some { c with trap := Trap.markFsDirty c.trap }
  | .fpLoad => some { c with trap := genFpLoad c.trap }
  | .doInterrupt => (Trap.doInterrupt H c.trap).map fun s => { c with trap := s }
  | .xret m => (Trap.xret H m c.trap).map fun s => { c with trap := s }
  | .elsewhere c' => if c'.trap.mstatus = c.trap.mstatus then some c' else none

/-- The runs from `c` whose steps are all permitted. -/
inductive Runs (H : Hart xlen) (permitted : Core xlen → Action xlen → Prop) (c : Core xlen) :
    Core xlen → Prop where
  | start : Runs H permitted c c
  | step {c' c'' : Core xlen} (before : Runs H permitted c c') (a : Action xlen)
      (allowed : permitted c' a) (next : a.apply H c' = some c'') : Runs H permitted c c''

/-- The value of `mstatus` after a reset. -/
def AtReset (c : Core xlen) : Prop := ∃ fpu : Bool, c.trap.mstatus = setDefaultMstatus fpu

/-- `SD` of the value is set if and only if one of its unit fields is dirty. -/
def Summarises (value : BitVec xlen) : Prop :=
  value.getLsbD (xlen - 1) = true ↔
    getField value mstatusFs = 3 ∨ getField value mstatusVs = 3 ∨ getField value mstatusXs = 3

def ReadsSummarise (H : Hart xlen) (c : Core xlen) : Prop :=
  Summarises (readMstatus c) ∧ Summarises (readSstatus H c)

/-- The writer does not leave a dirty unit that `SD` misses. -/
def Permitted (c : Core xlen) : Action xlen → Prop
  | .csrWrite .mstatus v =>
    getField v mstatusVs = 3 → getField v mstatusFs = 3 ∨ getField c.trap.mstatus mstatusXs = 3
  | .csrWrite .sstatus v =>
    getField c.trap.mstatus mstatusVs = 3 →
      getField v mstatusFs = 3 ∨ getField c.trap.mstatus mstatusXs = 3
  | .csrWrite .fflags _ | .csrWrite .frm _ | .csrWrite .fcsr _ =>
    getField c.trap.mstatus mstatusFs ≠ 0 → dirtyBit c.trap.mstatus = true
  | .csrWrite .vstart _ | .csrWrite .vxsat _ | .csrWrite .vxrm _ | .csrWrite .vcsr _ =>
    getField c.trap.mstatus mstatusVs ≠ 0 → dirtyBit c.trap.mstatus = true
  | .markFsDirty | .fpLoad => dirtyBit c.trap.mstatus = true
  | .doInterrupt | .xret _ | .elsewhere _ => True

/-! ### What the reads show -/

/-- `SD` sums up `FS` and `XS`, and `VS` is dirty only with one of them. -/
structure Exact (m : BitVec xlen) : Prop where
  sd : m.getLsbD (xlen - 1) = dirtyBit m
  vector : getField m mstatusVs = 3 → dirtyBit m = true

theorem dirtyBit_iff : dirtyBit m = true ↔ getField m mstatusFs = 3 ∨ getField m mstatusXs = 3 := by
  unfold dirtyBit
  simp

theorem sstatusReadMask_bits (H : Hart xlen) :
    (∀ i ∈ [13, 14, 15, 16, xlen - 1], (sstatusReadMask H).getLsbD i = true) ∧
      ∀ i ∈ [9, 10], (sstatusReadMask H).getLsbD i = false := by
  unfold sstatusReadMask
  rcases H.xlen_eq with rfl | rfl
  · cases H.privilegeArchitecture.since110 <;> decide
  · cases H.privilegeArchitecture.since110 <;> decide

theorem getField_readSstatus {f : Field} (H : Hart xlen) (c : Core xlen)
    (low : f.shift + f.width ≤ 32)
    (shown : ∀ i, f.Has i → (sstatusReadMask H).getLsbD i = true) :
    getField (readSstatus H c) f = getField c.trap.mstatus f := by
  refine getField_congr (fits H low) fun i has => ?_
  unfold readSstatus
  rw [getLsbD_and, shown i has, Bool.and_true]

theorem three_ne_zero (H : Hart xlen) : (3 : BitVec xlen) ≠ 0 := by
  rcases H.xlen_eq with rfl | rfl <;> decide

theorem readsSummarise_iff (H : Hart xlen) (c : Core xlen) :
    ReadsSummarise H c ↔ Exact c.trap.mstatus := by
  have wide := H.le_xlen
  obtain ⟨shown, hidden⟩ := sstatusReadMask_bits H
  have fs : getField (readSstatus H c) mstatusFs = getField c.trap.mstatus mstatusFs := by
    refine getField_readSstatus H c (by decide) fun i has => shown i ?_
    unfold Field.Has mstatusFs at has
    simp only at has
    have place : i = 13 ∨ i = 14 := by omega
    rcases place with rfl | rfl <;> simp
  have xs : getField (readSstatus H c) mstatusXs = getField c.trap.mstatus mstatusXs := by
    refine getField_readSstatus H c (by decide) fun i has => shown i ?_
    unfold Field.Has mstatusXs at has
    simp only at has
    have place : i = 15 ∨ i = 16 := by omega
    rcases place with rfl | rfl <;> simp
  have vs : getField (readSstatus H c) mstatusVs = 0 := by
    apply eq_of_bits
    intro i _
    rw [getLsbD_getField (fits H (by decide))]
    by_cases inside : i < mstatusVs.width
    · have place : mstatusVs.shift + i ∈ [9, 10] := by
        unfold mstatusVs at inside ⊢
        simp only at inside ⊢
        have : i = 0 ∨ i = 1 := by omega
        rcases this with rfl | rfl <;> simp
      unfold readSstatus
      rw [getLsbD_and, hidden _ place]
      simp
    · simp [inside]
  have sd : (readSstatus H c).getLsbD (xlen - 1) = c.trap.mstatus.getLsbD (xlen - 1) := by
    unfold readSstatus
    rw [getLsbD_and, shown _ (by simp), Bool.and_true]
  have clean : ¬(0 : BitVec xlen) = 3 := fun equal => three_ne_zero H equal.symm
  unfold ReadsSummarise Summarises readMstatus
  rw [fs, vs, xs, sd]
  constructor
  · rintro ⟨machine, supervisor⟩
    have summary : c.trap.mstatus.getLsbD (xlen - 1) = dirtyBit c.trap.mstatus := by
      rw [Bool.eq_iff_iff, supervisor, dirtyBit_iff]
      simp only [clean, false_or]
    refine ⟨summary, fun dirty => ?_⟩
    rw [← summary]
    exact machine.mpr (inr (inl dirty))
  · intro exact_
    rw [exact_.sd, dirtyBit_iff]
    refine ⟨⟨fun dirty => ?_, fun dirty => ?_⟩, by simp only [clean, false_or]⟩
    · rcases dirty with fs | xs
      · exact inl fs
      · exact inr (inr xs)
    · rcases dirty with fs | vs | xs
      · exact inl fs
      · exact dirtyBit_iff.mp (exact_.vector vs)
      · exact inr xs

/-! ### Writes of `mstatus` -/

def unitFields : List Field := [mstatusFs, mstatusVs, mstatusXs]

theorem unitFields_place {f : Field} (unit : f ∈ unitFields) :
    9 ≤ f.shift ∧ f.shift + f.width ≤ 17 ∧ f.Disjoint mstatusMpp := by
  unfold unitFields at unit
  simp only [List.mem_cons, List.not_mem_nil, or_false] at unit
  rcases unit with rfl | rfl | rfl <;> decide

/-- `m'` has the units of `m`, and a summary if `m` has one. -/
structure Recomputed (m m' : BitVec xlen) : Prop where
  units : ∀ f ∈ unitFields, getField m' f = getField m f
  sd : m.getLsbD (xlen - 1) = dirtyBit m → m'.getLsbD (xlen - 1) = dirtyBit m'

theorem Recomputed.refl (m : BitVec xlen) : Recomputed m m := ⟨fun _ _ => rfl, fun sd => sd⟩

theorem Recomputed.trans {n : BitVec xlen} (first : Recomputed m m') (second : Recomputed m' n) :
    Recomputed m n :=
  ⟨fun f unit => (second.units f unit).trans (first.units f unit),
    fun sd => second.sd (first.sd sd)⟩

theorem Recomputed.dirtyBit_eq (recomputed : Recomputed m m') : dirtyBit m' = dirtyBit m := by
  unfold dirtyBit
  rw [recomputed.units mstatusFs (by simp [unitFields]),
    recomputed.units mstatusXs (by simp [unitFields])]

theorem Recomputed.exact (recomputed : Recomputed m m') (exact_ : Exact m) : Exact m' := by
  refine ⟨recomputed.sd exact_.sd, fun dirty => ?_⟩
  rw [recomputed.units mstatusVs (by simp [unitFields])] at dirty
  rw [recomputed.dirtyBit_eq]
  exact exact_.vector dirty

theorem recomputed_written (H : Hart xlen)
    (agree : ∀ f ∈ unitFields, ∀ i, f.Has i → v.getLsbD i = m.getLsbD i) :
    Recomputed m (withDirty (mstatusStored H m v)) := by
  have writes := written_withDirty H m v
  have wide := H.le_xlen
  refine ⟨fun f unit => ?_, fun _ => writes.settled.sd⟩
  obtain ⟨_, below, apart⟩ := unitFields_place unit
  refine getField_congr (by omega) fun i has => ?_
  have same := agree f unit i has
  unfold Field.Disjoint at apart
  unfold Field.Has at has
  refine writes.others i (by omega) (by omega) ?_ ?_ same
  · unfold Field.Has
    omega
  · unfold Field.Has mstatusMprv
    simp only
    omega

theorem agree_setField {f : Field} (H : Hart xlen) {val : BitVec xlen} {g : Field}
    (unit : f ∈ unitFields) (apart : f.Disjoint g)
    (agree : ∀ i, f.Has i → v.getLsbD i = m.getLsbD i) :
    ∀ i, f.Has i → (setField v g val).getLsbD i = m.getLsbD i := by
  intro i has
  have wide := H.le_xlen
  have place := unitFields_place unit
  have inside := has
  unfold Field.Has at inside
  unfold Field.Disjoint at apart
  rw [setField_of_not_has (by omega), agree i has]
  unfold Field.Has
  omega

theorem agree_stack {f : Field} (H : Hart xlen) {val : BitVec xlen} {g : Field}
    (unit : f ∈ unitFields)
    (stack : g.shift + g.width ≤ 9 ∨ 17 ≤ g.shift ∨ g = mstatusMpp)
    (agree : ∀ i, f.Has i → v.getLsbD i = m.getLsbD i) :
    ∀ i, f.Has i → (setField v g val).getLsbD i = m.getLsbD i := by
  obtain ⟨above, below, apart⟩ := unitFields_place unit
  refine agree_setField H unit ?_ agree
  rcases stack with low | high | rfl
  · unfold Field.Disjoint
    omega
  · unfold Field.Disjoint
    omega
  · exact apart

variable {s t : State xlen}

theorem writeMstatus_recomputed (H : Hart xlen)
    (agree : ∀ f ∈ unitFields, ∀ i, f.Has i → v.getLsbD i = s.mstatus.getLsbD i) :
    Recomputed s.mstatus (writeMstatus H s v).mstatus := recomputed_written H agree

theorem writeSstatus_recomputed (H : Hart xlen)
    (agree : ∀ f ∈ unitFields, ∀ i, f.Has i → v.getLsbD i = s.mstatus.getLsbD i) :
    Recomputed s.mstatus (writeSstatus H s v).mstatus := by
  refine writeMstatus_recomputed H fun f unit i has => ?_
  have wide := H.le_xlen
  have place := unitFields_place unit
  have inside := has
  unfold Field.Has at inside
  have less : i < xlen := by omega
  simp only [getLsbD_or, getLsbD_and, getLsbD_not, less, decide_true,
    Bool.true_and, agree f unit i has]
  cases s.mstatus.getLsbD i <;> simp

theorem writeMcause_recomputed (H : Hart xlen) :
    Recomputed s.mstatus (writeMcause H s v).mstatus := by
  unfold writeMcause
  simp only
  split
  next clic =>
    refine recomputed_written H fun f unit => ?_
    refine agree_stack H unit (inl (by decide)) ?_
    exact agree_stack H unit (inr (inr rfl)) fun _ _ => rfl
  next direct => exact Recomputed.refl _

/-! ### Traps and returns -/

theorem riscvSetMode_mstatus {priv : BitVec xlen} (entered : riscvSetMode s priv = some t) :
    t.mstatus = s.mstatus := by
  unfold riscvSetMode at entered
  split at entered
  · cases entered
  · cases entered
    rfl

theorem agree_pushM (H : Hart xlen) (f : Field) (unit : f ∈ unitFields) :
    ∀ i, f.Has i → (s.pushM H).getLsbD i = s.mstatus.getLsbD i := by
  refine agree_stack H unit (inr (inr rfl)) ?_
  refine agree_stack H unit (inl (by decide)) ?_
  exact agree_stack H unit (inl (by decide)) fun _ _ => rfl

theorem agree_pushS (H : Hart xlen) (f : Field) (unit : f ∈ unitFields) :
    ∀ i, f.Has i → (s.pushS H).getLsbD i = s.mstatus.getLsbD i := by
  refine agree_stack H unit (inl (by decide)) ?_
  refine agree_stack H unit (inl (by decide)) ?_
  exact agree_stack H unit (inl (by decide)) fun _ _ => rfl

theorem agree_pushNmi (H : Hart xlen) (f : Field) (unit : f ∈ unitFields) :
    ∀ i, f.Has i → (s.pushNmi H).getLsbD i = s.mstatus.getLsbD i := by
  refine agree_stack H unit (inl (by decide)) ?_
  refine agree_stack H unit (inr (inr rfl)) ?_
  exact agree_stack H unit (inl (by decide)) fun _ _ => rfl

theorem raiseLevel_mstatus (isInterrupt : Bool) (level : Field) :
    (s.raiseLevel isInterrupt level).mstatus = s.mstatus := by
  rw [raiseLevel_eq]

theorem enterM_recomputed (H : Hart xlen) {clic : ClicInterrupt}
    (entered : s.enterM H clic = some t) : Recomputed s.mstatus t.mstatus := by
  rw [riscvSetMode_mstatus entered, raiseLevel_mstatus]
  refine Recomputed.trans ?_ (writeMcause_recomputed H)
  exact writeMstatus_recomputed (s := s.saveM H clic) H (agree_pushM H)

theorem enterS_recomputed (H : Hart xlen) {clic : ClicInterrupt}
    (entered : s.enterS H clic = some t) : Recomputed s.mstatus t.mstatus := by
  rw [riscvSetMode_mstatus entered, raiseLevel_mstatus]
  exact writeSstatus_recomputed (s := s.saveS H clic) H (agree_pushS H)

theorem doNmi_recomputed (H : Hart xlen) (done : doNmi H s = some t) :
    Recomputed s.mstatus t.mstatus := by
  unfold doNmi at done
  split at done
  · cases done
    exact Recomputed.refl _
  · simp only [map_eq_some_iff] at done
    obtain ⟨u, mode, rfl⟩ := done
    have first := writeMstatus_recomputed (s := s) H (agree_pushNmi H)
    rw [← riscvSetMode_mstatus mode] at first
    exact first.trans (writeMcause_recomputed H)

theorem doInterrupt_recomputed (H : Hart xlen) (done : doInterrupt H s = some t) :
    Recomputed s.mstatus t.mstatus := by
  unfold doInterrupt at done
  split at done
  · exact doNmi_recomputed H done
  · split at done
    · cases done
      exact Recomputed.refl _
    · simp only [map_eq_some_iff] at done
      obtain ⟨u, taken, rfl⟩ := done
      have kept : Recomputed s.mstatus u.mstatus := by
        unfold State.takeTrap at taken
        split at taken
        · exact enterM_recomputed H taken
        · exact enterS_recomputed H taken
      exact kept

theorem enableField_low (H : Hart xlen) {f g : Field} (xie : g.shift + g.width ≤ 9)
    (narrow : f.width ≤ 2) (low : f.shift + f.width ≤ 32) (reg : BitVec xlen) :
    (enableField H g (getField reg f)).shift + (enableField H g (getField reg f)).width ≤ 9 := by
  unfold enableField
  split
  · exact xie
  · have small := @toNat_getField_lt _ _ reg (fits H low)
    have four : 2 ^ f.width ≤ 2 ^ 2 := Nat.pow_le_pow_right (by decide) narrow
    simp only
    omega

theorem agree_popM (H : Hart xlen) (f : Field) (unit : f ∈ unitFields) :
    ∀ i, f.Has i → (popM H m).getLsbD i = m.getLsbD i := by
  have popped : ∀ i, f.Has i → (setField (setField (setField m
      (enableField H mstatusMie (getField m mstatusMpp)) (getField m mstatusMpie))
      mstatusMpie 1) mstatusMpp (lowestPriv H)).getLsbD i = m.getLsbD i := by
    refine agree_stack H unit (inr (inr rfl)) ?_
    refine agree_stack H unit (inl (by decide)) ?_
    refine agree_stack H unit (inl ?_) fun _ _ => rfl
    exact enableField_low H (by decide) (by decide) (by decide) m
  unfold popM
  simp only
  split
  · exact agree_stack H unit (inr (inl (by decide))) popped
  · exact popped

theorem agree_popS (H : Hart xlen) (f : Field) (unit : f ∈ unitFields) :
    ∀ i, f.Has i → (popS H m).getLsbD i = m.getLsbD i := by
  have popped : ∀ i, f.Has i → (setField (setField (setField m
      (enableField H mstatusSie (getField m mstatusSpp)) (getField m mstatusSpie))
      mstatusSpie 1) mstatusSpp prvU).getLsbD i = m.getLsbD i := by
    refine agree_stack H unit (inl (by decide)) ?_
    refine agree_stack H unit (inl (by decide)) ?_
    refine agree_stack H unit (inl ?_) fun _ _ => rfl
    exact enableField_low H (by decide) (by decide) (by decide) m
  unfold popS
  simp only
  split
  · exact agree_stack H unit (inr (inl (by decide))) popped
  · exact popped

theorem restoreMil_mstatus : (restoreMil s).mstatus = s.mstatus := by
  unfold restoreMil
  split <;> rfl

theorem restoreSil_mstatus : (restoreSil s).mstatus = s.mstatus := by
  unfold restoreSil
  split <;> rfl

theorem helperMret_recomputed (H : Hart xlen) (done : helperMret H s = some t) :
    Recomputed s.mstatus t.mstatus := by
  unfold helperMret at done
  split at done
  · cases done
  · split at done
    · cases done
    · simp only [map_eq_some_iff] at done
      obtain ⟨u, mode, rfl⟩ := done
      have kept := riscvSetMode_mstatus mode
      unfold leave
      rw [restoreMil_mstatus, ← kept]
      exact (writeMstatus_recomputed H (agree_popM H)).trans (writeMcause_recomputed H)

theorem helperSret_recomputed (H : Hart xlen) (done : helperSret H s = some t) :
    Recomputed s.mstatus t.mstatus := by
  unfold helperSret at done
  split at done
  · cases done
  split at done
  · cases done
  split at done
  · cases done
  split at done
  · cases done
  simp only [map_eq_some_iff] at done
  obtain ⟨u, mode, rfl⟩ := done
  have kept := riscvSetMode_mstatus mode
  unfold leave
  rw [restoreSil_mstatus, ← kept]
  exact writeSstatus_recomputed H (agree_popS H)

theorem xret_recomputed (H : Hart xlen) {mode : TrapMode} (done : xret H mode s = some t) :
    Recomputed s.mstatus t.mstatus := by
  cases mode with
  | machine => exact helperMret_recomputed H done
  | supervisor => exact helperSret_recomputed H done

/-! ### Steps -/

theorem mstatusMask_xs (H : Hart xlen) {i : Nat} (has : mstatusXs.Has i) :
    (mstatusMask H v).getLsbD i = false := by
  have wide := H.le_xlen
  unfold Field.Has mstatusXs at has
  simp only at has
  have place : i = 15 ∨ i = 16 := by omega
  unfold mstatusMask
  rw [getLsbD_masks _ _ (by omega)]
  generalize H.rvs = rvs
  generalize H.privilegeArchitecture.since110 = since
  generalize validateVm H (getField v mstatusVm) = vm
  rcases H.xlen_eq with rfl | rfl
  · rcases place with rfl | rfl <;> cases rvs <;> cases since <;> cases vm <;> decide
  · rcases place with rfl | rfl <;> cases rvs <;> cases since <;> cases vm <;> decide

theorem written_units (H : Hart xlen) (m v : BitVec xlen) :
    getField (withDirty (mstatusStored H m v)) mstatusFs = getField v mstatusFs ∧
      getField (withDirty (mstatusStored H m v)) mstatusVs = getField v mstatusVs ∧
      getField (withDirty (mstatusStored H m v)) mstatusXs = getField m mstatusXs := by
  have wide := H.le_xlen
  refine ⟨?_, ?_, ?_⟩
  · refine written_getField H (by decide) (by decide) (by decide) fun i has less => ?_
    exact mstatusMask_always (f := mstatusFs) (by simp) has less
  · refine written_getField H (by decide) (by decide) (by decide) fun i has less => ?_
    exact mstatusMask_always (f := mstatusVs) (by simp) has less
  · rw [withDirty_getField (by decide) H]
    refine getField_congr (fits H (by decide)) fun i has => ?_
    have hidden := mstatusMask_xs (v := v) H has
    unfold Field.Has mstatusXs at has
    simp only at has
    rw [mstatusStored_bit (by omega), if_pos hidden]

theorem written_exact_iff (H : Hart xlen) (m v : BitVec xlen) :
    Exact (withDirty (mstatusStored H m v)) ↔
      (getField v mstatusVs = 3 → getField v mstatusFs = 3 ∨ getField m mstatusXs = 3) := by
  have settled := (written_withDirty H m v).settled
  obtain ⟨fs, vs, xs⟩ := written_units H m v
  constructor
  · intro exact_ dirty
    rw [← vs] at dirty
    have summed := dirtyBit_iff.mp (exact_.vector dirty)
    rwa [fs, xs] at summed
  · intro covered
    refine ⟨settled.sd, fun dirty => ?_⟩
    rw [dirtyBit_iff, fs, xs]
    rw [vs] at dirty
    exact covered dirty

theorem sstatus_units (H : Hart xlen) (m v : BitVec xlen) :
    getField ((m &&& ~~~sstatusMask) ||| (v &&& sstatusMask)) mstatusFs = getField v mstatusFs ∧
      getField ((m &&& ~~~sstatusMask) ||| (v &&& sstatusMask)) mstatusVs =
        getField m mstatusVs := by
  have wide := H.le_xlen
  have bits : (∀ i ∈ [13, 14], (sstatusMask : BitVec xlen).getLsbD i = true) ∧
      ∀ i ∈ [9, 10], (sstatusMask : BitVec xlen).getLsbD i = false := by
    rcases H.xlen_eq with rfl | rfl <;> decide
  constructor
  · refine getField_congr (fits H (by decide)) fun i has => ?_
    unfold Field.Has mstatusFs at has
    simp only at has
    have less : i < xlen := by omega
    have place : i = 13 ∨ i = 14 := by omega
    have shown := bits.1 i (by rcases place with rfl | rfl <;> simp)
    simp only [getLsbD_or, getLsbD_and, getLsbD_not, less, decide_true,
      shown, Bool.not_true, Bool.and_false, Bool.false_or, Bool.and_true]
  · refine getField_congr (fits H (by decide)) fun i has => ?_
    unfold Field.Has mstatusVs at has
    simp only at has
    have less : i < xlen := by omega
    have place : i = 9 ∨ i = 10 := by omega
    have hidden := bits.2 i (by rcases place with rfl | rfl <;> simp)
    simp only [getLsbD_or, getLsbD_and, getLsbD_not, less, decide_true,
      hidden, Bool.not_false, Bool.and_true, Bool.and_false, Bool.or_false]

theorem exact_iff_of_dirty (before : Exact m) (sd : m'.getLsbD (xlen - 1) = m.getLsbD (xlen - 1))
    (dirty : Exact m' → dirtyBit m' = true)
    (summed : dirtyBit m = true → dirtyBit m' = true) :
    Exact m' ↔ dirtyBit m = true := by
  constructor
  · intro after
    rw [← before.sd, ← sd, after.sd]
    exact dirty after
  · intro covered
    refine ⟨?_, fun _ => summed covered⟩
    rw [sd, before.sd, covered, summed covered]

theorem or_mask_full (H : Hart xlen) {f : Field} (low : f.shift + f.width ≤ 32)
    (two : f.width = 2) (within : ∀ i, f.Has i → v.getLsbD i = true) :
    getField (m ||| v) f = 3 := by
  have wide := H.le_xlen
  apply eq_of_bits
  intro i less
  have three : (3 : BitVec xlen).getLsbD i = decide (i < 2) := by
    rw [show (3 : BitVec xlen) = BitVec.ofNat xlen (2 ^ 2 - 1) from rfl, getLsbD_ofNat,
      Nat.testBit_two_pow_sub_one, decide_eq_true less, Bool.true_and]
  rw [getLsbD_getField (fits H low), three, two]
  by_cases inside : i < 2
  · rw [getLsbD_or, within (f.shift + i) ⟨by omega, by omega⟩]
    simp
  · simp [inside]

theorem markDirty_exact_iff (H : Hart xlen) (fields : BitVec xlen) (before : Exact m)
    (outside : fields.getLsbD (xlen - 1) = false)
    (within : ∀ i, mstatusFs.Has i → fields.getLsbD i = true) :
    Exact (m ||| fields) ↔ dirtyBit m = true := by
  have wide := H.le_xlen
  have full : getField (m ||| fields) mstatusFs = 3 := or_mask_full H (by decide) rfl within
  have dirty : dirtyBit (m ||| fields) = true := dirtyBit_iff.mpr (inl full)
  refine exact_iff_of_dirty before ?_ (fun _ => dirty) fun _ => dirty
  rw [getLsbD_or, outside, Bool.or_false]

theorem fsMask_bits (H : Hart xlen) : (mstatusFs.mask xlen).getLsbD (xlen - 1) = false ∧
      ∀ i, mstatusFs.Has i → (mstatusFs.mask xlen).getLsbD i = true := by
  have wide := H.le_xlen
  constructor
  · rw [getLsbD_mask (by omega)]
    refine decide_eq_false ?_
    unfold Field.Has mstatusFs
    simp only
    omega
  · intro i has
    have less : i < xlen := by
      unfold Field.Has mstatusFs at has
      simp only at has
      omega
    rw [getLsbD_mask less]
    exact decide_eq_true has

theorem markFsDirty_exact_iff (H : Hart xlen) (s : State xlen) (before : Exact s.mstatus) :
    Exact (markFsDirty s).mstatus ↔ dirtyBit s.mstatus = true := by
  have wide := H.le_xlen
  obtain ⟨outside, within⟩ := fsMask_bits H
  refine markDirty_exact_iff H _ before ?_ fun i has => ?_
  · rw [getLsbD_or, outside, Bool.false_or, getLsbD_mask (by omega)]
    refine decide_eq_false ?_
    unfold Field.Has mstatusXs
    simp only
    omega
  · rw [getLsbD_or, within i has, Bool.true_or]

theorem genFpLoad_exact_iff (H : Hart xlen) (s : State xlen) (before : Exact s.mstatus) :
    Exact (genFpLoad s).mstatus ↔ dirtyBit s.mstatus = true := by
  obtain ⟨outside, within⟩ := fsMask_bits H
  exact markDirty_exact_iff H _ before outside within

theorem setVs_exact_iff (H : Hart xlen) (before : Exact m) :
    Exact (setField m mstatusVs 3) ↔ dirtyBit m = true := by
  have wide := H.le_xlen
  have full : getField (setField m mstatusVs 3) mstatusVs = 3 := by
    refine getField_setField_of_lt (fits H (by decide)) ?_
    rcases H.xlen_eq with rfl | rfl <;> decide
  have same : dirtyBit (setField m mstatusVs 3) = dirtyBit m := by
    unfold dirtyBit
    rw [getField_other H (by decide) (by decide), getField_other H (by decide) (by decide)]
  have sd : (setField m mstatusVs 3).getLsbD (xlen - 1) = m.getLsbD (xlen - 1) := by
    refine setField_of_not_has (by omega) ?_
    unfold Field.Has mstatusVs
    simp only
    omega
  refine exact_iff_of_dirty before sd (fun after => after.vector full) fun covered => ?_
  rw [same, covered]

theorem riscvMstatusFs_iff (s : State xlen) (H : Hart xlen) :
    riscvMstatusFs s = true ↔ getField s.mstatus mstatusFs ≠ 0 := by
  unfold riscvMstatusFs
  rw [decide_eq_true_eq]
  have wide := H.le_xlen
  have bits (i : Nat) (less : i < xlen) : (s.mstatus &&& mstatusFs.mask xlen).getLsbD i =
      (s.mstatus.getLsbD i && decide (mstatusFs.Has i)) := by
    rw [getLsbD_and, getLsbD_mask less]
  rw [ne_zero_iff, ne_zero_iff]
  constructor
  · rintro ⟨i, less, set⟩
    rw [bits i less] at set
    simp only [Bool.and_eq_true, decide_eq_true_eq] at set
    have has := set.2
    unfold Field.Has at has
    refine ⟨i - mstatusFs.shift, by omega, ?_⟩
    rw [getLsbD_getField (fits H (by decide)), Nat.add_sub_cancel' has.1, set.1]
    simp only [Bool.and_true, decide_eq_true_eq]
    omega
  · rintro ⟨i, less, set⟩
    rw [getLsbD_getField (fits H (by decide))] at set
    simp only [Bool.and_eq_true, decide_eq_true_eq] at set
    have inside := set.1
    unfold mstatusFs at inside
    simp only at inside
    refine ⟨mstatusFs.shift + i, by unfold mstatusFs; simp only; omega, ?_⟩
    rw [bits _ (by unfold mstatusFs; simp only; omega), set.2]
    simp only [Bool.true_and, decide_eq_true_eq]
    unfold Field.Has mstatusFs
    simp only
    omega

theorem writeFloat_exact_iff (H : Hart xlen) (c : Core xlen) (units : Units xlen)
    (before : Exact c.trap.mstatus) :
    Exact (writeFloat c units).trap.mstatus ↔
      (getField c.trap.mstatus mstatusFs ≠ 0 → dirtyBit c.trap.mstatus = true) := by
  unfold writeFloat
  rw [← riscvMstatusFs_iff c.trap H]
  split
  next on =>
    rw [markFsDirty_exact_iff H c.trap before]
    exact ⟨fun dirty _ => dirty, fun covered => covered on⟩
  next off => exact ⟨fun _ on => absurd on off, fun _ => before⟩

theorem writeVector_exact_iff (H : Hart xlen) (c : Core xlen) (units : Units xlen)
    (before : Exact c.trap.mstatus) :
    Exact (writeVector c units).trap.mstatus ↔
      (getField c.trap.mstatus mstatusVs ≠ 0 → dirtyBit c.trap.mstatus = true) := by
  unfold writeVector
  split
  next off => exact ⟨fun _ on => absurd off on, fun _ => before⟩
  next on =>
    rw [setVs_exact_iff H before]
    exact ⟨fun dirty _ => dirty, fun covered => covered on⟩

theorem apply_exact_iff (H : Hart xlen) {c c' : Core xlen} (a : Action xlen)
    (before : Exact c.trap.mstatus) (next : a.apply H c = some c') :
    Exact c'.trap.mstatus ↔ Permitted c a := by
  cases a with
  | csrWrite csr v =>
    cases next
    cases csr with
    | mstatus => exact written_exact_iff H _ v
    | sstatus =>
      refine (written_exact_iff H _ _).trans ?_
      obtain ⟨fs, vs⟩ := sstatus_units H c.trap.mstatus v
      rw [fs, vs]
      exact Iff.rfl
    | fflags => exact writeFloat_exact_iff H c _ before
    | frm => exact writeFloat_exact_iff H c _ before
    | fcsr => exact writeFloat_exact_iff H c _ before
    | vstart => exact writeVector_exact_iff H c _ before
    | vxsat => exact writeVector_exact_iff H c _ before
    | vxrm => exact writeVector_exact_iff H c _ before
    | vcsr => exact writeVector_exact_iff H c _ before
  | markFsDirty =>
    cases next
    exact markFsDirty_exact_iff H c.trap before
  | fpLoad =>
    cases next
    exact genFpLoad_exact_iff H c.trap before
  | doInterrupt =>
    simp only [Action.apply, map_eq_some_iff] at next
    obtain ⟨t, done, rfl⟩ := next
    exact iff_of_true ((doInterrupt_recomputed H done).exact before) trivial
  | xret mode =>
    simp only [Action.apply, map_eq_some_iff] at next
    obtain ⟨t, done, rfl⟩ := next
    exact iff_of_true ((xret_recomputed H done).exact before) trivial
  | elsewhere other =>
    by_cases same : other.trap.mstatus = c.trap.mstatus
    · rw [show Action.apply H c (.elsewhere other) = some other from if_pos same] at next
      cases next
      refine iff_of_true ?_ trivial
      rw [same]
      exact before
    · rw [show Action.apply H c (.elsewhere other) = none from if_neg same] at next
      cases next

/-! ### Runs from a reset -/

theorem atReset_exact (H : Hart xlen) {c : Core xlen} (reset : AtReset c) :
    Exact c.trap.mstatus := by
  obtain ⟨fpu, value⟩ := reset
  rw [value]
  rcases H.xlen_eq with rfl | rfl
  · cases fpu
    · exact ⟨by decide, by decide⟩
    · exact ⟨by decide, by decide⟩
  · cases fpu
    · exact ⟨by decide, by decide⟩
    · exact ⟨by decide, by decide⟩

theorem Runs.exact (H : Hart xlen) {c c' : Core xlen} (reset : AtReset c)
    (run : Runs H Permitted c c') : Exact c'.trap.mstatus := by
  induction run with
  | start => exact atReset_exact H reset
  | step before a allowed next ih => exact (apply_exact_iff H a ih next).mpr allowed

/-- In every run whose writers leave no dirty unit that `SD` misses, every read shows the
summary; and a step from such a state that is not permitted loses it. -/
theorem readsSummarise_of_permitted (H : Hart xlen) {c c' : Core xlen} (reset : AtReset c)
    (run : Runs H Permitted c c') :
    ReadsSummarise H c' ∧ ∀ (a : Action xlen) (c'' : Core xlen), a.apply H c' = some c'' →
        (ReadsSummarise H c'' ↔ Permitted c' a) := by
  have summed := run.exact H reset
  refine ⟨(readsSummarise_iff H c').mpr summed, fun a c'' next => ?_⟩
  rw [readsSummarise_iff]
  exact apply_exact_iff H a summed next

def resetCore : Core 64 where
  trap := { sampleState excpNone 0 0 with mstatus := setDefaultMstatus true }
  units := ⟨0, 0, 64, 0, 0, 0, 0⟩

/-- `mstatus.FS` is written as dirty, and then a floating-point instruction is executed. -/
theorem readsSummarise_written :
    ReadsSummarise sampleHart ⟨markFsDirty (writeMstatus sampleHart resetCore.trap 0x6000),
      resetCore.units⟩ := by
  have first : Runs sampleHart Permitted resetCore
      ⟨writeMstatus sampleHart resetCore.trap 0x6000, resetCore.units⟩ :=
    .step .start (.csrWrite .mstatus 0x6000) (by unfold Permitted; decide) rfl
  exact (readsSummarise_of_permitted sampleHart ⟨true, rfl⟩
    (first.step .markFsDirty (by unfold Permitted; decide) rfl)).1

/-- The first floating-point instruction leaves `SD` clear. -/
theorem markFsDirty_forgets_sd :
    ¬∀ (H : Hart 64) (c c' : Core 64), AtReset c → Runs H (fun _ _ => True) c c' →
      ReadsSummarise H c' := by
  intro always
  have run : Runs sampleHart (fun _ _ => True) resetCore
      { resetCore with trap := markFsDirty resetCore.trap } :=
    .step .start .markFsDirty trivial rfl
  have summed := (always sampleHart resetCore _ ⟨true, rfl⟩ run).1
  unfold Summarises at summed
  exact absurd (summed.mpr (by decide)) (by decide)

end Tlib.Riscv.Trap
