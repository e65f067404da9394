import Tlib.Library.BitFields

/-!
Contract: the registers of a RISC-V hart that take part in traps.

Owns: the fields of `mstatus`, `xcause`, `mintstatus` and `mtvec`, and the versions of the
privileged architecture that have them.
-/

namespace Tlib.Riscv.Trap

open Tlib.Library.BitFields List

variable {xlen : Nat}

def mstatusUie : Field := ⟨0, 1⟩
def mstatusSie : Field := ⟨1, 1⟩
def mstatusMie : Field := ⟨3, 1⟩
def mstatusUpie : Field := ⟨4, 1⟩
def mstatusSpie : Field := ⟨5, 1⟩
def mstatusMpie : Field := ⟨7, 1⟩
def mstatusSpp : Field := ⟨8, 1⟩
def mstatusVs : Field := ⟨9, 2⟩
def mstatusMpp : Field := ⟨11, 2⟩
def mstatusFs : Field := ⟨13, 2⟩
def mstatusXs : Field := ⟨15, 2⟩
def mstatusMprv : Field := ⟨17, 1⟩
def mstatusSum : Field := ⟨18, 1⟩
def mstatusMxr : Field := ⟨19, 1⟩
def mstatusTvm : Field := ⟨20, 1⟩
def mstatusTsr : Field := ⟨22, 1⟩
def mstatusVm : Field := ⟨24, 5⟩
def mstatusUxl : Field := ⟨32, 2⟩
def mstatusSxl : Field := ⟨34, 2⟩
/-- The top bit. -/
def mstatusSd (xlen : Nat) : Field := ⟨xlen - 1, 1⟩

/-- `MCAUSE_MPIL` and `SCAUSE_SPIL` -/
def causePil : Field := ⟨16, 8⟩
def causePie : Field := ⟨27, 1⟩
def causePp : Field := ⟨28, 2⟩
def causeInhv : Field := ⟨30, 1⟩

def mtvecMode : Field := ⟨0, 2⟩
def mtvecModeSubmode : Field := ⟨0, 6⟩

def mintstatusMil : Field := ⟨24, 8⟩
def mintstatusSil : Field := ⟨8, 8⟩
def sintstatusMask : Field := ⟨0, 16⟩

inductive PrivilegeArchitecture where
  | priv109
  | priv110
  | priv111
  | priv112
  | unratified
  deriving DecidableEq, Repr

/-- `privilege_architecture >= RISCV_PRIV1_10` -/
def PrivilegeArchitecture.since110 : PrivilegeArchitecture → Bool
  | .priv109 => false
  | _ => true

def PrivilegeArchitecture.since111 : PrivilegeArchitecture → Bool
  | .priv109 | .priv110 => false
  | _ => true

def PrivilegeArchitecture.since112 : PrivilegeArchitecture → Bool
  | .priv112 | .unratified => true
  | _ => false

structure ClicInterrupt where
  (priv level : BitVec 32)
  vectored : Bool
  deriving DecidableEq, Repr

structure Hart (xlen : Nat) where
  xlen_eq : xlen = 32 ∨ xlen = 64
  privilegeArchitecture : PrivilegeArchitecture
  /-- `riscv_has_ext` of `RVS`, `RVU` and `RVC` -/
  (rvs rvu rvc : Bool)
  nmiAddress : BitVec xlen
  nmiMcause : Nat → BitVec xlen
  ldpPhys : BitVec xlen → BitVec xlen
  (clicAcknowledgeInterrupt clicClearEdgeInterrupt : ClicInterrupt → ClicInterrupt)

structure State (xlen : Nat) where
  (pc priv mstatus mtvec mtvt mepc mcause mtval stvec stvt sepc scause stval : BitVec xlen)
  (mintstatus medeleg mideleg badaddr opcode reservedAddress : BitVec xlen)
  (exceptionIndex nmiPending : BitVec 32)
  clicInterrupt : ClicInterrupt
  deriving DecidableEq, Repr

def prvU : BitVec xlen := 0
def prvS : BitVec xlen := 1
def prvH : BitVec xlen := 2
def prvM : BitVec xlen := 3

variable (H : Hart xlen)

def State.cpuInClicMode (s : State xlen) : Bool := getField s.mtvec mtvecMode = 3

/-- The modes that `valid_vm_1_09` and `valid_vm_1_10` mark. -/
def validateVm (vm : BitVec xlen) : Bool :=
  let modes : List Nat :=
    if xlen = 32 then if H.privilegeArchitecture.since110 then [0, 1] else [0, 8]
    else if H.privilegeArchitecture.since110 then [0, 8, 9, 10] else [0, 9, 10]
  modes.contains (vm.toNat % 16)

/-- The bits that a write of `mstatus` changes. -/
def mstatusMask (valToWrite : BitVec xlen) : BitVec xlen :=
  let always := [mstatusMie, mstatusMpie, mstatusFs, mstatusMprv, mstatusMpp, mstatusMxr, mstatusVs]
  let supervisor :=
    if H.rvs then
      [mstatusSie, mstatusSpie, mstatusSum, mstatusSpp] ++
        (if H.privilegeArchitecture.since110 then [mstatusTvm, mstatusTsr] else [])
    else []
  let vm :=
    if !H.privilegeArchitecture.since110 && validateVm H (getField valToWrite mstatusVm) then
      [mstatusVm]
    else []
  let lengths := if xlen = 64 then [mstatusUxl, mstatusSxl] else []
  (always ++ supervisor ++ vm ++ lengths).foldl (fun mask f => mask ||| f.mask xlen) 0

/-- The privileges that the hart supports. -/
def mppAllowed (mpp : BitVec xlen) : Bool :=
  if mpp = prvU then H.rvu else if mpp = prvS then H.rvs else mpp = prvM

def validateMppSetting (mstatus valToWrite : BitVec xlen) : BitVec xlen :=
  if mppAllowed H (getField valToWrite mstatusMpp) then valToWrite
  else (valToWrite &&& ~~~mstatusMpp.mask xlen) ||| (mstatus &&& mstatusMpp.mask xlen)

def mstatusStored (mstatus valToWrite : BitVec xlen) : BitVec xlen :=
  let mask := mstatusMask H valToWrite
  let valToWrite := validateMppSetting H mstatus valToWrite
  let valToWrite := if H.rvu then valToWrite else setField valToWrite mstatusMprv 0
  (mstatus &&& ~~~mask) ||| (valToWrite &&& mask)

/-- `MSTATUS_SD` sums up `MSTATUS_FS` and `MSTATUS_XS`. -/
def withDirty (mstatus : BitVec xlen) : BitVec xlen :=
  let dirty : Bool := getField mstatus mstatusFs = 3 || getField mstatus mstatusXs = 3
  setField mstatus (mstatusSd xlen) (if dirty then 1 else 0)

/-- `MPP` and `MPIE` are aliased into `mcause` in CLIC mode. -/
def mirrored (mcause mstatus : BitVec xlen) : BitVec xlen :=
  setField (setField mcause causePp (getField mstatus mstatusMpp)) causePie
    (getField mstatus mstatusMpie)

def writeMstatus (s : State xlen) (valToWrite : BitVec xlen) : State xlen :=
  let mstatus := withDirty (mstatusStored H s.mstatus valToWrite)
  { s with
    mstatus := mstatus
    mcause := if s.cpuInClicMode then mirrored s.mcause mstatus else s.mcause }

def sstatusMask : BitVec xlen :=
  ([mstatusSie, mstatusSpie, mstatusUie, mstatusUpie, mstatusSpp, mstatusFs, mstatusXs,
      mstatusSum, mstatusMxr, mstatusSd xlen] ++
    (if xlen = 64 then [mstatusUxl] else [])).foldl (fun mask f => mask ||| f.mask xlen) 0

def writeSstatus (s : State xlen) (valToWrite : BitVec xlen) : State xlen :=
  writeMstatus H s ((s.mstatus &&& ~~~sstatusMask) ||| (valToWrite &&& sstatusMask))

/-- In CLIC mode the aliased bits are written to `mstatus` and copied back. -/
def writeMcause (s : State xlen) (valToWrite : BitVec xlen) : State xlen :=
  let s := { s with mcause := valToWrite }
  if s.cpuInClicMode then
    let newMstatus := setField s.mstatus mstatusMpp (getField s.mcause causePp)
    let newMstatus := setField newMstatus mstatusMpie (getField s.mcause causePie)
    let s := writeMstatus H s newMstatus
    { s with mcause := mirrored s.mcause s.mstatus }
  else s

def writeScause (s : State xlen) (valToWrite : BitVec xlen) : State xlen :=
  { s with scause := valToWrite }

def writeMintstatus (s : State xlen) (valToWrite : BitVec xlen) : State xlen :=
  { s with mintstatus := valToWrite }

def writeSintstatus (s : State xlen) (valToWrite : BitVec xlen) : State xlen :=
  { s with mintstatus := setField s.mintstatus sintstatusMask valToWrite }

/-- `none` stands for an abort. -/
def riscvSetMode (s : State xlen) (newpriv : BitVec xlen) : Option (State xlen) :=
  if newpriv > prvM then none
  else some { s with priv := if newpriv = prvH then prvU else newpriv }

variable {H} {m v : BitVec xlen} {s : State xlen} {i : Nat}

theorem getLsbD_masks (fields : List Field) (start : BitVec xlen) (less : i < xlen) :
    (fields.foldl (fun mask f => mask ||| f.mask xlen) start).getLsbD i =
      (start.getLsbD i || fields.any fun f => decide (f.Has i)) := by
  induction fields generalizing start with
  | nil => simp
  | cons f rest ih =>
    rw [foldl_cons, ih, BitVec.getLsbD_or, getLsbD_mask less, any_cons, Bool.or_assoc]

theorem mstatusMask_always {f : Field}
    (always : f ∈ [mstatusMie, mstatusMpie, mstatusFs, mstatusMprv, mstatusMpp, mstatusMxr, mstatusVs])
    (has : f.Has i) (less : i < xlen) : (mstatusMask H v).getLsbD i = true := by
  unfold mstatusMask
  rw [getLsbD_masks _ _ less]
  simp only [any_append, Bool.or_eq_true, any_eq_true, decide_eq_true_eq]
  exact Or.inr (Or.inl (Or.inl (Or.inl ⟨f, always, has⟩)))

theorem mstatusMask_supervisor {f : Field} (supervisor : H.rvs = true)
    (member : f ∈ [mstatusSie, mstatusSpie, mstatusSum, mstatusSpp]) (has : f.Has i)
    (less : i < xlen) : (mstatusMask H v).getLsbD i = true := by
  unfold mstatusMask
  rw [getLsbD_masks _ _ less]
  simp only [any_append, Bool.or_eq_true, any_eq_true, decide_eq_true_eq]
  refine Or.inr (Or.inl (Or.inl (Or.inr ⟨f, ?_, has⟩)))
  rw [if_pos supervisor]
  exact mem_append_left _ member

theorem validateMppSetting_bit (less : i < xlen) : (validateMppSetting H m v).getLsbD i =
      if mstatusMpp.Has i ∧ mppAllowed H (getField v mstatusMpp) = false then m.getLsbD i
      else v.getLsbD i := by
  unfold validateMppSetting
  cases allowed : mppAllowed H (getField v mstatusMpp) with
  | true => simp
  | false =>
    simp only [Bool.false_eq_true, if_false, and_true, BitVec.getLsbD_or, BitVec.getLsbD_and,
      BitVec.getLsbD_not, getLsbD_mask less, less, decide_true, Bool.true_and]
    by_cases has : mstatusMpp.Has i
    · simp [has]
    · simp [has]

theorem mstatusStored_bit (less : i < xlen) : (mstatusStored H m v).getLsbD i =
      if (mstatusMask H v).getLsbD i = false then m.getLsbD i
      else if mstatusMprv.Has i ∧ H.rvu = false then false
      else if mstatusMpp.Has i ∧ mppAllowed H (getField v mstatusMpp) = false then m.getLsbD i
      else v.getLsbD i := by
  unfold mstatusStored
  simp only [BitVec.getLsbD_or, BitVec.getLsbD_and, BitVec.getLsbD_not, less, decide_true,
    Bool.true_and]
  cases masked : (mstatusMask H v).getLsbD i with
  | false => simp
  | true =>
    cases rvu : H.rvu with
    | true => simp [validateMppSetting_bit less]
    | false =>
      simp only [Bool.false_eq_true, if_false, getLsbD_setField less, Bool.not_true,
        Bool.and_false, Bool.and_true, Bool.false_or, and_true, validateMppSetting_bit less]
      by_cases has : mstatusMprv.Has i
      · simp
      · simp

/-- `MSTATUS_SD` as it follows from the other fields. -/
def dirtyBit (mstatus : BitVec xlen) : Bool :=
  getField mstatus mstatusFs = 3 || getField mstatus mstatusXs = 3

theorem withDirty_bit (less : i < xlen) :
    (withDirty m).getLsbD i = if i = xlen - 1 then dirtyBit m else m.getLsbD i := by
  unfold withDirty
  rw [getLsbD_setField less]
  have has : (mstatusSd xlen).Has i ↔ i = xlen - 1 := by
    unfold Field.Has mstatusSd
    simp only
    omega
  simp only [has]
  by_cases top : i = xlen - 1
  · subst top
    simp only [if_true, mstatusSd, Nat.sub_self]
    unfold dirtyBit
    split
    next dirty =>
      rw [dirty]
      simp [show 0 < xlen by omega]
    next clean =>
      rw [Bool.not_eq_true] at clean
      rw [clean]
      simp
  · simp [top]

/-- `SD` sums up the dirty fields, and `MPRV` is clear without U-mode. -/
structure Settled (H : Hart xlen) (m : BitVec xlen) : Prop where
  sd : m.getLsbD (xlen - 1) = dirtyBit m
  mprv : H.rvu = true ∨ getField m mstatusMprv = 0

theorem Hart.le_xlen (H : Hart xlen) : 32 ≤ xlen := by
  rcases H.xlen_eq with width | width <;> omega

theorem getField_mprv_eq_zero (H : Hart xlen) :
    getField m mstatusMprv = 0 ↔ m.getLsbD 17 = false := by
  have wide := H.le_xlen
  constructor
  · intro zero
    have bits : (getField m mstatusMprv).getLsbD 0 = (0 : BitVec xlen).getLsbD 0 := by rw [zero]
    rw [getLsbD_getField (by unfold mstatusMprv; simp only; omega)] at bits
    simpa [mstatusMprv] using bits
  · intro clear
    apply eq_of_bits
    intro i _
    rw [getLsbD_getField (by unfold mstatusMprv; simp only; omega)]
    by_cases first : i = 0
    · subst first
      simp [mstatusMprv, clear]
    · have outside : ¬i < mstatusMprv.width := by
        unfold mstatusMprv
        simp only
        omega
      simp [outside]

theorem written_only_iff {P : Nat → Prop} (low : ∀ i, P i → i < 13)
    (agree : ∀ i < xlen, ¬P i → v.getLsbD i = m.getLsbD i) :
    (∀ i < xlen, ¬P i → (withDirty (mstatusStored H m v)).getLsbD i = m.getLsbD i) ↔
      Settled H m := by
  have wide := H.le_xlen
  -- apart from `MPRV` and `SD` the write changes what it is asked to change
  have stored : ∀ i < xlen, ¬P i → ¬(mstatusMprv.Has i ∧ H.rvu = false) →
      (mstatusStored H m v).getLsbD i = m.getLsbD i := by
    intro i less outside kept
    rw [mstatusStored_bit less]
    by_cases masked : (mstatusMask H v).getLsbD i = false
    · rw [if_pos masked]
    · rw [if_neg masked, if_neg kept]
      split
      · rfl
      · exact agree i less outside
  have same : ∀ f : Field, 13 ≤ f.shift → f.shift + f.width ≤ 17 →
      getField (mstatusStored H m v) f = getField m f := by
    intro f above below
    refine getField_congr (by omega) fun i has => ?_
    unfold Field.Has at has
    refine stored i (by omega) (fun inside => by have := low i inside; omega) ?_
    unfold Field.Has mstatusMprv
    simp only
    omega
  have dirty : dirtyBit (mstatusStored H m v) = dirtyBit m := by
    unfold dirtyBit
    rw [same mstatusFs (by decide) (by decide), same mstatusXs (by decide) (by decide)]
  have mprv : mstatusMprv.Has 17 := by decide
  constructor
  · intro only
    constructor
    · have top := only (xlen - 1) (by omega) (fun inside => by have := low _ inside; omega)
      rw [withDirty_bit (by omega), if_pos rfl, dirty] at top
      exact top.symm
    · by_cases rvu : H.rvu = true
      · exact Or.inl rvu
      · have kept := only 17 (by omega) (fun inside => by have := low _ inside; omega)
        rw [withDirty_bit (by omega), if_neg (by omega), mstatusStored_bit (by omega),
          mstatusMask_always (f := mstatusMprv) (by simp) mprv (by omega)] at kept
        simp only [Bool.true_eq_false, if_false, mprv, true_and] at kept
        rw [if_pos (by simpa using rvu)] at kept
        exact Or.inr ((getField_mprv_eq_zero H).mpr kept.symm)
  · intro settled i less outside
    rw [withDirty_bit less]
    by_cases top : i = xlen - 1
    · rw [if_pos top, dirty, top, settled.sd]
    · rw [if_neg top]
      by_cases kept : mstatusMprv.Has i ∧ H.rvu = false
      · have place : i = 17 := by
          have := kept.1
          unfold Field.Has mstatusMprv at this
          simp only at this
          omega
        have clear : m.getLsbD i = false := by
          rcases settled.mprv with rvu | zero
          · rw [kept.2] at rvu
            cases rvu
          · rw [place]
            exact (getField_mprv_eq_zero H).mp zero
        rw [mstatusStored_bit less, clear, if_pos kept, ite_self]
      · exact stored i less outside kept

/-- What a write of `mstatus` leaves in the fields that traps use. -/
structure Written (H : Hart xlen) (m v m' : BitVec xlen) : Prop where
  mie : getField m' mstatusMie = getField v mstatusMie
  mpie : getField m' mstatusMpie = getField v mstatusMpie
  mpp : getField m' mstatusMpp =
    if mppAllowed H (getField v mstatusMpp) then getField v mstatusMpp else getField m mstatusMpp
  supervisor : H.rvs = true → ∀ f ∈ [mstatusSie, mstatusSpie, mstatusSpp],
    getField m' f = getField v f
  mprv : getField m' mstatusMprv = if H.rvu then getField v mstatusMprv else 0
  others : ∀ i < xlen, i ≠ xlen - 1 → ¬mstatusMpp.Has i → ¬mstatusMprv.Has i →
    v.getLsbD i = m.getLsbD i → m'.getLsbD i = m.getLsbD i
  settled : Settled H m'

theorem withDirty_getField {f : Field} (low : f.shift + f.width ≤ 31) (H : Hart xlen) :
    getField (withDirty m) f = getField m f := by
  have wide := H.le_xlen
  refine getField_congr (by omega) fun i has => ?_
  unfold Field.Has at has
  rw [withDirty_bit (by omega), if_neg (by omega)]

theorem dirtyBit_withDirty (H : Hart xlen) : dirtyBit (withDirty m) = dirtyBit m := by
  unfold dirtyBit
  rw [withDirty_getField (by decide) H, withDirty_getField (by decide) H]

theorem written_getField {f : Field} (H : Hart xlen) (low : f.shift + f.width ≤ 31)
    (notMpp : f.Disjoint mstatusMpp) (notMprv : f.Disjoint mstatusMprv)
    (masked : ∀ i, f.Has i → i < xlen → (mstatusMask H v).getLsbD i = true) :
    getField (withDirty (mstatusStored H m v)) f = getField v f := by
  have wide := H.le_xlen
  rw [withDirty_getField low H]
  refine getField_congr (by omega) fun i has => ?_
  have less : i < xlen := by
    unfold Field.Has at has
    omega
  have mpp : ¬mstatusMpp.Has i := by
    unfold Field.Disjoint at notMpp
    unfold Field.Has at has ⊢
    omega
  have mprv : ¬mstatusMprv.Has i := by
    unfold Field.Disjoint at notMprv
    unfold Field.Has at has ⊢
    omega
  rw [mstatusStored_bit less, masked i has less]
  simp [mpp, mprv]

theorem written_withDirty (H : Hart xlen) (m v : BitVec xlen) :
    Written H m v (withDirty (mstatusStored H m v)) := by
  have wide := H.le_xlen
  have always (f : Field) (member : f ∈ [mstatusMie, mstatusMpie, mstatusFs, mstatusMprv,
      mstatusMpp, mstatusMxr, mstatusVs]) (i : Nat) (has : f.Has i) (less : i < xlen) :
      (mstatusMask H v).getLsbD i = true := mstatusMask_always member has less
  have mprvStored : getField (mstatusStored H m v) mstatusMprv =
      if H.rvu then getField v mstatusMprv else 0 := by
    have masked : (mstatusMask H v).getLsbD 17 = true :=
      always mstatusMprv (by simp) 17 (by decide) (by omega)
    have place (i : Nat) (has : mstatusMprv.Has i) : i = 17 := by
      unfold Field.Has mstatusMprv at has
      simp only at has
      omega
    have mpp : ¬mstatusMpp.Has 17 := by decide
    have mprv : mstatusMprv.Has 17 := by decide
    cases rvu : H.rvu with
    | true =>
      refine getField_congr (by unfold mstatusMprv; simp only; omega) fun i has => ?_
      rw [place i has, mstatusStored_bit (by omega), masked]
      simp [rvu, mpp]
    | false =>
      rw [if_neg (by decide), getField_mprv_eq_zero H, mstatusStored_bit (by omega), masked]
      simp [rvu, mprv]
  refine ⟨?_, ?_, ?_, ?_, ?_, ?_, ?_⟩
  · exact written_getField H (by decide) (by decide) (by decide) (always _ (by simp))
  · exact written_getField H (by decide) (by decide) (by decide) (always _ (by simp))
  · rw [withDirty_getField (by decide) H]
    have fits : mstatusMpp.shift + mstatusMpp.width ≤ xlen := by
      unfold mstatusMpp
      simp only
      omega
    have bit (i : Nat) (has : mstatusMpp.Has i) : (mstatusStored H m v).getLsbD i =
        if mppAllowed H (getField v mstatusMpp) = false then m.getLsbD i else v.getLsbD i := by
      have less : i < xlen := by
        unfold Field.Has at has
        omega
      have mprv : ¬mstatusMprv.Has i := by
        unfold Field.Has mstatusMpp at has
        unfold Field.Has mstatusMprv
        simp only at has ⊢
        omega
      rw [mstatusStored_bit less, always mstatusMpp (by simp) i has less]
      simp [mprv, has]
    cases allowed : mppAllowed H (getField v mstatusMpp) with
    | true =>
      refine getField_congr fits fun i has => ?_
      rw [bit i has, allowed]
      rfl
    | false =>
      refine getField_congr fits fun i has => ?_
      rw [bit i has, allowed]
      rfl
  · intro supervisor f member
    have among : f ∈ [mstatusSie, mstatusSpie, mstatusSum, mstatusSpp] := by
      simp only [List.mem_cons, List.not_mem_nil, or_false] at member
      rcases member with rfl | rfl | rfl
      · exact List.mem_cons_self
      · exact List.mem_cons_of_mem _ List.mem_cons_self
      · simp
    have masked (i : Nat) (has : f.Has i) (less : i < xlen) : (mstatusMask H v).getLsbD i = true :=
      mstatusMask_supervisor supervisor among has less
    simp only [List.mem_cons, List.not_mem_nil, or_false] at member
    rcases member with rfl | rfl | rfl
    · exact written_getField H (by decide) (by decide) (by decide) masked
    · exact written_getField H (by decide) (by decide) (by decide) masked
    · exact written_getField H (by decide) (by decide) (by decide) masked
  · rw [withDirty_getField (by decide) H, mprvStored]
  · intro i less notTop notMpp notMprv same
    rw [withDirty_bit less, if_neg notTop, mstatusStored_bit less]
    simp [notMprv, same]
  · refine ⟨?_, ?_⟩
    · rw [withDirty_bit (by omega), if_pos rfl, dirtyBit_withDirty H]
    · cases rvu : H.rvu with
      | true => exact Or.inl rfl
      | false =>
        refine Or.inr ?_
        rw [withDirty_getField (by decide) H, mprvStored, rvu]
        rfl

end Tlib.Riscv.Trap
