import Mathlib.Logic.Basic
import Tlib.Riscv.TrapState

/-!
Contract: trap entry.

Owns: `do_interrupt` and `do_nmi`, the number and the value of each cause, what the delegation
registers ask for, and the traps that enter the mode they ask for. Does not own: which interrupt is
pending.
-/

namespace Tlib.Riscv.Trap

open Tlib.Library.BitFields Nat
open BitVec hiding not_not

variable {xlen : Nat}

/-! ### Causes -/

/-- `RISCV_EXCP_INT_FLAG` -/
def State.isInterrupt (s : State xlen) : Bool := s.exceptionIndex &&& 0x80000000 ≠ 0

/-- The cause number, before the interrupt bit. An `ecall` is told apart by the mode. -/
def State.bit (s : State xlen) : BitVec xlen :=
  if s.isInterrupt then (s.exceptionIndex &&& 0x7FFFFFFF).setWidth xlen
  else if s.exceptionIndex = 8 then
    if s.priv = prvU then 8
    else if s.priv = prvS then 9
    else if s.priv = prvH then 10
    else if s.priv = prvM then 11
    else 0
  else s.exceptionIndex.setWidth xlen

/-- `MCAUSE_INTERRUPT` -/
def causeInterrupt : BitVec xlen := BitVec.ofNat xlen 1 <<< (xlen - 1)

def State.fixedCause (s : State xlen) : BitVec xlen :=
  if s.isInterrupt then s.bit ||| causeInterrupt else s.bit

def illegalInst : BitVec xlen := 2

def hasbadaddr (fixedCause : BitVec xlen) : Bool :=
  ([2, 0, 1, 4, 6, 5, 7, 12, 13, 15].map (BitVec.ofNat xlen)).contains fixedCause

def State.trapValue (s : State xlen) (old : BitVec xlen) : BitVec xlen :=
  if hasbadaddr s.fixedCause then
    if s.fixedCause = illegalInst then s.opcode else s.badaddr
  else old

/-- `1 << bit` of a C `int`; hosts take the shift count modulo the width. -/
def intShift (bit : BitVec xlen) : BitVec xlen := (1#32 <<< (bit.toNat % 32)).signExtend xlen

def State.isDelegated (s : State xlen) : Bool :=
  (if s.isInterrupt then s.mideleg else s.medeleg) &&& intShift s.bit ≠ 0

/-! ### Entry -/

variable (H : Hart xlen)

/-- The handler that `xtvec` and `xtvt` select. -/
def State.handler (s : State xlen) (xtvec xtvt : BitVec xlen) (vectored : Bool) : BitVec xlen :=
  if s.cpuInClicMode then
    if s.isInterrupt && vectored then H.ldpPhys (xtvt + s.bit * BitVec.ofNat xlen (xlen / 8))
    else xtvec &&& ~~~mtvecModeSubmode.mask xlen
  else if getField xtvec mtvecMode = 1 && s.isInterrupt && H.privilegeArchitecture.since110 then
    (xtvec &&& ~~~mtvecMode.mask xlen) + s.fixedCause * 4
  else xtvec &&& ~~~mtvecMode.mask xlen

def previousEnable (mstatus priv : BitVec xlen) (xie : Field) : BitVec xlen :=
  if H.privilegeArchitecture.since110 then getField mstatus xie
  else getField mstatus { shift := priv.toNat, width := 1 }

/-- `xcause`, with the extra fields that it has in CLIC mode. -/
def State.causeWord (s : State xlen) (level xpie : BitVec xlen) : BitVec xlen :=
  if s.cpuInClicMode then
    setField (setField (setField (setField s.fixedCause causePil level) causePie xpie)
      causePp s.priv) causeInhv 0
  else s.fixedCause

/-- `mstatus` with the state of M-mode pushed. -/
def State.pushM (s : State xlen) : BitVec xlen :=
  setField
    (setField
      (setField s.mstatus mstatusMpie (previousEnable H s.mstatus s.priv mstatusMie))
      mstatusMie 0)
    mstatusMpp s.priv

def State.pushS (s : State xlen) : BitVec xlen :=
  setField
    (setField
      (setField s.mstatus mstatusSpie (previousEnable H s.mstatus s.priv mstatusSie))
      mstatusSie 0)
    mstatusSpp s.priv

def State.raiseLevel (s : State xlen) (isInterrupt : Bool) (level : Field) : State xlen :=
  if isInterrupt then
    { s with mintstatus := setField s.mintstatus level (s.clicInterrupt.level.setWidth xlen) }
  else s

/-- The address of the trap is kept, and its handler is next. -/
def State.saveM (s : State xlen) (clic : ClicInterrupt) : State xlen :=
  { s with
    mepc := s.pc
    mtval := s.trapValue s.mtval
    pc := s.handler H s.mtvec s.mtvt clic.vectored
    clicInterrupt := clic }

def State.saveS (s : State xlen) (clic : ClicInterrupt) : State xlen :=
  { s with
    sepc := s.pc
    stval := s.trapValue s.stval
    pc := s.handler H s.stvec s.stvt clic.vectored
    clicInterrupt := clic }

def State.enterM (s : State xlen) (clic : ClicInterrupt) : Option (State xlen) :=
  let mc := s.causeWord (getField s.mintstatus mintstatusMil)
    (previousEnable H s.mstatus s.priv mstatusMie)
  let t := writeMcause H (writeMstatus H (s.saveM H clic) (s.pushM H)) mc
  riscvSetMode (t.raiseLevel s.isInterrupt mintstatusMil) prvM

def State.enterS (s : State xlen) (clic : ClicInterrupt) : Option (State xlen) :=
  let sc := s.causeWord (getField s.mintstatus mintstatusSil)
    (previousEnable H s.mstatus s.priv mstatusSie)
  let t := writeScause (writeSstatus H (s.saveS H clic) (s.pushS H)) sc
  riscvSetMode (t.raiseLevel s.isInterrupt mintstatusSil) prvS

/-- `ctz64` of a word that is not 0. -/
def lowestBitOf (word : BitVec 32) : Nat := ((List.range 32).find? word.getLsbD).getD 64

/-- `mstatus` with the state of M-mode pushed, in the order of `do_nmi`. -/
def State.pushNmi (s : State xlen) : BitVec xlen :=
  setField
    (setField
      (setField s.mstatus mstatusMpie (previousEnable H s.mstatus s.priv mstatusMie))
      mstatusMpp s.priv)
    mstatusMie 0

/-- The address of the interrupt is kept, and its handler is next. -/
def State.saveNmi (s : State xlen) (nmiIndex : Nat) : State xlen :=
  { s with
    mepc := s.pc
    pc := H.nmiAddress + BitVec.ofNat xlen (nmiIndex * 4)
    nmiPending := s.nmiPending &&& ~~~(1#32 <<< nmiIndex) }

def doNmi (s : State xlen) : Option (State xlen) :=
  if s.nmiPending = 0 then some s
  else
    let nmiIndex := lowestBitOf s.nmiPending
    (riscvSetMode (writeMstatus H s (s.pushNmi H)) prvM).map fun t =>
      (writeMcause H t (H.nmiMcause nmiIndex)).saveNmi H nmiIndex

def acknowledge (s : State xlen) : ClicInterrupt :=
  if s.cpuInClicMode && s.isInterrupt then
    let clic := H.clicAcknowledgeInterrupt s.clicInterrupt
    if clic.vectored then H.clicClearEdgeInterrupt clic else clic
  else s.clicInterrupt

/-- The mode whose interrupts or exceptions the trap belongs to. -/
def State.intPriv (s : State xlen) : BitVec xlen :=
  if s.cpuInClicMode && s.isInterrupt then s.clicInterrupt.priv.setWidth xlen else s.priv

def excpNone : BitVec 32 := 0xFFFFFFFF

/-- One of the two copies of the entry. -/
def State.takeTrap (s : State xlen) : Option (State xlen) :=
  if s.intPriv = prvM || !(s.isDelegated || (s.cpuInClicMode && s.isInterrupt)) then
    s.enterM H (acknowledge H s)
  else s.enterS H (acknowledge H s)

def doInterrupt (s : State xlen) : Option (State xlen) :=
  if s.nmiPending ≠ 0 then doNmi H s
  else if s.exceptionIndex = excpNone then some s
  else (s.takeTrap H).map fun t => { t with exceptionIndex := excpNone }

/-! ### What the delegation registers ask for -/

inductive TrapMode where
  | machine
  | supervisor
  deriving DecidableEq, Repr

def TrapMode.other : TrapMode → TrapMode
  | .machine => .supervisor
  | .supervisor => .machine

def TrapMode.priv : TrapMode → BitVec xlen
  | .machine => prvM
  | .supervisor => prvS

/-- The fields of `mstatus` that are pushed. -/
def TrapMode.stack : TrapMode → List Field
  | .machine => [mstatusMie, mstatusMpie, mstatusMpp]
  | .supervisor => [mstatusSie, mstatusSpie, mstatusSpp]

def TrapMode.level : TrapMode → Field
  | .machine => mintstatusMil
  | .supervisor => mintstatusSil

namespace State

variable (s : State xlen)

def xepc : TrapMode → BitVec xlen
  | .machine => s.mepc
  | .supervisor => s.sepc

def xcause : TrapMode → BitVec xlen
  | .machine => s.mcause
  | .supervisor => s.scause

def xtval : TrapMode → BitVec xlen
  | .machine => s.mtval
  | .supervisor => s.stval

def xtvec : TrapMode → BitVec xlen
  | .machine => s.mtvec
  | .supervisor => s.stvec

/-- The cause number of the pending trap; an `ecall` has one for each mode. -/
def cause : Nat :=
  if s.isInterrupt then (s.exceptionIndex &&& 0x7FFFFFFF).toNat
  else if s.exceptionIndex = 8 then 8 + s.priv.toNat
  else s.exceptionIndex.toNat

/-- `mideleg` or `medeleg` -/
def delegation : BitVec xlen := if s.isInterrupt then s.mideleg else s.medeleg

def target : TrapMode :=
  if (s.priv = prvU ∨ s.priv = prvS) ∧ s.delegation.getLsbD s.cause = true then .supervisor
  else .machine

end State

def NotInStack (m : TrapMode) (i : Nat) : Prop := ∀ f ∈ m.stack, ¬f.Has i

/-- The registers that no trap changes. -/
structure Untouched (s s' : State xlen) : Prop where
  mtvec : s'.mtvec = s.mtvec
  mtvt : s'.mtvt = s.mtvt
  stvec : s'.stvec = s.stvec
  stvt : s'.stvt = s.stvt
  medeleg : s'.medeleg = s.medeleg
  mideleg : s'.mideleg = s.mideleg
  badaddr : s'.badaddr = s.badaddr
  opcode : s'.opcode = s.opcode
  reservedAddress : s'.reservedAddress = s.reservedAddress

/-- The entry outside CLIC mode, as the privileged architecture has it. -/
structure EntryFollows (s s' : State xlen) : Prop where
  priv : s'.priv = s.target.priv
  xepc : s'.xepc s.target = s.pc
  xcause : s'.xcause s.target =
    BitVec.ofNat xlen (s.cause + if s.isInterrupt then 2 ^ (xlen - 1) else 0)
  pc : s'.pc = (s.xtvec s.target &&& ~~~mtvecMode.mask xlen) + BitVec.ofNat xlen
      (if getField (s.xtvec s.target) mtvecMode = 1 ∧ s.isInterrupt = true then 4 * s.cause else 0)
  mstatus : ∀ i < xlen, NotInStack s.target i → s'.mstatus.getLsbD i = s.mstatus.getLsbD i
  otherXepc : s'.xepc s.target.other = s.xepc s.target.other
  otherXcause : s'.xcause s.target.other = s.xcause s.target.other
  otherXtval : s'.xtval s.target.other = s.xtval s.target.other
  mintstatus : s'.mintstatus = s.mintstatus
  untouched : Untouched s s'

/-- The bits of the delegation register that `1 << bit` tests. -/
def shiftTested (delegation : BitVec xlen) (cause : Nat) : Bool :=
  if cause % 32 = 31 then delegation >>> 31 ≠ 0 else delegation.getLsbD (cause % 32)

structure EntryExact (H : Hart xlen) (s : State xlen) : Prop where
  shift : s.priv ≠ prvM → shiftTested s.delegation s.cause = s.delegation.getLsbD s.cause
  vectored : H.privilegeArchitecture.since110 = true ∨ s.isInterrupt = false ∨ s.cause = 0 ∨
    getField (s.xtvec s.target) mtvecMode ≠ 1
  level : s.isInterrupt = true → getField s.mintstatus s.target.level =
    getField (s.clicInterrupt.level.setWidth xlen) ⟨0, 8⟩
  settled : Settled H s.mstatus

/-! ### One entry -/

structure EntersMode (H : Hart xlen) (s : State xlen) (m : TrapMode) (s' : State xlen) : Prop where
  priv : s'.priv = m.priv
  xepc : s'.xepc m = s.pc
  xcause : s'.xcause m = s.fixedCause
  pc : ∃ xtvt vectored, s'.pc = s.handler H (s.xtvec m) xtvt vectored
  mstatus : ∃ v, (∀ i < xlen, NotInStack m i → v.getLsbD i = s.mstatus.getLsbD i) ∧
    s'.mstatus = withDirty (mstatusStored H s.mstatus v)
  mintstatus : s'.mintstatus = if s.isInterrupt then
      setField s.mintstatus m.level (s.clicInterrupt.level.setWidth xlen)
    else s.mintstatus
  otherXepc : s'.xepc m.other = s.xepc m.other
  otherXcause : s'.xcause m.other = s.xcause m.other
  otherXtval : s'.xtval m.other = s.xtval m.other
  untouched : Untouched s s'

variable {H} {s s' : State xlen}

theorem prvM_ne_prvS (H : Hart xlen) : (prvM : BitVec xlen) ≠ prvS := by
  rcases H.xlen_eq with rfl | rfl <;> decide

theorem riscvSetMode_prvM (H : Hart xlen) : riscvSetMode s prvM = some { s with priv := prvM } := by
  rcases H.xlen_eq with rfl | rfl <;> rfl

theorem riscvSetMode_prvS (H : Hart xlen) : riscvSetMode s prvS = some { s with priv := prvS } := by
  rcases H.xlen_eq with rfl | rfl <;> rfl

theorem notInStack_machine {i : Nat} (outside : NotInStack .machine i) :
    ¬mstatusMie.Has i ∧ ¬mstatusMpie.Has i ∧ ¬mstatusMpp.Has i := by
  simpa [NotInStack, TrapMode.stack] using outside

theorem notInStack_supervisor {i : Nat} (outside : NotInStack .supervisor i) :
    ¬mstatusSie.Has i ∧ ¬mstatusSpie.Has i ∧ ¬mstatusSpp.Has i := by
  simpa [NotInStack, TrapMode.stack] using outside

theorem causeWord_direct (direct : s.cpuInClicMode = false) (level xpie : BitVec xlen) :
    s.causeWord level xpie = s.fixedCause := by
  unfold State.causeWord
  rw [direct]
  rfl

theorem writeMstatus_direct (direct : s.cpuInClicMode = false) (v : BitVec xlen) :
    writeMstatus H s v = { s with mstatus := withDirty (mstatusStored H s.mstatus v) } := by
  unfold writeMstatus
  rw [direct]
  rfl

theorem writeMcause_direct (direct : s.cpuInClicMode = false) (v : BitVec xlen) :
    writeMcause H s v = { s with mcause := v } := by
  have same : ({ s with mcause := v } : State xlen).cpuInClicMode = s.cpuInClicMode := rfl
  unfold writeMcause
  simp only [same, direct]
  rfl

theorem raiseLevel_mintstatus (isInterrupt : Bool) (level : Field) :
    (s.raiseLevel isInterrupt level).mintstatus = if isInterrupt then
        setField s.mintstatus level (s.clicInterrupt.level.setWidth xlen)
      else s.mintstatus := by
  unfold State.raiseLevel
  split <;> rfl

theorem raiseLevel_eq (isInterrupt : Bool) (level : Field) : s.raiseLevel isInterrupt level =
      { s with mintstatus := (s.raiseLevel isInterrupt level).mintstatus } := by
  unfold State.raiseLevel
  split <;> rfl

theorem pushM_bit {i : Nat} (less : i < xlen) (outside : NotInStack .machine i) :
    (s.pushM H).getLsbD i = s.mstatus.getLsbD i := by
  obtain ⟨mie, mpie, mpp⟩ := notInStack_machine outside
  unfold State.pushM
  rw [setField_of_not_has less mpp, setField_of_not_has less mie, setField_of_not_has less mpie]

theorem pushS_bit {i : Nat} (less : i < xlen) (outside : NotInStack .supervisor i) :
    (s.pushS H).getLsbD i = s.mstatus.getLsbD i := by
  obtain ⟨sie, spie, spp⟩ := notInStack_supervisor outside
  unfold State.pushS
  rw [setField_of_not_has less spp, setField_of_not_has less sie, setField_of_not_has less spie]

theorem enterM_entersMode (direct : s.cpuInClicMode = false) :
    ∃ s', s.enterM H s.clicInterrupt = some s' ∧ EntersMode H s .machine s' := by
  have saved : (s.saveM H s.clicInterrupt).cpuInClicMode = false := direct
  have stored (v : BitVec xlen) :
      ({ s.saveM H s.clicInterrupt with mstatus := v } : State xlen).cpuInClicMode = false := direct
  refine ⟨_, riscvSetMode_prvM H, ?_⟩
  rw [causeWord_direct direct, writeMstatus_direct saved, writeMcause_direct (stored _),
    raiseLevel_eq, raiseLevel_mintstatus]
  exact
    { priv := rfl
      xepc := rfl
      xcause := rfl
      pc := ⟨s.mtvt, s.clicInterrupt.vectored, rfl⟩
      mstatus := ⟨s.pushM H, fun _ less outside => pushM_bit less outside, rfl⟩
      mintstatus := rfl
      otherXepc := rfl
      otherXcause := rfl
      otherXtval := rfl
      untouched := ⟨rfl, rfl, rfl, rfl, rfl, rfl, rfl, rfl, rfl⟩ }

theorem enterS_entersMode (direct : s.cpuInClicMode = false) :
    ∃ s', s.enterS H s.clicInterrupt = some s' ∧ EntersMode H s .supervisor s' := by
  have saved : (s.saveS H s.clicInterrupt).cpuInClicMode = false := direct
  refine ⟨_, riscvSetMode_prvS H, ?_⟩
  unfold writeSstatus
  rw [causeWord_direct direct, writeMstatus_direct saved, raiseLevel_eq, raiseLevel_mintstatus]
  exact
    { priv := rfl
      xepc := rfl
      xcause := rfl
      pc := ⟨s.stvt, s.clicInterrupt.vectored, rfl⟩
      mstatus := by
        refine ⟨_, fun i less outside => ?_, rfl⟩
        simp only [getLsbD_or, getLsbD_and, getLsbD_not, less, decide_true,
          Bool.true_and, pushS_bit less outside, State.saveS]
        cases s.mstatus.getLsbD i <;> cases (sstatusMask : BitVec xlen).getLsbD i <;> rfl
      mintstatus := rfl
      otherXepc := rfl
      otherXcause := rfl
      otherXtval := rfl
      untouched := ⟨rfl, rfl, rfl, rfl, rfl, rfl, rfl, rfl, rfl⟩ }

/-! ### Cause numbers -/

/-- The modes that a trap is taken from. -/
def Supported (priv : BitVec xlen) : Prop := priv = prvU ∨ priv = prvS ∨ priv = prvM

theorem toNat_bit (H : Hart xlen) (mode : Supported s.priv) : s.bit.toNat = s.cause := by
  have wide := H.le_xlen
  have room : 2 ^ 32 ≤ 2 ^ xlen := Nat.pow_le_pow_right (by decide) wide
  have narrow (x : BitVec 32) : (x.setWidth xlen).toNat = x.toNat := by
    rw [toNat_setWidth, mod_eq_of_lt (Nat.lt_of_lt_of_le x.isLt room)]
  unfold State.bit State.cause
  split
  · exact narrow _
  · split
    · rcases mode with user | supervisor | machine
      · rw [if_pos user, user]
        rcases H.xlen_eq with rfl | rfl <;> rfl
      · rw [supervisor]
        rcases H.xlen_eq with rfl | rfl <;> rfl
      · rw [machine]
        rcases H.xlen_eq with rfl | rfl <;> rfl
    · exact narrow _

theorem fixedCause_eq (H : Hart xlen) (mode : Supported s.priv) (less : s.cause < xlen) :
    s.fixedCause = BitVec.ofNat xlen (s.cause + if s.isInterrupt then 2 ^ (xlen - 1) else 0) := by
  have number := toNat_bit H mode
  have small : s.cause < 2 ^ (xlen - 1) := by
    rcases H.xlen_eq with rfl | rfl <;> omega
  have half : 2 ^ (xlen - 1) < 2 ^ xlen := by
    rcases H.xlen_eq with rfl | rfl <;> decide
  have double : 2 ^ (xlen - 1) + 2 ^ (xlen - 1) = 2 ^ xlen := by
    rcases H.xlen_eq with rfl | rfl <;> rfl
  apply eq_of_toNat_eq
  rw [toNat_ofNat]
  unfold State.fixedCause
  split
  · rw [toNat_or, number]
    unfold causeInterrupt
    rw [toNat_shiftLeft, toNat_ofNat, mod_eq_of_lt (Nat.one_lt_two_pow (by omega)),
      one_shiftLeft, mod_eq_of_lt half, Nat.or_comm]
    have sum := two_pow_add_eq_or_of_lt small 1
    rw [Nat.mul_one] at sum
    rw [← sum, mod_eq_of_lt (by omega), Nat.add_comm]
  · rw [number, Nat.add_zero, mod_eq_of_lt (by omega)]

theorem intShift_bit (bit : BitVec xlen) {i : Nat} (less : i < xlen) : (intShift bit).getLsbD i =
      decide (if i < 32 then i = bit.toNat % 32 else bit.toNat % 32 = 31) := by
  have one (j : Nat) (small : j < 32) :
      (1#32 <<< (bit.toNat % 32)).getLsbD j = decide (j = bit.toNat % 32) := by
    by_cases below : j < bit.toNat % 32
    · have ne : j ≠ bit.toNat % 32 := by omega
      simp [below, ne]
    · have same : j - bit.toNat % 32 = 0 ↔ j = bit.toNat % 32 := by omega
      simp [small, below, same]
  unfold intShift
  rw [getLsbD_signExtend]
  by_cases low : i < 32
  · simp only [less, low, decide_true, Bool.true_and, if_true]
    exact one i low
  · simp only [less, low, decide_true, Bool.true_and, if_false]
    rw [msb_eq_getLsbD_last, one 31 (by decide)]
    exact decide_eq_decide.mpr eq_comm

theorem and_intShift_ne_zero (H : Hart xlen) (delegation bit : BitVec xlen) :
    decide (delegation &&& intShift bit ≠ 0) = shiftTested delegation bit.toNat := by
  have wide := H.le_xlen
  have count := mod_lt bit.toNat (show 0 < 32 by decide)
  rw [Bool.eq_iff_iff, decide_eq_true_eq, ne_zero_iff]
  unfold shiftTested
  split
  next top =>
    rw [decide_eq_true_eq, ne_zero_iff]
    constructor
    · rintro ⟨i, less, set⟩
      rw [getLsbD_and, intShift_bit bit less, top, Bool.and_eq_true, decide_eq_true_eq] at set
      have high : 31 ≤ i := by
        have := set.2
        split at this <;> omega
      refine ⟨i - 31, by omega, ?_⟩
      rw [getLsbD_ushiftRight, show 31 + (i - 31) = i by omega]
      exact set.1
    · rintro ⟨i, less, set⟩
      rw [getLsbD_ushiftRight] at set
      have inside : 31 + i < xlen := lt_of_getLsbD set
      refine ⟨31 + i, inside, ?_⟩
      rw [getLsbD_and, intShift_bit bit inside, set, top]
      rw [Bool.true_and, decide_eq_true_eq]
      split
      · omega
      · rfl
  next low =>
    constructor
    · rintro ⟨i, less, set⟩
      rw [getLsbD_and, intShift_bit bit less, Bool.and_eq_true, decide_eq_true_eq] at set
      have place : i = bit.toNat % 32 := by
        have := set.2
        split at this <;> omega
      rw [← place]
      exact set.1
    · intro set
      refine ⟨bit.toNat % 32, by omega, ?_⟩
      rw [getLsbD_and, intShift_bit bit (by omega), set]
      simp [count]

/-! ### The mode of the handler -/

def State.entryMode (s : State xlen) : TrapMode :=
  if s.intPriv = prvM || !(s.isDelegated || (s.cpuInClicMode && s.isInterrupt)) then .machine
  else .supervisor

theorem entryMode_direct (direct : s.cpuInClicMode = false) :
    s.entryMode = if s.priv = prvM || !s.isDelegated then .machine else .supervisor := by
  unfold State.entryMode State.intPriv
  simp [direct]

theorem TrapMode.priv_injective (H : Hart xlen) {m other : TrapMode}
    (same : (m.priv : BitVec xlen) = other.priv) : m = other := by
  have ne := prvM_ne_prvS H
  cases m <;> cases other
  · rfl
  · exact absurd same ne
  · exact absurd same.symm ne
  · rfl

theorem entryMode_eq_target_iff (H : Hart xlen) (mode : Supported s.priv)
    (direct : s.cpuInClicMode = false) :
    s.entryMode = s.target ↔
      (s.priv ≠ prvM → shiftTested s.delegation s.cause = s.delegation.getLsbD s.cause) := by
  have delegated : s.isDelegated = shiftTested s.delegation s.cause := by
    rw [← toNat_bit H mode, ← and_intShift_ne_zero H]
    rfl
  have ne := prvM_ne_prvS H
  have ne' : (prvM : BitVec xlen) ≠ prvU := by
    rcases H.xlen_eq with rfl | rfl <;> decide
  rw [entryMode_direct direct, delegated]
  unfold State.target
  rcases mode with user | supervisor | machine
  · rw [user]
    cases shiftTested s.delegation s.cause <;> cases s.delegation.getLsbD s.cause <;>
      simp [ne'.symm]
  · rw [supervisor]
    cases shiftTested s.delegation s.cause <;> cases s.delegation.getLsbD s.cause <;>
      simp [ne.symm]
  · rw [machine]
    simp [ne, ne']

theorem EntersMode.handled {m : TrapMode} (enters : EntersMode H s m s') (index : BitVec 32) :
    EntersMode H s m { s' with exceptionIndex := index } := by
  obtain ⟨priv, xepc, xcause, pc, mstatus, mintstatus, otherXepc, otherXcause, otherXtval,
    untouched⟩ := enters
  refine ⟨priv, ?_, ?_, pc, mstatus, mintstatus, ?_, ?_, ?_, ?_⟩
  · cases m <;> exact xepc
  · cases m <;> exact xcause
  · cases m <;> exact otherXepc
  · cases m <;> exact otherXcause
  · cases m <;> exact otherXtval
  · exact ⟨untouched.mtvec, untouched.mtvt, untouched.stvec, untouched.stvt, untouched.medeleg,
      untouched.mideleg, untouched.badaddr, untouched.opcode, untouched.reservedAddress⟩

theorem doInterrupt_enters (direct : s.cpuInClicMode = false) (noNmi : s.nmiPending = 0)
    (pending : s.exceptionIndex ≠ excpNone) :
    ∃ s', doInterrupt H s = some s' ∧ EntersMode H s s.entryMode s' := by
  have offered : acknowledge H s = s.clicInterrupt := by
    unfold acknowledge
    rw [direct]
    rfl
  unfold doInterrupt State.takeTrap
  rw [if_neg (not_not.mpr noNmi), if_neg pending, offered]
  unfold State.entryMode
  split
  · obtain ⟨t, entered, enters⟩ := enterM_entersMode (H := H) direct
    exact ⟨{ t with exceptionIndex := excpNone }, by rw [entered]; rfl, enters.handled _⟩
  · obtain ⟨t, entered, enters⟩ := enterS_entersMode (H := H) direct
    exact ⟨{ t with exceptionIndex := excpNone }, by rw [entered]; rfl, enters.handled _⟩

/-! ### The exact entry -/

theorem handler_iff (H : Hart xlen) (mode : Supported s.priv) (direct : s.cpuInClicMode = false)
    (less : s.cause < xlen) (xtvec xtvt : BitVec xlen) (vectored : Bool) :
    s.handler H xtvec xtvt vectored = (xtvec &&& ~~~mtvecMode.mask xlen) + BitVec.ofNat xlen
          (if getField xtvec mtvecMode = 1 ∧ s.isInterrupt = true then 4 * s.cause else 0) ↔
      H.privilegeArchitecture.since110 = true ∨ s.isInterrupt = false ∨ s.cause = 0 ∨
        getField xtvec mtvecMode ≠ 1 := by
  have base : ∀ x : BitVec xlen, x = x + BitVec.ofNat xlen 0 := fun x => (BitVec.add_zero x).symm
  unfold State.handler
  rw [direct]
  by_cases selected : getField xtvec mtvecMode = 1 ∧ s.isInterrupt = true
  · have offset : s.fixedCause * 4 = BitVec.ofNat xlen (4 * s.cause) := by
      rw [fixedCause_eq H mode less, if_pos selected.2]
      apply eq_of_toNat_eq
      rw [toNat_mul]
      rcases H.xlen_eq with rfl | rfl
      · rw [show BitVec.toNat (4 : BitVec 32) = 4 from rfl]
        simp only [toNat_ofNat]
        omega
      · rw [show BitVec.toNat (4 : BitVec 64) = 4 from rfl]
        simp only [toNat_ofNat]
        omega
    rw [if_pos selected, offset, selected.1, selected.2]
    simp only [decide_true, Bool.true_and]
    cases H.privilegeArchitecture.since110 with
    | true => simp
    | false =>
      simp only [Bool.false_eq_true, if_false, false_or, Bool.true_eq_false, ne_eq,
        not_true_eq_false, or_false]
      constructor
      · intro same
        have zero : BitVec.ofNat xlen (4 * s.cause) = 0 := by
          have shifted := congrArg (fun x => x - (xtvec &&& ~~~mtvecMode.mask xlen)) same
          simp only [BitVec.sub_self] at shifted
          rw [BitVec.add_comm, BitVec.add_sub_cancel] at shifted
          exact shifted.symm
        have number := congrArg BitVec.toNat zero
        rcases H.xlen_eq with rfl | rfl
        · rw [show BitVec.toNat (0 : BitVec 32) = 0 from rfl, toNat_ofNat] at number
          omega
        · rw [show BitVec.toNat (0 : BitVec 64) = 0 from rfl, toNat_ofNat] at number
          omega
      · intro zero
        rw [zero]
        exact base _
  · rw [if_neg selected]
    have exact_ : s.isInterrupt = false ∨ getField xtvec mtvecMode ≠ 1 := by
      by_cases mode1 : getField xtvec mtvecMode = 1
      · refine Or.inl ?_
        rw [← Bool.not_eq_true]
        exact fun interrupt => selected ⟨mode1, interrupt⟩
      · exact Or.inr mode1
    have skipped : (decide (getField xtvec mtvecMode = 1) && s.isInterrupt &&
        H.privilegeArchitecture.since110) = false := by
      rcases exact_ with exception | other
      · rw [exception, Bool.and_false, Bool.false_and]
      · rw [decide_eq_false other, Bool.false_and, Bool.false_and]
    rw [skipped]
    refine iff_of_true (base _) ?_
    rcases exact_ with exception | other
    · exact Or.inr (Or.inl exception)
    · exact Or.inr (Or.inr (Or.inr other))

theorem level_iff (H : Hart xlen) (m : TrapMode) (level : BitVec xlen) (reg : BitVec xlen) :
    setField reg m.level level = reg ↔ getField reg m.level = getField level ⟨0, 8⟩ := by
  have wide := H.le_xlen
  cases m
  · exact setField_eq_self_iff (by unfold TrapMode.level mintstatusMil; simp only; omega)
  · exact setField_eq_self_iff (by unfold TrapMode.level mintstatusSil; simp only; omega)

theorem stack_low (m : TrapMode) (i : Nat) (inside : ¬NotInStack m i) : i < 13 := by
  unfold NotInStack TrapMode.stack at inside
  cases m
  · simp [Field.Has, mstatusMie, mstatusMpie, mstatusMpp] at inside
    omega
  · simp [Field.Has, mstatusSie, mstatusSpie, mstatusSpp] at inside
    omega

theorem EntersMode.entryFollows_iff {m : TrapMode} (enters : EntersMode H s m s')
    (mode : Supported s.priv) (direct : s.cpuInClicMode = false) (less : s.cause < xlen)
    (entered : m = s.entryMode) : EntryFollows s s' ↔ EntryExact H s := by
  have which := entryMode_eq_target_iff H mode direct
  have vectored (same : m = s.target) :
      s'.pc = (s.xtvec s.target &&& ~~~mtvecMode.mask xlen) + BitVec.ofNat xlen
          (if getField (s.xtvec s.target) mtvecMode = 1 ∧ s.isInterrupt = true then 4 * s.cause
            else 0) ↔
        H.privilegeArchitecture.since110 = true ∨ s.isInterrupt = false ∨ s.cause = 0 ∨
          getField (s.xtvec s.target) mtvecMode ≠ 1 := by
    obtain ⟨xtvt, offered, pc⟩ := enters.pc
    rw [pc, same]
    exact handler_iff H mode direct less _ _ _
  have level (same : m = s.target) : s'.mintstatus = s.mintstatus ↔
      (s.isInterrupt = true → getField s.mintstatus s.target.level =
        getField (s.clicInterrupt.level.setWidth xlen) ⟨0, 8⟩) := by
    rw [enters.mintstatus, same]
    cases s.isInterrupt with
    | true => simpa using level_iff H s.target _ _
    | false => simp
  have settled (same : m = s.target) :
      (∀ i < xlen, NotInStack s.target i → s'.mstatus.getLsbD i = s.mstatus.getLsbD i) ↔
        Settled H s.mstatus := by
    obtain ⟨v, agree, mstatus⟩ := enters.mstatus
    rw [← same, mstatus]
    have only := written_only_iff (H := H) (m := s.mstatus) (v := v)
      (P := fun i => ¬NotInStack m i) (stack_low m)
      (fun i less inside => agree i less (not_not.mp inside))
    simpa only [not_not] using only
  constructor
  · intro follows
    have same : m = s.target := TrapMode.priv_injective H (enters.priv.symm.trans follows.priv)
    exact ⟨which.mp (entered.symm.trans same), (vectored same).mp follows.pc,
      (level same).mp follows.mintstatus, (settled same).mp follows.mstatus⟩
  · intro exact_
    have same : m = s.target := entered.trans (which.mpr exact_.shift)
    refine ⟨?_, ?_, ?_, (vectored same).mpr exact_.vectored,
      (settled same).mpr exact_.settled, ?_, ?_, ?_, (level same).mpr exact_.level,
      enters.untouched⟩
    · rw [enters.priv, same]
    · rw [← same, enters.xepc]
    · rw [← same, enters.xcause]
      exact fixedCause_eq H mode less
    · rw [← same, enters.otherXepc]
    · rw [← same, enters.otherXcause]
    · rw [← same, enters.otherXtval]

/-- Outside CLIC mode a trap enters the mode that the delegation registers ask for, and
writes what such an entry writes, under exactly these conditions. -/
theorem doInterrupt_follows_iff (H : Hart xlen) (s : State xlen) (mode : Supported s.priv)
    (direct : s.cpuInClicMode = false) (noNmi : s.nmiPending = 0)
    (pending : s.exceptionIndex ≠ excpNone) (less : s.cause < xlen) :
    ∃ s', doInterrupt H s = some s' ∧ (EntryFollows s s' ↔ EntryExact H s) := by
  obtain ⟨s', done, enters⟩ := doInterrupt_enters (H := H) direct noNmi pending
  exact ⟨s', done, enters.entryFollows_iff mode direct less rfl⟩

/-! ### Two traps -/

theorem xlen_64 : 64 = 32 ∨ 64 = 64 := .inr rfl

def sampleHart : Hart 64 where
  xlen_eq := xlen_64
  privilegeArchitecture := .priv112
  rvs := true
  rvu := true
  rvc := true
  nmiAddress := 0x1000
  nmiMcause := fun _ => 0
  ldpPhys := id
  clicAcknowledgeInterrupt := id
  clicClearEdgeInterrupt := id

/-- A hart in U-mode. -/
def sampleState (exceptionIndex : BitVec 32) (medeleg mideleg : BitVec 64) : State 64 where
  pc := 0x80000004
  priv := prvU
  mstatus := 0
  mtvec := 0x80001000
  mtvt := 0
  mepc := 0
  mcause := 0
  mtval := 0
  stvec := 0x80002001
  stvt := 0
  sepc := 0
  scause := 0
  stval := 0
  mintstatus := 0
  medeleg := medeleg
  mideleg := mideleg
  badaddr := 0
  opcode := 0
  reservedAddress := 0
  exceptionIndex := exceptionIndex
  nmiPending := 0
  clicInterrupt := { priv := 0, level := 0, vectored := false }

/-- An illegal instruction that is delegated. -/
theorem doInterrupt_follows_illegal : ∃ s', doInterrupt sampleHart (sampleState 2 4 0) = some s' ∧
      (EntryFollows (sampleState 2 4 0) s' ↔ EntryExact sampleHart (sampleState 2 4 0)) :=
  doInterrupt_follows_iff sampleHart (sampleState 2 4 0) (.inl rfl) (by decide) (by decide)
    (by decide) (by decide)

/-- The custom interrupt 33 is not delegated, and the software interrupt 1 is. -/
theorem interrupt33_delegated_as_1 :
    ¬∀ (H : Hart 64) (s s' : State 64), Supported s.priv → s.cpuInClicMode = false →
      s.nmiPending = 0 → s.exceptionIndex ≠ excpNone → s.cause < 64 →
      doInterrupt H s = some s' → EntryFollows s s' := by
  intro follows
  have done : ∃ s', doInterrupt sampleHart (sampleState 0x80000021 0 2) = some s' ∧
      s'.priv = prvS := by
    decide
  obtain ⟨s', done, priv⟩ := done
  have entered := (follows _ _ _ (.inl rfl) (by decide) (by decide) (by decide) (by decide)
    done).priv
  rw [priv] at entered
  exact absurd entered (by decide)

end Tlib.Riscv.Trap
