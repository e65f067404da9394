import Tlib.Library.WordStack

/-!
Contract: the state of a Cortex-M core.

Owns: the registers and the two banks of the Security states. Does not own: exceptions, calls
between the Security states, and the protection unit, which is known by what it answers.
-/

namespace Tlib.CortexM

open Tlib.Library.WordStack

abbrev Word := BitVec 32

/-- The numbered registers below the stack pointer. -/
scoped instance thirteenRegisters : NeZero 13 := ⟨by decide⟩

/-- What the core is built with. -/
structure Features where
  (v8 mve hasTrustzone : Bool)
  v8_of_trustzone : hasTrustzone = true → v8 = true

def Features.v7m : Features :=
  { v8 := false, mve := false, hasTrustzone := false, v8_of_trustzone := by decide }

def Features.v8m : Features :=
  { v8 := true, mve := false, hasTrustzone := true, v8_of_trustzone := by decide }

inductive AccessType where
  | load
  | store
  | fetch
  deriving DecidableEq, Repr

inductive ExceptionIndex where
  | none
  | udef
  | swi
  | prefetchAbort
  | dataAbort
  | irq
  | bkpt
  | nocp
  | invstate
  | secure
  | div0
  | busFault
  deriving DecidableEq, Repr

/-- What `get_phys_addr` answers; where it succeeds the address is not changed. -/
inductive Translation where
  | success
  | fail
  /-- The attribution of the address refuses it, with the bits for the secure fault status. -/
  | secureFault (status : Word)
  deriving DecidableEq, Repr

inductive NvicCall where
  | setPendingIrq (number : Word)
  | setPendingSynchronousFault (number : Word)
  | completeIrq (number : Word)
  deriving DecidableEq, Repr

/-- The bits of `CONTROL` that are banked. -/
structure Control where
  (nPriv spsel : Bool)
  deriving DecidableEq, Repr

/-- The bits of `FPCCR` that are banked. -/
structure Fpccr where
  (lspact user thread aspen : Bool)
  deriving DecidableEq, Repr

/-- `CPUState`. Banks are indexed by whether they are the Secure one. -/
structure Cpu where
  /-- `regs[0]` to `regs[12]` -/
  r : Fin 13 → Word
  /-- `regs[13]`, the active stack pointer. -/
  (sp lr pc otherSp otherSsMsp otherSsPsp : Word)
  (processSp secure : Bool)
  exception : Word
  control : Bool → Control
  /-- `CONTROL.FPCA` and `CONTROL.SFPA`, which are not banked. -/
  (fpca sfpa n z c v q : Bool)
  ge : BitVec 4
  thumb : Bool
  condexecBits : BitVec 8
  /-- `s0` to `s31`, the halves of `vfp.regs`. -/
  s : Fin 32 → Word
  /-- The word that `vfp_set_fpscr` takes apart and `vfp_get_fpscr` puts together again. -/
  (fpscr vpr : Word)
  /-- `ARM_VFP_FPEXC_FPUEN_MASK` -/
  fpuEnabled : Bool
  fpccr : Bool → Fpccr
  (lspen clronret ts fpccrS : Bool)
  (fpcar fpdscr vecbase basepri primask faultmask msplim psplim : Bool → Word)
  /-- `CCR.TRD` and `NSACR.CP10` -/
  (trd nsacrCp10 : Bool)
  (faultStatus memoryFaultAddress : Bool → Word)
  (secureFaultStatus secureFaultAddress : Word)
  exceptionIndex : ExceptionIndex
  nvic : List NvicCall
  memory : Memory 32
  /-- `get_phys_addr` by kind of access, address, Security state and whether for a user. -/
  getPhysAddr : AccessType → Word → Bool → Bool → Translation

/-- A core in Thread mode whose registers are all zero, with memory that grants every access. -/
def Cpu.atRest (secure : Bool) : Cpu :=
  { r := fun _ => 0
    sp := 0x2000#32
    lr := 0
    pc := 0x100#32
    otherSp := 0x3000#32
    otherSsMsp := 0x4000#32
    otherSsPsp := 0x5000#32
    processSp := false
    secure := secure
    exception := 0
    control := fun _ => { nPriv := false, spsel := false }
    fpca := false
    sfpa := false
    n := false
    z := false
    c := false
    v := false
    q := false
    ge := 0
    thumb := true
    condexecBits := 0
    s := fun _ => 0
    fpscr := 0
    vpr := 0
    fpuEnabled := true
    fpccr := fun _ => { lspact := false, user := false, thread := false, aspen := true }
    lspen := true
    clronret := false
    ts := false
    fpccrS := false
    fpcar := fun _ => 0
    fpdscr := fun _ => 0
    vecbase := fun _ => 0
    basepri := fun _ => 0
    primask := fun _ => 0
    faultmask := fun _ => 0
    msplim := fun _ => 0
    psplim := fun _ => 0
    trd := false
    nsacrCp10 := true
    faultStatus := fun _ => 0
    memoryFaultAddress := fun _ => 0
    secureFaultStatus := 0
    secureFaultAddress := 0
    exceptionIndex := .none
    nvic := []
    memory := fun _ => 0
    getPhysAddr := fun _ _ _ _ => .success }

/-- A helper returns, or leaves the block through `cpu_loop_exit`. -/
inductive Outcome where
  | done (cpu : Cpu)
  | loopExit (cpu : Cpu)

def Outcome.cpu : Outcome → Cpu
  | .done cpu => cpu
  | .loopExit cpu => cpu

def Outcome.bind (o : Outcome) (next : Cpu → Outcome) : Outcome :=
  match o with
  | .done cpu => next cpu
  | .loopExit cpu => .loopExit cpu

@[simp] theorem Outcome.done_bind (cpu : Cpu) (next : Cpu → Outcome) :
    (Outcome.done cpu).bind next = next cpu := rfl

@[simp] theorem Outcome.loopExit_bind (cpu : Cpu) (next : Cpu → Outcome) :
    (Outcome.loopExit cpu).bind next = .loopExit cpu := rfl

@[simp] theorem Outcome.done_cpu (cpu : Cpu) : (Outcome.done cpu).cpu = cpu := rfl

@[simp] theorem Outcome.loopExit_cpu (cpu : Cpu) : (Outcome.loopExit cpu).cpu = cpu := rfl

def bitIf (b : Bool) (n : Nat) : Word := if b then 1#32 <<< n else 0

theorem bitIf_getLsbD (b : Bool) (n i : Nat) (inside : i < 32) :
    (bitIf b n).getLsbD i = (b && decide (i = n)) := by
  unfold bitIf
  cases b with
  | false => simp
  | true =>
    rw [if_pos rfl, Bool.true_and, BitVec.getLsbD_shiftLeft, BitVec.getLsbD_one]
    simp only [inside, decide_true, Bool.true_and]
    by_cases same : i = n
    · simp [same]
    · simp only [same, decide_false, Bool.and_eq_false_iff, Bool.not_eq_false',
        decide_eq_true_eq, decide_eq_false_iff_not]
      omega

def setBank {α : Type} (bank : Bool → α) (secure : Bool) (value : α) : Bool → α := fun other =>
  if other = secure then value else bank other

@[simp] theorem setBank_same {α : Type} (bank : Bool → α) (secure : Bool) (value : α) :
    setBank bank secure value secure = value := if_pos rfl

theorem setBank_other {α : Type} (bank : Bool → α) {secure other : Bool} (value : α)
    (ne : other ≠ secure) : setBank bank secure value other = bank other := if_neg ne

def Cpu.inHandlerMode (cpu : Cpu) : Bool := cpu.exception ≠ 0#32

def Cpu.isUsingProcessSp (cpu : Cpu) (isHandler isSecure : Bool) : Bool :=
  !isHandler && (cpu.control isSecure).spsel

def Cpu.isUsingProcessSpCurrent (cpu : Cpu) : Bool :=
  cpu.isUsingProcessSp cpu.inHandlerMode cpu.secure

def Cpu.inPrivilegedModeWithSecurity (cpu : Cpu) (isSecure : Bool) : Bool :=
  cpu.inHandlerMode || !(cpu.control isSecure).nPriv

def Cpu.inPrivilegedMode (cpu : Cpu) : Bool := cpu.inPrivilegedModeWithSecurity cpu.secure

def Cpu.inUserMode (cpu : Cpu) : Bool := !cpu.inPrivilegedMode

def Cpu.xpsrRead (cpu : Cpu) : Word :=
  bitIf cpu.n 31 ||| bitIf cpu.z 30 ||| bitIf cpu.c 29 ||| bitIf cpu.v 28 ||| bitIf cpu.q 27 |||
    bitIf cpu.thumb 24 ||| ((cpu.condexecBits.setWidth 32 &&& 3#32) <<< 25) |||
    ((cpu.condexecBits.setWidth 32 &&& 0xfc#32) <<< 8) ||| cpu.exception

/-- The writes of `condexec_bits`, one after the other. -/
def writeCondexecLow (bits : BitVec 8) (val mask : Word) : BitVec 8 :=
  if mask &&& 0x06000000#32 ≠ 0 then (bits &&& ~~~3#8) ||| ((val >>> 25) &&& 3#32).setWidth 8
  else bits

def writeCondexecHigh (bits : BitVec 8) (val mask : Word) : BitVec 8 :=
  if mask &&& 0xfc00#32 ≠ 0 then (bits &&& 3#8) ||| ((val >>> 8) &&& 0xfc#32).setWidth 8 else bits

def Cpu.xpsrWrite (cpu : Cpu) (val mask : Word) : Cpu :=
  { cpu with
    n := if mask &&& 0xf0000000#32 ≠ 0 then val.getLsbD 31 else cpu.n
    z := if mask &&& 0xf0000000#32 ≠ 0 then val.getLsbD 30 else cpu.z
    c := if mask &&& 0xf0000000#32 ≠ 0 then val.getLsbD 29 else cpu.c
    v := if mask &&& 0xf0000000#32 ≠ 0 then val.getLsbD 28 else cpu.v
    q := if mask &&& 0x08000000#32 ≠ 0 then val.getLsbD 27 else cpu.q
    thumb := if mask &&& 0x01000000#32 ≠ 0 then val.getLsbD 24 else cpu.thumb
    condexecBits := writeCondexecHigh (writeCondexecLow cpu.condexecBits val mask) val mask
    exception := if mask &&& 0x1ff#32 ≠ 0 then val &&& 0x1ff#32 else cpu.exception }

def Cpu.getMsp (cpu : Cpu) : Word := if cpu.processSp then cpu.otherSp else cpu.sp

def Cpu.getPsp (cpu : Cpu) : Word := if cpu.processSp then cpu.sp else cpu.otherSp

def Cpu.setMsp (cpu : Cpu) (value : Word) : Cpu :=
  if cpu.processSp then { cpu with otherSp := value } else { cpu with sp := value }

def Cpu.setPsp (cpu : Cpu) (value : Word) : Cpu :=
  if cpu.processSp then { cpu with sp := value } else { cpu with otherSp := value }

def Cpu.switchV7mSp (cpu : Cpu) (process : Bool) : Cpu :=
  if cpu.processSp ≠ process then
    { cpu with otherSp := cpu.sp, sp := cpu.otherSp, processSp := process }
  else cpu

/-- `cpu_abort` without TrustZone is not modelled: no caller asks for it then. -/
def Cpu.switchV7mSecurityState (cpu : Cpu) (secure : Bool) : Cpu :=
  if secure = cpu.secure then cpu
  else
    -- `is_using_process_sp_current`, after `env->secure` has been written.
    let process := cpu.isUsingProcessSp cpu.inHandlerMode secure
    { cpu with
      secure := secure
      processSp := process
      sp := if process then cpu.otherSsPsp else cpu.otherSsMsp
      otherSp := if process then cpu.otherSsMsp else cpu.otherSsPsp
      otherSsMsp := cpu.getMsp
      otherSsPsp := cpu.getPsp }

/-- The effects of a refused access in `get_phys_addr`. -/
def Cpu.accessRefused (cpu : Cpu) (address : Word) (isSecure : Bool) : Translation → Cpu
  | .success => cpu
  | .fail =>
    { cpu with
      memoryFaultAddress := setBank cpu.memoryFaultAddress isSecure address
      exceptionIndex := .dataAbort }
  | .secureFault status =>
    { cpu with
      secureFaultAddress := address
      secureFaultStatus := cpu.secureFaultStatus ||| status
      exceptionIndex := .secure }

def Cpu.pushWord (cpu : Cpu) (val : Word) : Cpu :=
  { cpu with sp := cpu.sp - 4#32, memory := store cpu.memory (cpu.sp - 4#32) val }

/-- `MSTKERR` -/
def Cpu.stackingError (cpu : Cpu) (address : Word) : Cpu :=
  { cpu with
    memoryFaultAddress := setBank cpu.memoryFaultAddress cpu.secure address
    faultStatus := setBank cpu.faultStatus cpu.secure
      (cpu.faultStatus cpu.secure ||| bitIf true 4) }

def Cpu.v7mPush (cpu : Cpu) (val : Word) : Cpu × Bool :=
  match cpu.getPhysAddr .store (cpu.sp - 4#32) cpu.secure (!cpu.inPrivilegedMode) with
  | .success => (cpu.pushWord val, false)
  | refusal =>
    ((cpu.accessRefused (cpu.sp - 4#32) cpu.secure refusal).stackingError (cpu.sp - 4#32), true)

def Cpu.v7mPushAll (cpu : Cpu) : List Word → Cpu × Bool
  | [] => (cpu, false)
  | val :: vals =>
    let first := cpu.v7mPush val
    let rest := first.1.v7mPushAll vals
    (rest.1, first.2 || rest.2)

/-- What the pop returns after `i` others. -/
def Cpu.popped (cpu : Cpu) (i : Nat) : Word := load cpu.memory (cpu.sp + BitVec.ofNat 32 (4 * i))

def Cpu.afterPops (cpu : Cpu) (count : Nat) : Cpu :=
  { cpu with sp := cpu.sp + BitVec.ofNat 32 (4 * count) }

def Cpu.ldlPhys (cpu : Cpu) (address : Word) : Word := load cpu.memory address

end Tlib.CortexM
