import Tlib.CortexM.FloatingPoint

/-!
Contract: the return from exceptions, `do_v7m_exception_exit`.

Owns: the steps of the return in the source's order, its integrity checks, and the frames that it
pops. Does not own: what the interrupt controller and the host answer, which is an environment.
-/

namespace Tlib.CortexM

open Tlib.Library.WordStack

/-- What the interrupt controller and the host answer. -/
structure Environment where
  /-- `tlib_nvic_interrupt_targets_secure` -/
  targetsSecure : Word → Bool
  /-- `tlib_do_semihosting` -/
  semihosting : Word

def allNonSecure : Environment := { targetsSecure := fun _ => false, semihosting := 0 }

def excReturnEs (type : Word) : Bool := type.getLsbD 0

def excReturnSpsel (type : Word) : Bool := type.getLsbD 2

def excReturnMode (type : Word) : Bool := type.getLsbD 3

def excReturnNfpca (type : Word) : Bool := type.getLsbD 4

def excReturnS (type : Word) : Bool := type.getLsbD 6

/-- `tz_v8m_should_pop_additional_registers` -/
def shouldPopAdditionalRegisters (type : Word) : Bool := !excReturnEs type && excReturnS type

def hasAdditional (F : Features) (type : Word) : Bool :=
  F.hasTrustzone && shouldPopAdditionalRegisters type

def bankedSecureExcpBit : Word := bitIf true 30

/-- `INTEGRITY_SIGN` with the bit that says whether there is an extended frame. -/
def integritySignature (type : Word) : Word := 0xFEFA125A#32 ||| bitIf (excReturnNfpca type) 0

def Cpu.clearFaultmask (cpu : Cpu) : Cpu :=
  if cpu.exception ≠ 2#32 then { cpu with faultmask := setBank cpu.faultmask cpu.secure 0 } else cpu

def Cpu.needSecureBit (F : Features) (E : Environment) (cpu : Cpu) : Bool :=
  if F.hasTrustzone && decide (cpu.exception < 16#32) then
    if cpu.exception = 2#32 ∨ cpu.exception = 5#32 ∨ cpu.exception = 1#32 ∨
        cpu.exception = 7#32 then false
    else if cpu.exception = 3#32 then
      if E.targetsSecure cpu.exception then false else cpu.secure
    else cpu.secure
  else false

def Cpu.completeIrq (F : Features) (E : Environment) (cpu : Cpu) : Cpu :=
  if cpu.exception ≠ 0#32 then
    { cpu with
      nvic := cpu.nvic ++ [.completeIrq (cpu.exception |||
          if cpu.needSecureBit F E then bankedSecureExcpBit else 0)] }
  else cpu

/-- `CONTROL.SPSEL` of the Security state that took the exception. -/
def Cpu.restoreSpsel (F : Features) (cpu : Cpu) (type : Word) : Cpu :=
  { cpu with
    control := setBank cpu.control (F.hasTrustzone && excReturnEs type)
      { cpu.control (F.hasTrustzone && excReturnEs type) with spsel := excReturnSpsel type } }

def Cpu.restoreSecurityState (F : Features) (cpu : Cpu) (type : Word) : Cpu :=
  if F.hasTrustzone then cpu.switchV7mSecurityState (excReturnS type) else cpu

/-- `Switch to the target stack` -/
def Cpu.selectReturnStack (F : Features) (cpu : Cpu) (type : Word) : Cpu :=
  let returning := (cpu.restoreSpsel F type).restoreSecurityState F type
  returning.switchV7mSp (returning.isUsingProcessSp (!excReturnMode type) returning.secure)

/-- `cpu_loop_exit` with a Secure fault. -/
def Cpu.secureFault (cpu : Cpu) (status : Word) : Outcome :=
  .loopExit { cpu with
    secureFaultStatus := cpu.secureFaultStatus ||| status
    exceptionIndex := .secure }

def Cpu.clearOnReturn (cpu : Cpu) : Outcome :=
  if cpu.fpca && cpu.clronret then
    if (cpu.fpccr true).lspact then cpu.secureFault (bitIf true 7)
    else
      .done { cpu with
        s := fun i => if i.val < 16 then 0 else cpu.s i
        fpscr := 0
        vpr := 0 }
  else .done cpu

/-- `r4` to `r11`, above the signature and a reserved word. -/
def Cpu.restoreCallee (cpu : Cpu) : Cpu :=
  { cpu.afterPops 10 with
    r := fun i => if 4 ≤ i.val ∧ i.val < 12 then cpu.popped (i.val - 2) else cpu.r i }

/-- The address that `INVIS` reports. -/
def Cpu.setSecureFaultAddress (cpu : Cpu) (address : Word) : Cpu :=
  { cpu with secureFaultAddress := address }

def Cpu.popAdditional (F : Features) (cpu : Cpu) (type : Word) : Outcome :=
  if hasAdditional F type then
    if cpu.popped 0 ≠ integritySignature type then
      ((cpu.afterPops 1).setSecureFaultAddress cpu.pc).secureFault (bitIf true 1)
    else .done cpu.restoreCallee
  else .done cpu

def Cpu.restoreBasic (cpu : Cpu) : Cpu :=
  { cpu.afterPops 8 with
    r := fun i => if i.val < 4 then cpu.popped i.val else if i.val = 12 then cpu.popped 4
      else cpu.r i
    lr := cpu.popped 5
    pc := cpu.popped 6 &&& ~~~1#32
    sfpa := cpu.sfpa || (cpu.popped 7).getLsbD 20 }

def Cpu.popBasic (cpu : Cpu) : Cpu := cpu.restoreBasic.xpsrWrite (cpu.popped 7) 0xfffffdff#32

/-- Whether an extended frame has `s16` to `s31`. -/
def Cpu.popsCallee (F : Features) (cpu : Cpu) : Bool := F.v8 && cpu.secure && cpu.ts

def Cpu.popFpRegisters (F : Features) (cpu : Cpu) : Cpu :=
  { cpu.afterPops (18 + if cpu.popsCallee F then 16 else 0) with
    s := fun i =>
      if i.val < 16 then cpu.popped i.val
      else if cpu.popsCallee F then cpu.popped (i.val + 2)
      else cpu.s i
    fpscr := cpu.popped 16
    vpr := cpu.popped 17 }

/-- The frame that lazy preservation has not written: only the room for it is freed. -/
def Cpu.dropReservation (cpu : Cpu) : Cpu :=
  { cpu.afterPops cpu.fpReservationWords with
    fpccr := setBank cpu.fpccr cpu.secure { cpu.fpccr cpu.secure with lspact := false } }

def Cpu.fpuDisabledExit (F : Features) (cpu : Cpu) (type : Word) : Cpu :=
  { cpu with
    sp := cpu.sp - 0x20#32 - if hasAdditional F type then 40#32 else 0
    fpca := false
    exceptionIndex := .udef }

def Cpu.popExtended (F : Features) (cpu : Cpu) (type : Word) : Outcome :=
  if excReturnNfpca type then .done cpu
  else if !cpu.secure && (cpu.fpccr true).lspact then cpu.secureFault (bitIf true 7)
  else if (cpu.fpccr cpu.secure).lspact then .done cpu.dropReservation
  else if !cpu.fpuEnabled then .loopExit (cpu.fpuDisabledExit F type)
  else .done (cpu.popFpRegisters F)

def Cpu.finishExit (cpu : Cpu) (type xpsr : Word) : Cpu :=
  { cpu with
    fpca := !excReturnNfpca type
    sp := if xpsr.getLsbD 9 then cpu.sp ||| 4#32 else cpu.sp }

/-- The basic frame and what lies above it. -/
def Cpu.popRest (F : Features) (cpu : Cpu) (type : Word) : Outcome :=
  (cpu.popBasic.popExtended F type).bind fun last => .done (last.finishExit type (cpu.popped 7))

/-- Everything from `Pop registers` on. -/
def Cpu.popFrame (F : Features) (cpu : Cpu) (type : Word) : Outcome :=
  (cpu.popAdditional F type).bind fun next => next.popRest F type

/-- The steps after the checks of `EXC_RETURN`. -/
def Cpu.unstack (F : Features) (E : Environment) (cpu : Cpu) : Outcome :=
  (((cpu.completeIrq F E).selectReturnStack F cpu.pc).clearOnReturn).bind fun next =>
    next.popFrame F cpu.pc

def Cpu.doV7mExceptionExit (F : Features) (E : Environment) (cpu : Cpu) : Outcome :=
  if F.hasTrustzone && !cpu.secure && excReturnEs cpu.pc then
    cpu.clearFaultmask.secureFault (bitIf true 2)
  else cpu.clearFaultmask.unstack F E

end Tlib.CortexM
