import Tlib.CortexM.ExceptionExit

/-!
Contract: exception entry, `do_interrupt_v7m`.

Owns: what makes an exception pending, the frame with its basic, additional and extended words, the
registers that are cleared, and the way to the handler. Does not own: which exception is taken next;
it is an input.
-/

namespace Tlib.CortexM

open Tlib.Library.WordStack

/-- `BANKED_SECURE_EXCP` in the Secure state. -/
def Cpu.banked (cpu : Cpu) (number : Word) : Word :=
  if cpu.secure then number ||| bankedSecureExcpBit else number

def Cpu.setPendingIrq (cpu : Cpu) (number : Word) : Cpu :=
  { cpu with nvic := cpu.nvic ++ [.setPendingIrq number] }

def Cpu.setFaultStatus (cpu : Cpu) (status : Word) : Cpu :=
  { cpu with
    faultStatus := setBank cpu.faultStatus cpu.secure (cpu.faultStatus cpu.secure ||| status) }

/-- The branches of `do_interrupt_v7m` that only make an exception pending. -/
def Cpu.pendException (E : Environment) (cpu : Cpu) : Cpu :=
  match cpu.exceptionIndex with
  | .udef => (cpu.setPendingIrq (cpu.banked 6#32)).setFaultStatus (bitIf true 16)
  | .nocp => (cpu.setPendingIrq (cpu.banked 6#32)).setFaultStatus (bitIf true 19)
  | .invstate => (cpu.setPendingIrq (cpu.banked 6#32)).setFaultStatus (bitIf true 17)
  | .div0 => (cpu.setPendingIrq (cpu.banked 6#32)).setFaultStatus (bitIf true 25)
  | .swi => cpu.setPendingIrq (cpu.banked 11#32)
  | .prefetchAbort => (cpu.setFaultStatus (bitIf true 0)).setPendingIrq (cpu.banked 4#32)
  | .dataAbort =>
    (cpu.setFaultStatus (bitIf true 7 ||| bitIf true 1)).setPendingIrq (cpu.banked 4#32)
  | .bkpt =>
    if cpu.memory cpu.pc = 0xab#8 then
      { cpu with pc := cpu.pc + 2#32, r := setBank0 cpu.r E.semihosting }
    else cpu.setPendingIrq (cpu.banked 12#32)
  | .secure => cpu.setPendingIrq 7#32
  | .busFault => { cpu with nvic := cpu.nvic ++ [.setPendingSynchronousFault 5#32] }
  | .irq | .none => cpu
where
  setBank0 (r : Fin 13 → Word) (value : Word) : Fin 13 → Word := fun i =>
    if i.val = 0 then value else r i

/-- What is known before the exception is acknowledged. -/
def Cpu.excReturnBase (F : Features) (cpu : Cpu) : Word :=
  ((if F.v8 then 0xffffffb0#32
    else 0xfffffff1#32 ||| if cpu.inHandlerMode then 0 else bitIf (cpu.control false).spsel 2) |||
      bitIf (!cpu.inHandlerMode) 3) ^^^ bitIf cpu.fpca 4

/-- The bits that TrustZone adds. -/
def Cpu.excReturnTz (F : Features) (cpu : Cpu) (secureTarget : Bool) (lr : Word) : Word :=
  if F.hasTrustzone then
    (lr ||| bitIf cpu.secure 6) |||
      (((lr ||| bitIf cpu.secure 6) &&& ~~~1#32) ||| bitIf secureTarget 0)
  else lr

def Cpu.excReturn (F : Features) (cpu : Cpu) (secureTarget : Bool) : Word :=
  cpu.excReturnTz F secureTarget (cpu.excReturnBase F) |||
    if F.v8 then bitIf (cpu.control secureTarget).spsel 2 else 0

def secureTarget (F : Features) (E : Environment) (secure : Bool) (number : Word) : Bool × Word :=
  if F.hasTrustzone then
    if 16#32 ≤ number ∧ number < bankedSecureExcpBit then (E.targetsSecure number, number)
    else if number = 2#32 ∨ number = 5#32 then (E.targetsSecure number, number)
    else if number = 3#32 ∧ E.targetsSecure number = true then (true, number)
    else if number = 1#32 ∨ number = 7#32 then (true, number)
    else (number.getLsbD 30, number &&& ~~~bankedSecureExcpBit)
  else (secure, number)

/-- Whether the stack pointer is moved to a multiple of eight. -/
def Cpu.misaligned (cpu : Cpu) : Bool := cpu.sp.getLsbD 2

/-- The `xPSR` that is pushed. -/
def Cpu.stackedXpsr (cpu : Cpu) : Word :=
  cpu.xpsrRead ||| bitIf cpu.misaligned 9 ||| bitIf cpu.sfpa 20

def Cpu.aligned (cpu : Cpu) (number : Word) : Cpu :=
  { cpu with
    exception := number
    condexecBits := 0
    sp := if cpu.misaligned then cpu.sp - 4#32 else cpu.sp }

def Cpu.clearFpca (cpu : Cpu) : Cpu := { cpu with fpca := false, sfpa := false }

/-- The room for an extended frame that is written later. -/
def Cpu.reserveFp (cpu : Cpu) : Cpu :=
  { cpu with sp := cpu.sp - BitVec.ofNat 32 (4 * cpu.fpReservationWords) }

def Cpu.extendedPushes (F : Features) (cpu : Cpu) : List Word :=
  (if F.v8 && cpu.ts then cpu.calleeWords.reverse else []) ++
    [cpu.vprWord F, cpu.fpscr] ++ cpu.lowWords.reverse

def Cpu.fpuDisabledEntry (cpu : Cpu) (misaligned : Bool) : Cpu :=
  { cpu with
    sp := if misaligned then cpu.sp ||| 4#32 else cpu.sp
    exceptionIndex := .udef }

/-- The extended frame, or the room for it; `misaligned` tells what to undo. -/
def Cpu.pushExtended (F : Features) (cpu : Cpu) (misaligned : Bool) : Outcome :=
  if cpu.fpca then
    if cpu.lspen then .done (cpu.clearFpca.reserveFp.fpccrUpdate cpu.clearFpca.reserveFp.sp)
    else if !cpu.fpuEnabled then .loopExit (cpu.clearFpca.fpuDisabledEntry misaligned)
    else
      .done ((cpu.clearFpca.v7mPushAll (cpu.extendedPushes F)).1.invalidateVfpRegs cpu.ts)
  else .done cpu

def Cpu.basicWords (cpu : Cpu) (xpsr : Word) : List Word :=
  [cpu.r 0, cpu.r 1, cpu.r 2, cpu.r 3, cpu.r 12, cpu.lr, cpu.pc, xpsr]

def Cpu.additionalWords (cpu : Cpu) (lr : Word) : List Word :=
  [integritySignature lr, 0xDEADBEEF#32, cpu.r 4, cpu.r 5, cpu.r 6, cpu.r 7, cpu.r 8, cpu.r 9,
    cpu.r 10, cpu.r 11]

/-- `r0` to `r11` and `lr` are cleared on the way to the Non-secure state. -/
def Cpu.clearRegisters (cpu : Cpu) : Cpu :=
  { cpu with r := fun i => if i.val < 12 then 0 else cpu.r i, lr := 0 }

def Cpu.leavesSecure (F : Features) (cpu : Cpu) (lr : Word) : Bool :=
  F.hasTrustzone && (cpu.secure && !excReturnEs lr)

def Cpu.pushBasic (cpu : Cpu) (xpsr : Word) : Cpu × Bool :=
  cpu.v7mPushAll (cpu.basicWords xpsr).reverse

def Cpu.pushAdditional (cpu : Cpu) (lr : Word) : Cpu × Bool :=
  cpu.v7mPushAll (cpu.additionalWords lr).reverse

def Cpu.pushFrame (F : Features) (cpu : Cpu) (xpsr lr : Word) : Cpu × Bool :=
  if cpu.leavesSecure F lr then
    (((cpu.pushBasic xpsr).1.pushAdditional lr).1.clearRegisters,
      (cpu.pushBasic xpsr).2 || ((cpu.pushBasic xpsr).1.pushAdditional lr).2)
  else cpu.pushBasic xpsr

def Cpu.selectHandlerStack (F : Features) (cpu : Cpu) (lr : Word) : Cpu :=
  (if F.hasTrustzone then cpu.switchV7mSecurityState (excReturnEs lr) else cpu).switchV7mSp false

def Cpu.handlerAddress (cpu : Cpu) : Word :=
  cpu.ldlPhys (cpu.vecbase cpu.secure + cpu.exception * 4#32)

def Cpu.fetchHandler (cpu : Cpu) (lr : Word) : Cpu :=
  { cpu with
    sfpa := if cpu.secure then false else cpu.sfpa
    lr := lr
    pc := cpu.handlerAddress &&& 0xfffffffe#32
    thumb := cpu.handlerAddress.getLsbD 0 }

def Cpu.enterHandler (F : Features) (cpu : Cpu) (lr : Word) : Cpu :=
  (cpu.selectHandlerStack F lr).fetchHandler lr

/-- The end of `do_interrupt_v7m`, where a refused push is undone by a return. -/
def Cpu.reportStacking (F : Features) (E : Environment) (cpu : Cpu) (refused : Bool) : Outcome :=
  if refused then
    (cpu.doV7mExceptionExit F E).bind fun cpu =>
      .done ({ cpu with exceptionIndex := .dataAbort }.pendException E)
  else .done cpu

/-- The acknowledged exception, up to its extended frame. -/
def Cpu.beginEntry (F : Features) (cpu : Cpu) (number : Word) : Outcome :=
  (cpu.aligned number).pushExtended F cpu.misaligned

def Cpu.finishEntry (F : Features) (E : Environment) (cpu : Cpu) (xpsr lr : Word) : Outcome :=
  ((cpu.pushFrame F xpsr lr).1.enterHandler F lr).reportStacking F E (cpu.pushFrame F xpsr lr).2

/-- `do_interrupt_v7m` for `EXCP_IRQ`, with the number that the controller acknowledges. All other
exceptions are pended in the controller, by which they come back as one. -/
def Cpu.takeIrq (F : Features) (E : Environment) (cpu : Cpu) (acknowledged : Word) : Outcome :=
  if acknowledged = 0#32 then .done { cpu with exception := 0#32 }
  else
    (cpu.beginEntry F (secureTarget F E cpu.secure acknowledged).2).bind fun next =>
      next.finishEntry F E cpu.stackedXpsr
        (cpu.excReturn F (secureTarget F E cpu.secure acknowledged).1)

end Tlib.CortexM
