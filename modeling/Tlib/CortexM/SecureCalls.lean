import Tlib.CortexM.State

/-!
Contract: calls between the Security states.

Owns: `BXNS` and `BLXNS`, the secure gateway, and the return to Secure code with the frame that it
pops.
-/

namespace Tlib.CortexM

inductive SecurityAttribution where
  | nonSecure
  | secureNsc
  | secure
  deriving DecidableEq, Repr

def fncReturn : Word := 0xFEFFFFFF#32

/-- `ARM_M_FNC_RETURN_MIN` and `ARM_M_EXC_RETURN_MIN` -/
def fncReturnMin : Word := 0xFEFFFF00#32

def excReturnMin : Word := 0xFFFFFF80#32

/-- The word of the call frame that keeps the exception number and `CONTROL.SFPA`. -/
def Cpu.partialRetpsr (cpu : Cpu) : Word := cpu.exception ||| bitIf cpu.sfpa 20

/-- The call frame of `BLXNS`, whose refusal is not looked at. -/
def Cpu.pushCallFrame (cpu : Cpu) : Cpu × Bool :=
  cpu.v7mPushAll [cpu.pc ||| 1#32, cpu.partialRetpsr]

def Cpu.hideCaller (cpu : Cpu) : Cpu :=
  { cpu with
    lr := fncReturn
    exception := if cpu.inHandlerMode then 1#32 else cpu.exception }

def Cpu.leaveSecure (cpu : Cpu) : Cpu := { cpu with sfpa := false }.switchV7mSecurityState false

/-- `HELPER(v8m_blxns)`; the translator calls it in the Secure state only. -/
def Cpu.v8mBlxns (cpu : Cpu) (addr : Word) (link : Bool) : Cpu :=
  if !link && decide (fncReturnMin ≤ addr) then cpu
  else if addr.getLsbD 0 = false then
    if link then { cpu.pushCallFrame.1.leaveSecure.hideCaller with pc := addr &&& ~~~1#32 }
    else { cpu.leaveSecure with pc := addr &&& ~~~1#32 }
  else if link then { cpu with lr := cpu.pc ||| 1#32, pc := addr &&& ~~~1#32 }
  else { cpu with pc := addr &&& ~~~1#32 }

/-- The end of `HELPER(v8m_sg)`. -/
def Cpu.enterGateway (cpu : Cpu) : Cpu :=
  { ({ cpu with lr := cpu.lr &&& ~~~1#32 }.switchV7mSecurityState true) with sfpa := false }

/-- `INVEP` -/
def Cpu.invalidEntryPoint (cpu : Cpu) : Cpu :=
  { cpu with
    secureFaultStatus := cpu.secureFaultStatus ||| bitIf true 0
    exceptionIndex := .secure }

def Cpu.gatewaySp (cpu : Cpu) : Word :=
  if cpu.isUsingProcessSp false true then cpu.otherSsPsp else cpu.otherSsMsp

/-- `CCR.TRD`: no reentrancy, and no entry to code on the main stack. -/
def Cpu.refusesReentrancy (cpu : Cpu) : Bool :=
  cpu.trd && (decide (cpu.ldlPhys cpu.gatewaySp >>> 1 = 0xFEFA125A#32 >>> 1) ||
      !cpu.isUsingProcessSp false true)

/-- `HELPER(v8m_sg)`, by the attribution of the instruction's address. -/
def Cpu.v8mSg (cpu : Cpu) (attribution : SecurityAttribution) : Outcome :=
  if cpu.secure then .done cpu
  else if attribution ≠ .secureNsc then .done cpu
  else
    match cpu.getPhysAddr .load cpu.gatewaySp true (!cpu.inPrivilegedModeWithSecurity true) with
    | .success =>
      if cpu.refusesReentrancy then .loopExit cpu.invalidEntryPoint
      else .done cpu.enterGateway
    | refusal => .loopExit (cpu.accessRefused cpu.gatewaySp true refusal)

/-- `HELPER(v8m_bx_update_pc)`, by the attribution of the target. -/
def Cpu.v8mBxUpdatePc (F : Features) (cpu : Cpu) (attribution : SecurityAttribution)
    (pc : Word) : Outcome :=
  if pc < excReturnMin then
    if pc.getLsbD 0 = false then
      if F.hasTrustzone && !cpu.secure && decide (attribution ≠ .nonSecure) then
        .loopExit cpu.invalidEntryPoint
      else .loopExit { cpu with exceptionIndex := .invstate }
    else .done { cpu with pc := pc &&& ~~~1#32 }
  else .done { cpu with pc := pc }

/-- The pops of `do_v7m_secure_return`. -/
def Cpu.popCallFrame (cpu : Cpu) : Cpu :=
  { cpu.afterPops 2 with
    thumb := true
    -- The deposited bit is ORed in, so that the flag is never cleared here.
    sfpa := cpu.sfpa || (cpu.popped 0).getLsbD 20
    exception := cpu.popped 0 &&& ~~~bitIf true 20
    pc := cpu.popped 1 &&& ~~~1#32 }

def Cpu.doV7mSecureReturn (cpu : Cpu) : Cpu := (cpu.switchV7mSecurityState true).popCallFrame

end Tlib.CortexM
