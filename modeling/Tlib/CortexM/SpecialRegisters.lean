import Tlib.CortexM.State

/-!
Contract: `MRS` and `MSR` of the special registers.

Owns: `HELPER(v7m_mrs)` and `HELPER(v7m_msr)`, register by register, for both Security states.
-/

namespace Tlib.CortexM

/-- The special registers; `ns` tells the encoding that ends in `_NS`. -/
inductive SpecialRegister where
  | apsr
  | iapsr
  | eapsr
  | xpsr
  | ipsr
  | epsr
  | iepsr
  | msp (ns : Bool)
  | psp (ns : Bool)
  | msplim (ns : Bool)
  | psplim (ns : Bool)
  | primask (ns : Bool)
  | basepri (ns : Bool)
  | basepriMax
  | faultmask (ns : Bool)
  | control (ns : Bool)
  | spNs
  deriving DecidableEq, Repr

def SpecialRegister.isRegNs : SpecialRegister → Bool
  | .msp ns | .psp ns | .msplim ns | .psplim ns | .primask ns | .basepri ns | .faultmask ns
  | .control ns => ns
  | .spNs => true
  | _ => false

/-- The word of `CONTROL`. -/
def Cpu.controlRead (cpu : Cpu) (isSecure : Bool) : Word :=
  bitIf (cpu.control isSecure).nPriv 0 ||| bitIf (cpu.control isSecure).spsel 1 |||
    bitIf cpu.fpca 2 ||| bitIf (isSecure && cpu.sfpa) 3

def Cpu.v7mMrs (cpu : Cpu) (reg : SpecialRegister) : Word :=
  if reg.isRegNs && !cpu.secure then 0
  else
    let isSecure := cpu.secure && !reg.isRegNs
    match reg with
    | .apsr => cpu.xpsrRead &&& 0xf8000000#32
    | .iapsr => cpu.xpsrRead &&& 0xf80001ff#32
    | .eapsr => cpu.xpsrRead &&& 0xff00fc00#32
    | .xpsr => cpu.xpsrRead &&& 0xff00fdff#32
    | .ipsr => cpu.xpsrRead &&& 0x000001ff#32
    | .epsr => cpu.xpsrRead &&& 0x0700fc00#32
    | .iepsr => cpu.xpsrRead &&& 0x0700edff#32
    | .msp false => cpu.getMsp
    | .msp true => cpu.otherSsMsp
    | .psp false => cpu.getPsp
    | .psp true => cpu.otherSsPsp
    | .msplim _ => cpu.msplim isSecure
    | .psplim _ => cpu.psplim isSecure
    | .primask _ => bitIf ((cpu.primask isSecure).getLsbD 0) 0
    | .basepri _ | .basepriMax => cpu.basepri isSecure
    | .faultmask _ => cpu.faultmask isSecure
    | .control _ => cpu.controlRead isSecure
    | .spNs =>
      if cpu.isUsingProcessSp cpu.inHandlerMode false then cpu.otherSsPsp else cpu.otherSsMsp

/-- Bits [1:0] of the stack pointers ignore writes. -/
def spMask (val : Word) : Word := val &&& 0xFFFFFFFC#32

/-- `CONTROL.SFPA`, which user code may write. -/
def Cpu.writeSfpa (cpu : Cpu) (isSecure : Bool) (val : Word) : Cpu :=
  { cpu with sfpa := if isSecure then val.getLsbD 3 else cpu.sfpa }

/-- The other bits of `CONTROL`. -/
def Cpu.writeControlBits (cpu : Cpu) (isSecure : Bool) (val : Word) : Cpu :=
  { cpu with
    control := setBank cpu.control isSecure ⟨val.getLsbD 0, val.getLsbD 1⟩
    fpca := if isSecure || cpu.nsacrCp10 then val.getLsbD 2 else cpu.fpca }

/-- `only switch the stack if in thread mode` -/
def Cpu.reselectStack (cpu : Cpu) (isSecure : Bool) : Cpu :=
  if isSecure = cpu.secure then cpu.switchV7mSp cpu.isUsingProcessSpCurrent else cpu

def Cpu.writeControl (cpu : Cpu) (isSecure : Bool) (val : Word) : Cpu :=
  if !(cpu.writeSfpa isSecure val).inPrivilegedMode then cpu.writeSfpa isSecure val
  else ((cpu.writeSfpa isSecure val).writeControlBits isSecure val).reselectStack isSecure

/-- `BASEPRI_MAX` -/
def Cpu.raiseBasepri (cpu : Cpu) (isSecure : Bool) (val : Word) : Cpu :=
  if val ≠ 0 ∧ (val < cpu.basepri isSecure ∨ cpu.basepri isSecure = 0) then
    { cpu with basepri := setBank cpu.basepri isSecure val }
  else cpu

def Cpu.writeMasks (cpu : Cpu) (reg : SpecialRegister) (isSecure : Bool) (val : Word) : Cpu :=
  if !cpu.inPrivilegedMode then cpu
  else
    match reg with
    | .apsr | .iapsr => cpu.xpsrWrite val 0xf8000000#32
    | .eapsr | .xpsr => cpu.xpsrWrite val 0xfe00fc00#32
    | .epsr | .iepsr => cpu.xpsrWrite val 0x0600fc00#32
    | .primask _ =>
      { cpu with
        primask := setBank cpu.primask isSecure
          (if val.getLsbD 0 then cpu.primask isSecure ||| 1#32
          else cpu.primask isSecure &&& ~~~1#32) }
    | .basepri _ => { cpu with basepri := setBank cpu.basepri isSecure (val &&& 0xff#32) }
    | .basepriMax => cpu.raiseBasepri isSecure (val &&& 0xff#32)
    | .faultmask _ => { cpu with faultmask := setBank cpu.faultmask isSecure (val &&& 1#32) }
    | _ => cpu

/-- `env->v7m.other_ss_msp` is written. -/
def Cpu.setOtherSsMsp (cpu : Cpu) (value : Word) : Cpu := { cpu with otherSsMsp := value }

/-- `env->v7m.other_ss_psp` is written. -/
def Cpu.setOtherSsPsp (cpu : Cpu) (value : Word) : Cpu := { cpu with otherSsPsp := value }

def Cpu.writeMsp (cpu : Cpu) (ns : Bool) (val : Word) : Cpu :=
  if ns then cpu.setOtherSsMsp (spMask val)
  else if !cpu.inPrivilegedMode then cpu
  else cpu.setMsp (spMask val)

def Cpu.writePsp (cpu : Cpu) (ns : Bool) (val : Word) : Cpu :=
  if ns then cpu.setOtherSsPsp (spMask val) else cpu.setPsp (spMask val)

def Cpu.writeSpNs (cpu : Cpu) (val : Word) : Cpu :=
  if cpu.isUsingProcessSp cpu.inHandlerMode false then cpu.setOtherSsPsp (spMask val)
  else cpu.setOtherSsMsp (spMask val)

/-- The `switch` of `HELPER(v7m_msr)`. -/
def Cpu.writeSpecial (cpu : Cpu) (reg : SpecialRegister) (isSecure : Bool) (val : Word) : Cpu :=
  match reg with
  | .msp ns => cpu.writeMsp ns val
  | .psp ns => cpu.writePsp ns val
  | .msplim _ => { cpu with msplim := setBank cpu.msplim isSecure val }
  | .psplim _ => { cpu with psplim := setBank cpu.psplim isSecure val }
  | .control _ => cpu.writeControl isSecure val
  | .spNs => cpu.writeSpNs val
  | other => cpu.writeMasks other isSecure val

def Cpu.v7mMsr (cpu : Cpu) (reg : SpecialRegister) (val : Word) : Cpu :=
  if reg.isRegNs && !cpu.secure then cpu
  else cpu.writeSpecial reg (cpu.secure && !reg.isRegNs) val

end Tlib.CortexM
