import Tlib.Riscv.CustomCsrs
import Tlib.Riscv.PageWalk
import Tlib.Riscv.Pmp
import Tlib.Riscv.TrapReturn
import Tlib.Softmmu.TlbFlush

/-!
Contract: a hart with everything that decides a translation.

Owns: the registers, the PMP and the TLB together, the writers of each with their flushes, and that
the trap model is a part of this one.
-/

namespace Tlib.Riscv.Translation

open Tlib.Library.BitFields
open Tlib.Riscv.CustomCsrs (notPresent)
open Tlib.Riscv.Paging
open Tlib.Riscv.Trap hiding prvM
open Tlib.Softmmu

variable {xlen : Nat}

/-- The callbacks of an external PMP, what it keeps, and whether it has flushed. -/
structure ExternalPmp where
  Device : Type
  (cfgCsrWrite addressCsrWrite : Nat → Nat → Device → Device × Bool)
  /-- The callback can read the mode and `mseccfg`. -/
  getAccess : Device → Mseccfg → HartMode → Nat → Nat → AccessType → Nat
  findOverlapping : Device → Nat → Nat → Nat → Option Nat
  isAnyRegionLocked : Device → Bool

/-- What does not change. -/
structure Platform (xlen : Nat) where
  hart : Hart xlen
  pmp : PmpHart
  tlb : TlbTarget
  external : ExternalPmp
  longBits_eq : pmp.longBits = xlen
  privilege111_eq : pmp.privilege111 = hart.privilegeArchitecture.since111
  tlbLongBits_eq : tlb.longBits = xlen
  pageBits_eq : tlb.pageBits = pgshift
  /-- `NB_MMU_MODES` -/
  nbMmuModes_eq : tlb.nbMmuModes = 4

structure Cpu (P : Platform xlen) where
  trap : State xlen
  (satp sptbr : BitVec xlen)
  pmp : PmpState
  useExternalPmp : Bool
  external : P.external.Device
  tlb : TlbState

def targetPhysAddrSpaceBits (xlen : Nat) : Nat := if xlen = 32 then 34 else 56

def satpAsid (xlen : Nat) : Field := if xlen = 32 then ⟨22, 9⟩ else ⟨44, 16⟩

/-- `SATP_MODE | SATP_ASID | SATP_PPN` -/
def satpMask (xlen : Nat) : BitVec xlen :=
  (satpMode xlen).mask xlen ||| (satpAsid xlen).mask xlen ||| (satpPpn xlen).mask xlen

/-- The fields of `mstatus` whose changes flush the TLB. -/
def flushFields (H : Hart xlen) : List Field :=
  [mstatusMxr, mstatusMpp, mstatusMprv, mstatusSum] ++
    if H.privilegeArchitecture.since110 then [] else [mstatusVm]

def flushMask (H : Hart xlen) : BitVec xlen :=
  (flushFields H).foldl (fun mask f => mask ||| f.mask xlen) 0

/-- The word is compared as it comes, before what is not allowed is taken out. -/
def mstatusFlushes (H : Hart xlen) (mstatus valToWrite : BitVec xlen) : Bool :=
  (valToWrite ^^^ mstatus) &&& flushMask H ≠ 0

def mseccfgOf (valToWrite : BitVec xlen) : Mseccfg where
  mml := valToWrite.getLsbD 0
  mmwp := valToWrite.getLsbD 1
  rlb := valToWrite.getLsbD 2

/-- The registers that take part in a translation, with their numbers. -/
inductive TranslationCsr where
  | mstatus
  | sstatus
  /-- `CSR_SATP`, also `CSR_SPTBR` -/
  | satp
  | mseccfg
  | pmpcfg (regIndex : Fin 16)
  | pmpaddr (addrIndex : Fin 64)
  deriving DecidableEq, Repr

def TranslationCsr.number : TranslationCsr → Nat
  | .mstatus => 0x300
  | .sstatus => 0x100
  | .satp => 0x180
  | .mseccfg => 0x747
  | .pmpcfg regIndex => 0x3A0 + regIndex
  | .pmpaddr addrIndex => 0x3B0 + addrIndex

namespace Cpu

variable {P : Platform xlen} (c : Cpu P) (valToWrite : BitVec xlen)

def tlbFlush : Cpu P := { c with tlb := Softmmu.tlbFlush P.tlb c.tlb true }

def setTrap (s : State xlen) : Cpu P := { c with trap := s }

def writeMstatus : Cpu P :=
  let flushed := if mstatusFlushes P.hart c.trap.mstatus valToWrite then c.tlbFlush else c
  flushed.setTrap (Trap.writeMstatus P.hart c.trap valToWrite)

def writeSstatus : Cpu P :=
  c.writeMstatus ((c.trap.mstatus &&& ~~~sstatusMask) ||| (valToWrite &&& sstatusMask))

def writeMcause : Cpu P :=
  let c := c.setTrap { c.trap with mcause := valToWrite }
  if c.trap.cpuInClicMode then
    let newMstatus := setField c.trap.mstatus mstatusMpp (getField c.trap.mcause causePp)
    let newMstatus := setField newMstatus mstatusMpie (getField c.trap.mcause causePie)
    let c := c.writeMstatus newMstatus
    c.setTrap { c.trap with mcause := mirrored c.trap.mcause c.trap.mstatus }
  else c

def writeScause : Cpu P := c.setTrap (Trap.writeScause c.trap valToWrite)

/-- `none` stands for an illegal instruction. -/
def writeSatp : Option (Cpu P) :=
  if !P.hart.privilegeArchitecture.since110 then
    if valToWrite ^^^ c.sptbr ≠ 0 then
      let mask : BitVec xlen := ((1 : BitVec xlen) <<< (targetPhysAddrSpaceBits xlen - pgshift)) - 1
      some { c.tlbFlush with sptbr := valToWrite &&& mask }
    else some c
  else if validateVm P.hart (getField valToWrite (satpMode xlen)) &&
      (valToWrite ^^^ c.satp) &&& satpMask xlen ≠ 0 then
    if c.trap.priv = prvS && getField c.trap.mstatus mstatusTvm ≠ 0 then none
    else some { c.tlbFlush with satp := valToWrite }
  else some c

def pmpIsAnyRegionLocked : Bool :=
  if c.useExternalPmp then P.external.isAnyRegionLocked c.external
  else Riscv.pmpIsAnyRegionLocked P.pmp c.pmp

def writeMseccfg : Option (Cpu P) :=
  if !P.pmp.smepmp then none
  else if c.trap.priv ≠ Trap.prvM then none
  else
    let val := mseccfgOf valToWrite
    let rlbIgnored := !c.pmp.mseccfg.rlb && c.pmpIsAnyRegionLocked
    let mseccfg :=
      { mml := val.mml || c.pmp.mseccfg.mml
        mmwp := val.mmwp || c.pmp.mseccfg.mmwp
        rlb := val.rlb && !rlbIgnored : Mseccfg }
    some { c with pmp := { c.pmp with mseccfg := mseccfg } }.tlbFlush

def pmpUpdateRule (pmpIndex : Nat) : Cpu P :=
  { c with pmp := Riscv.pmpUpdateRule P.pmp c.pmp pmpIndex }.tlbFlush

def setEntry (pmpIndex : Nat) (entry : PmpEntry) : Cpu P :=
  { c with pmp := c.pmp.setEntry pmpIndex entry }

/-- `none` stands for a failed assertion. -/
def pmpWriteCfg (pmpIndex val : Nat) : Option (Cpu P) :=
  if pmpIndex < P.pmp.pmpEntryCount then
    if pmpIsLocked P.pmp c.pmp pmpIndex && !c.pmp.mseccfg.rlb then some c
    else
      match pmpValidateConfiguration P.pmp c.pmp val with
      | none => some c
      | some val =>
        some ((c.setEntry pmpIndex { c.pmp.pmp pmpIndex with cfgReg := val }).pmpUpdateRule pmpIndex)
  else none

def afterCallback (result : P.external.Device × Bool) : Cpu P :=
  let c := { c with external := result.1 }
  if result.2 then c.tlbFlush else c

def pmpcfgCsrWrite (regIndex val : Nat) : Option (Cpu P) :=
  if c.useExternalPmp then some (c.afterCallback (P.external.cfgCsrWrite regIndex val c.external))
  else if P.pmp.longBits = 64 ∧ regIndex % 2 ≠ 0 then none
  else if baseOffset P.pmp regIndex ≥ P.pmp.pmpEntryCount then none
  else (List.range (P.pmp.longBits / 8)).foldlM
    (fun c i => c.pmpWriteCfg (baseOffset P.pmp regIndex + i) (cfgVal val i)) c

def pmpaddrCsrWrite (addrIndex val : Nat) : Option (Cpu P) :=
  if c.useExternalPmp then
    some (c.afterCallback (P.external.addressCsrWrite addrIndex val c.external))
  else if addrIndex ≥ P.pmp.pmpEntryCount then none
  else if pmpIsLocked P.pmp c.pmp addrIndex && !c.pmp.mseccfg.rlb then some c
  else
    let entry := { c.pmp.pmp addrIndex with addrReg := val &&& P.pmp.pmpAddrMask }
    some ((c.setEntry addrIndex entry).pmpUpdateRule addrIndex)

/-- `none` stands for an exception or an abort. -/
def csrWriteHelper : TranslationCsr → Option (Cpu P)
  | .mstatus => some (c.writeMstatus valToWrite)
  | .sstatus => some (c.writeSstatus valToWrite)
  | .satp => c.writeSatp valToWrite
  | .mseccfg => c.writeMseccfg valToWrite
  | .pmpcfg regIndex =>
    if notPresent P.hart.privilegeArchitecture (TranslationCsr.pmpcfg regIndex).number then none
    else c.pmpcfgCsrWrite regIndex valToWrite.toNat
  | .pmpaddr addrIndex =>
    if notPresent P.hart.privilegeArchitecture (TranslationCsr.pmpaddr addrIndex).number then none
    else c.pmpaddrCsrWrite addrIndex valToWrite.toNat

def riscvSetMode (newpriv : BitVec xlen) : Option (Cpu P) :=
  (Trap.riscvSetMode c.trap newpriv).map c.setTrap

def enterM (clic : ClicInterrupt) : Option (Cpu P) :=
  let s := c.trap
  let mc := s.causeWord (getField s.mintstatus mintstatusMil)
    (previousEnable P.hart s.mstatus s.priv mstatusMie)
  let c := ((c.setTrap (s.saveM P.hart clic)).writeMstatus (s.pushM P.hart)).writeMcause mc
  (c.setTrap (c.trap.raiseLevel s.isInterrupt mintstatusMil)).riscvSetMode Trap.prvM

def enterS (clic : ClicInterrupt) : Option (Cpu P) :=
  let s := c.trap
  let sc := s.causeWord (getField s.mintstatus mintstatusSil)
    (previousEnable P.hart s.mstatus s.priv mstatusSie)
  let c := ((c.setTrap (s.saveS P.hart clic)).writeSstatus (s.pushS P.hart)).writeScause sc
  (c.setTrap (c.trap.raiseLevel s.isInterrupt mintstatusSil)).riscvSetMode prvS

def doNmi : Option (Cpu P) :=
  if c.trap.nmiPending = 0 then some c
  else
    let nmiIndex := lowestBitOf c.trap.nmiPending
    ((c.writeMstatus (c.trap.pushNmi P.hart)).riscvSetMode Trap.prvM).map fun c =>
      let c := c.writeMcause (P.hart.nmiMcause nmiIndex)
      c.setTrap (c.trap.saveNmi P.hart nmiIndex)

def takeTrap : Option (Cpu P) :=
  let s := c.trap
  if s.intPriv = Trap.prvM || !(s.isDelegated || (s.cpuInClicMode && s.isInterrupt)) then
    c.enterM (acknowledge P.hart s)
  else c.enterS (acknowledge P.hart s)

def doInterrupt : Option (Cpu P) :=
  if c.trap.nmiPending ≠ 0 then c.doNmi
  else if c.trap.exceptionIndex = excpNone then some c
  else c.takeTrap.map fun c => c.setTrap { c.trap with exceptionIndex := excpNone }

def helperMret : Option (Cpu P) :=
  let s := c.trap
  if s.priv < Trap.prvM then none
  else if !retpcLegal P.hart s.mepc then none
  else
    (c.riscvSetMode (getField s.mstatus mstatusMpp)).map fun c =>
      let c := c.writeMstatus (popM P.hart s.mstatus)
      let mcause := setField (setField c.trap.mcause causePp (lowestPriv P.hart)) causePie 1
      let c := c.writeMcause mcause
      let t := restoreMil c.trap
      c.setTrap (leave t (returnAddress P.hart t t.mcause s.mepc))

def helperSret : Option (Cpu P) :=
  let s := c.trap
  if !P.hart.rvs then none
  else if s.priv < prvS then none
  else if P.hart.privilegeArchitecture.since110 && s.priv = prvS &&
      getField s.mstatus mstatusTsr ≠ 0 then none
  else if !retpcLegal P.hart s.sepc then none
  else
    (c.riscvSetMode (getField s.mstatus mstatusSpp)).map fun c =>
      let c := c.writeSstatus (popS P.hart s.mstatus)
      let scause := setField (setField c.trap.scause causePp prvU) causePie 1
      let c := c.writeScause scause
      let t := restoreSil c.trap
      c.setTrap (leave t (returnAddress P.hart t t.scause s.sepc))

def xret : TrapMode → Option (Cpu P)
  | .machine => c.helperMret
  | .supervisor => c.helperSret

end Cpu

/-- The operations that can change a translation. -/
inductive Operation (xlen : Nat) where
  | csrWrite (csr : TranslationCsr) (valToWrite : BitVec xlen)
  | doInterrupt
  | doNmi
  | xret (m : TrapMode)
  deriving DecidableEq, Repr

def Operation.apply {P : Platform xlen} (c : Cpu P) : Operation xlen → Option (Cpu P)
  | .csrWrite csr valToWrite => c.csrWriteHelper valToWrite csr
  | .doInterrupt => c.doInterrupt
  | .doNmi => c.doNmi
  | .xret m => c.xret m

namespace Cpu

variable {P : Platform xlen} {c : Cpu P} {v : BitVec xlen}

@[simp] theorem tlbFlush_trap : c.tlbFlush.trap = c.trap := rfl

@[simp] theorem setTrap_trap (s : State xlen) : (c.setTrap s).trap = s := rfl

@[simp] theorem writeMstatus_trap :
    (c.writeMstatus v).trap = Trap.writeMstatus P.hart c.trap v := rfl

@[simp] theorem writeSstatus_trap :
    (c.writeSstatus v).trap = Trap.writeSstatus P.hart c.trap v := rfl

@[simp] theorem writeMcause_trap : (c.writeMcause v).trap = Trap.writeMcause P.hart c.trap v := by
  unfold writeMcause Trap.writeMcause
  exact apply_ite trap _ _ _

@[simp] theorem writeScause_trap : (c.writeScause v).trap = Trap.writeScause c.trap v := rfl

theorem riscvSetMode_trap (newpriv : BitVec xlen) :
    (c.riscvSetMode newpriv).map trap = Trap.riscvSetMode c.trap newpriv := by
  unfold riscvSetMode
  rw [Option.map_map]
  exact congrFun Option.map_id _

theorem enterM_trap (clic : ClicInterrupt) :
    (c.enterM clic).map trap = c.trap.enterM P.hart clic := by
  unfold enterM State.enterM
  rw [riscvSetMode_trap, setTrap_trap, writeMcause_trap, writeMstatus_trap, setTrap_trap]

theorem enterS_trap (clic : ClicInterrupt) :
    (c.enterS clic).map trap = c.trap.enterS P.hart clic := by
  unfold enterS State.enterS
  rw [riscvSetMode_trap, setTrap_trap, writeScause_trap, writeSstatus_trap, setTrap_trap]

theorem doNmi_trap : c.doNmi.map trap = Trap.doNmi P.hart c.trap := by
  unfold doNmi Trap.doNmi
  split
  · rfl
  · dsimp only
    rw [Option.map_map, ← writeMstatus_trap, ← riscvSetMode_trap, Option.map_map]
    refine congrArg (Option.map · _) (funext fun c => ?_)
    simp

theorem doInterrupt_trap : c.doInterrupt.map trap = Trap.doInterrupt P.hart c.trap := by
  unfold doInterrupt Trap.doInterrupt
  split_ifs
  · exact doNmi_trap
  · rfl
  · have taken : c.takeTrap.map trap = c.trap.takeTrap P.hart := by
      unfold takeTrap State.takeTrap
      dsimp only
      split_ifs
      · exact enterM_trap _
      · exact enterS_trap _
    rw [← taken, Option.map_map, Option.map_map]
    rfl

theorem xret_trap (m : TrapMode) : (c.xret m).map trap = Trap.xret P.hart m c.trap := by
  cases m with
  | machine =>
    unfold xret helperMret Trap.xret Trap.helperMret
    dsimp only
    split_ifs
    · rfl
    · rfl
    · rw [← riscvSetMode_trap, Option.map_map, Option.map_map]
      refine congrArg (Option.map · _) (funext fun c => ?_)
      simp
  | supervisor =>
    unfold xret helperSret Trap.xret Trap.helperSret
    dsimp only
    split_ifs
    · rfl
    · rfl
    · rfl
    · rfl
    · rw [← riscvSetMode_trap, Option.map_map, Option.map_map]
      rfl

end Cpu

end Tlib.Riscv.Translation
