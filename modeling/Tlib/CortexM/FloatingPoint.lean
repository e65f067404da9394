import Tlib.CortexM.State

/-!
Contract: the floating-point context of a Cortex-M core.

Owns: how much of the stack it takes, the words of `FPCCR` and `FPCAR` that an entry sets, and its
lazy preservation.
-/

namespace Tlib.CortexM

open Tlib.Library.WordStack

/-- `s0` to `s15` -/
def Cpu.lowWords (cpu : Cpu) : List Word := List.ofFn fun i : Fin 16 => cpu.s (Fin.castLE (by decide) i)

/-- `s16` to `s31` -/
def Cpu.calleeWords (cpu : Cpu) : List Word := List.ofFn fun i : Fin 16 => cpu.s (Fin.natAdd 16 i)

/-- The word above `FPSCR`, which is unknown without MVE. -/
def Cpu.vprWord (F : Features) (cpu : Cpu) : Word := if F.mve then cpu.vpr else 0xBADCAFEE#32

/-- `fp_get_reservation_size`, in words. -/
def Cpu.fpReservationWords (cpu : Cpu) : Nat := 18 + if cpu.secure && cpu.ts then 16 else 0

def Cpu.invalidateVfpRegs (cpu : Cpu) (shouldClear : Bool) : Cpu :=
  if shouldClear then { cpu with s := fun _ => 0, fpscr := 0, vpr := 0 } else cpu

def Cpu.fpccrUpdate (cpu : Cpu) (frameptr : Word) : Cpu :=
  { cpu with
    fpcar := setBank cpu.fpcar cpu.secure (frameptr &&& 0xfffffff8#32)
    fpccrS := cpu.secure
    fpccr := setBank cpu.fpccr cpu.secure
      { cpu.fpccr cpu.secure with
        lspact := true, user := cpu.inUserMode, thread := !cpu.inHandlerMode } }

def Cpu.needFpLazyStatePreservation (cpu : Cpu) : Bool := (cpu.fpccr cpu.fpccrS).lspact

def Cpu.needFpContext (cpu : Cpu) : Bool :=
  (cpu.fpccr cpu.secure).aspen && (!cpu.fpca || (cpu.secure && !cpu.sfpa))

/-- `lsp_store_helper`: the state, the next address and whether the store is done. -/
def Cpu.lspStoreHelper (cpu : Cpu) (address val : Word) (isSecure : Bool) : Cpu × Word × Bool :=
  match cpu.getPhysAddr .store address isSecure (cpu.fpccr isSecure).user with
  | .success => ({ cpu with memory := store cpu.memory address val }, address + 4#32, true)
  | refusal => (cpu.accessRefused address isSecure refusal, address, false)

/-- The state after stores in a row, and whether any has failed. -/
def Cpu.lspStoreAll (cpu : Cpu) (address : Word) (isSecure : Bool) : List Word → Cpu × Bool
  | [] => (cpu, false)
  | val :: vals =>
    let first := cpu.lspStoreHelper address val isSecure
    let rest := first.1.lspStoreAll first.2.1 isSecure vals
    (rest.1, !first.2.2 || rest.2)

/-- What `fp_lsp_save_to_stack` stores, from `FPCAR` on. -/
def Cpu.lazyWords (F : Features) (cpu : Cpu) (isSecure : Bool) : List Word :=
  cpu.lowWords ++ [cpu.fpscr] ++ (if F.v8 then
      [cpu.vprWord F] ++ (if isSecure && cpu.ts then cpu.calleeWords else [])
    else [])

/-- Both `LSPACT` flags are cleared. -/
def Cpu.clearLspact (cpu : Cpu) : Cpu :=
  { cpu with fpccr := fun secure => { cpu.fpccr secure with lspact := false } }

def Cpu.lazyStores (F : Features) (cpu : Cpu) : Cpu × Bool :=
  cpu.clearLspact.lspStoreAll (cpu.fpcar cpu.fpccrS &&& 0xfffffff8#32) cpu.fpccrS
    (cpu.lazyWords F cpu.fpccrS)

/-- `LSPERR` -/
def Cpu.lazyError (cpu : Cpu) : Cpu :=
  { cpu with
    secureFaultStatus := cpu.secureFaultStatus ||| bitIf true 5
    exceptionIndex := .secure }

def Cpu.fpLspSaveToStack (F : Features) (cpu : Cpu) : Outcome :=
  if cpu.needFpLazyStatePreservation then
    if (cpu.lazyStores F).2 then .loopExit (cpu.lazyStores F).1.lazyError
    else .done ((cpu.lazyStores F).1.invalidateVfpRegs (cpu.fpccrS && cpu.ts))
  else .done cpu

def Cpu.createFpContext (cpu : Cpu) : Cpu :=
  { cpu with
    fpca := true
    sfpa := cpu.sfpa || cpu.secure
    fpscr := cpu.fpdscr cpu.secure
    vpr := 0 }

def Cpu.fpLspCreateContext (cpu : Cpu) : Cpu :=
  if cpu.needFpContext then { cpu with fpccrS := cpu.secure }.createFpContext
  else { cpu with fpccrS := cpu.secure }

/-- `HELPER(fp_lsp)`, before every floating-point instruction. -/
def Cpu.fpLsp (F : Features) (cpu : Cpu) : Outcome :=
  (cpu.fpLspSaveToStack F).bind fun cpu => .done cpu.fpLspCreateContext

end Tlib.CortexM
