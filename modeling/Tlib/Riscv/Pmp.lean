import Mathlib.Logic.Function.Basic
import Tlib.Softmmu.Tlb

/-!
Contract: physical memory protection of RISC-V harts.

Owns: the entries with their cached bounds and the writes of `pmpcfg`.
-/

namespace Tlib.Riscv

open Tlib.Softmmu

/-- What the platform fixes before the first access. -/
structure PmpHart where
  /-- `TARGET_LONG_BITS` -/
  longBits : Nat
  /-- The argument of `tlib_set_pmpaddr_bits`. -/
  (pmpaddrBits pmpEntryCount : Nat)
  pmpNapotGrain : Int
  /-- `privilege_architecture >= RISCV_PRIV1_11` -/
  privilege111 : Bool
  /-- `riscv_has_additional_ext(env, RISCV_FEATURE_SMEPMP)` -/
  smepmp : Bool
  longBits_eq : longBits = 32 ∨ longBits = 64
  pmpaddrBits_pos : 0 < pmpaddrBits
  pmpaddrBits_le : pmpaddrBits ≤ longBits

namespace PmpHart

theorem longBits_32 : 32 = 32 ∨ 32 = 64 := .inl rfl

theorem longBits_64 : 64 = 32 ∨ 64 = 64 := .inr rfl

variable (H : PmpHart)

/-- Conversion to `target_ulong`. -/
def toUlong (value : Nat) : Nat := value % 2 ^ H.longBits

/-- `-1` as a `target_ulong` -/
def allOnes : Nat := 2 ^ H.longBits - 1

def pmpAddrMask : Nat := 2 ^ H.pmpaddrBits - 1

end PmpHart

structure PmpEntry where
  (addrReg cfgReg : Nat)
deriving DecidableEq, Repr

/-- The bounds of a rule, both inclusive. -/
structure PmpAddr where
  (sa ea : Nat)
deriving DecidableEq, Repr

structure Mseccfg where
  (mml mmwp rlb : Bool)
deriving DecidableEq, Repr

structure PmpState where
  pmp : Nat → PmpEntry
  addr : Nat → PmpAddr
  numRules : Nat
  mseccfg : Mseccfg

def PmpState.setEntry (s : PmpState) (pmpIndex : Nat) (entry : PmpEntry) : PmpState :=
  { s with pmp := Function.update s.pmp pmpIndex entry }

@[simp] theorem PmpState.setEntry_self (s : PmpState) (pmpIndex : Nat) (entry : PmpEntry) :
    (s.setEntry pmpIndex entry).pmp pmpIndex = entry := by
  simp [setEntry]

theorem PmpState.setEntry_of_ne (s : PmpState) {pmpIndex other : Nat} (entry : PmpEntry)
    (ne : other ≠ pmpIndex) : (s.setEntry pmpIndex entry).pmp other = s.pmp other := by
  simp [setEntry, ne]

def pmpRead : Nat := 1
def pmpWrite : Nat := 2
def pmpExec : Nat := 4
def pmpLock : Nat := 128

/-- `PMP_AMATCH_OFF` and the three ways to match. -/
inductive PmpAmatch where
  | off
  | tor
  | na4
  | napot
deriving DecidableEq, Repr

def pmpGetAField (cfg : Nat) : PmpAmatch :=
  match (cfg >>> 3) &&& 3 with
  | 0 => .off
  | 1 => .tor
  | 2 => .na4
  | _ => .napot

def PmpEntry.locked (entry : PmpEntry) : Bool := entry.cfgReg &&& pmpLock ≠ 0

def PmpEntry.aField (entry : PmpEntry) : PmpAmatch := pmpGetAField entry.cfgReg

def PmpEntry.lockedTor (entry : PmpEntry) : Bool := entry.locked && entry.aField = .tor

def pmpIsLocked (H : PmpHart) (s : PmpState) (pmpIndex : Nat) : Bool :=
  if (s.pmp pmpIndex).locked then true
  else if pmpIndex + 1 ≥ H.pmpEntryCount then false
  else (s.pmp (pmpIndex + 1)).lockedTor

def pmpIsAnyRegionLocked (H : PmpHart) (s : PmpState) : Bool :=
  (List.range H.pmpEntryCount).any (pmpIsLocked H s)

def pmpValidateConfiguration (H : PmpHart) (s : PmpState) (val : Nat) : Option Nat :=
  let read := val &&& pmpRead ≠ 0
  let write := val &&& pmpWrite ≠ 0
  let exec := val &&& pmpExec ≠ 0
  let lockBit := val &&& pmpLock ≠ 0
  let shared := ¬ read ∧ write
  let stored := if !s.mseccfg.mml && H.privilege111 && shared then val &&& 0xFD else val
  if !s.mseccfg.rlb && s.mseccfg.mml && lockBit && (exec ∨ shared) then none else some stored

/-- `ctz_tl(~value)` -/
def trailingOnes : Nat → Nat → Nat
  | 0, _ => 0
  | width + 1, value => if value % 2 = 1 then trailingOnes width (value / 2) + 1 else 0

def PmpHart.shiftLeft (H : PmpHart) (value count : Nat) : Nat :=
  H.toUlong (value <<< (count % H.longBits))

/-- `start_addr` and `end_addr` -/
def pmpDecodeNapot (H : PmpHart) (addr napotGrain : Nat) : Nat × Nat :=
  if napotGrain = H.longBits then (0, H.allOnes)
  else
    let base := addr &&& H.shiftLeft (2 ^ H.longBits - 2) napotGrain
    -- memory beyond XLEN bits does not exist, and nothing will match
    if base &&& H.shiftLeft 3 (H.longBits - 2) ≠ 0 then (1, 0)
    else
      let base := H.shiftLeft base 2
      let range := H.toUlong (H.shiftLeft 8 napotGrain + H.allOnes)
      (base, H.toUlong (base + range))

/-- The grain of a NAPOT rule; the comparison is one of unsigned numbers. -/
def napotOf (H : PmpHart) (thisAddr : Nat) : Nat :=
  let napot := trailingOnes H.longBits thisAddr
  let pmpNapotGrain := (H.pmpNapotGrain % (2 ^ H.longBits : Nat)).toNat
  if H.privilege111 ∧ pmpNapotGrain > napot then pmpNapotGrain else napot

/-- The bounds as `pmp_update_rule` computes them, before they are masked. -/
def ruleBounds (H : PmpHart) (aField : PmpAmatch) (prevAddr thisAddr : Nat) : Nat × Nat :=
  match aField with
  | .off => (0, H.allOnes)
  | .tor => (H.shiftLeft prevAddr 2, H.toUlong (H.shiftLeft thisAddr 2 + H.allOnes))
  | .na4 =>
    let sa := H.shiftLeft thisAddr 2
    (sa, H.toUlong (H.toUlong (sa + 4) + H.allOnes))
  | .napot => pmpDecodeNapot H thisAddr (napotOf H thisAddr)

/-- `pmp[pmp_index - 1].addr_reg`, if there is such an entry. -/
def PmpState.prevAddr (s : PmpState) (pmpIndex : Nat) : Nat :=
  if pmpIndex ≥ 1 then (s.pmp (pmpIndex - 1)).addrReg else 0

def PmpState.active (s : PmpState) (pmpIndex : Nat) : Bool := (s.pmp pmpIndex).aField ≠ .off

def countRules (H : PmpHart) (s : PmpState) : Nat := (List.range H.pmpEntryCount).countP s.active

def pmpUpdateRule (H : PmpHart) (s : PmpState) (pmpIndex : Nat) : PmpState :=
  let bounds := ruleBounds H (s.pmp pmpIndex).aField (s.prevAddr pmpIndex) (s.pmp pmpIndex).addrReg
  { s with
    addr := Function.update s.addr pmpIndex
      { sa := bounds.1 &&& H.pmpAddrMask, ea := bounds.2 &&& H.pmpAddrMask }
    numRules := countRules H s }

/-- `none` stands for a failed assertion. -/
def pmpWriteCfg (H : PmpHart) (s : PmpState) (pmpIndex val : Nat) : Option PmpState :=
  if pmpIndex < H.pmpEntryCount then
    if pmpIsLocked H s pmpIndex && !s.mseccfg.rlb then some s
    else
      match pmpValidateConfiguration H s val with
      | none => some s
      | some val =>
        some (pmpUpdateRule H
          (s.setEntry pmpIndex { s.pmp pmpIndex with cfgReg := val }) pmpIndex)
  else none

/-- The first entry of a configuration register. -/
def baseOffset (H : PmpHart) (regIndex : Nat) : Nat :=
  (if H.longBits = 64 then regIndex / 2 else regIndex) * (H.longBits / 8)

/-- The byte of an entry, without the bits 5 and 6. -/
def cfgVal (val i : Nat) : Nat := (val >>> (8 * i)) &&& 0x9F

/-- `none` stands for an illegal instruction. -/
def pmpcfgCsrWrite (H : PmpHart) (s : PmpState) (regIndex val : Nat) : Option PmpState :=
  if H.longBits = 64 ∧ regIndex % 2 ≠ 0 then none
  else if baseOffset H regIndex ≥ H.pmpEntryCount then none
  else (List.range (H.longBits / 8)).foldlM
    (fun s i => pmpWriteCfg H s (baseOffset H regIndex + i) (cfgVal val i)) s

def pmpaddrCsrWrite (H : PmpHart) (s : PmpState) (addrIndex val : Nat) : Option PmpState :=
  if addrIndex ≥ H.pmpEntryCount then none
  else if pmpIsLocked H s addrIndex && !s.mseccfg.rlb then some s
  else some (pmpUpdateRule H
    (s.setEntry addrIndex { s.pmp addrIndex with addrReg := val &&& H.pmpAddrMask }) addrIndex)

/-- The write of `CSR_MSECCFG` in machine mode. -/
def mseccfgCsrWrite (H : PmpHart) (s : PmpState) (val : Mseccfg) : Option PmpState :=
  if H.smepmp then
    let rlbIgnored := !s.mseccfg.rlb && pmpIsAnyRegionLocked H s
    some { s with mseccfg :=
      { mml := val.mml || s.mseccfg.mml
        mmwp := val.mmwp || s.mseccfg.mmwp
        rlb := val.rlb && !rlbIgnored } }
  else none

def prvM : Nat := 3

structure HartMode where
  priv : Nat
  mprv : Bool
  mpp : Nat
deriving DecidableEq, Repr

def HartMode.effective (mode : HartMode) (access : AccessType) : Nat :=
  if mode.mprv ∧ (access = .dataLoad ∨ access = .dataStore) then mode.mpp else mode.priv

def pmpIsInRange (H : PmpHart) (s : PmpState) (pmpIndex addr : Nat) : Nat :=
  let addr := addr &&& H.pmpAddrMask
  if addr ≥ (s.addr pmpIndex).sa ∧ addr ≤ (s.addr pmpIndex).ea then 1 else 0

def allPrivs : Nat := 7

def pmpGetPrivsNormal (H : PmpHart) (s : PmpState) (pmpIndex priv : Nat) : Nat :=
  if priv ≠ prvM ∨ pmpIsLocked H s pmpIndex then allPrivs &&& (s.pmp pmpIndex).cfgReg
  else allPrivs

def pmpGetPrivsMml (s : PmpState) (pmpIndex priv : Nat) : Nat :=
  let rulePrivs := (s.pmp pmpIndex).cfgReg
  let isRead := rulePrivs &&& pmpRead ≠ 0
  let isWrite := rulePrivs &&& pmpWrite ≠ 0
  let isExec := rulePrivs &&& pmpExec ≠ 0
  let isLocked := rulePrivs &&& pmpLock ≠ 0
  if isRead ∧ isWrite ∧ isExec ∧ isLocked then pmpRead
  else if ¬ isRead ∧ isWrite then
    if ¬ isLocked then
      -- shared data
      if priv = prvM ∨ isExec then pmpRead ||| pmpWrite else pmpRead
    else
      -- shared code
      if priv = prvM ∧ isExec then pmpExec ||| pmpRead else pmpExec
  else if (isLocked ∧ priv ≠ prvM) ∨ (¬ isLocked ∧ priv = prvM) then 0
  else rulePrivs &&& allPrivs

/-- One pass of the loop of `pmp_get_access`; `none` goes on with the next entry. -/
def pmpVerdict (H : PmpHart) (s : PmpState) (addr size priv pmpIndex : Nat) : Option Nat :=
  let start := pmpIsInRange H s pmpIndex addr
  let last := pmpIsInRange H s pmpIndex (H.toUlong (addr + size + H.allOnes))
  if ¬ s.active pmpIndex then none
  else if start + last = 1 then some 0
  else if start + last = 2 then
    some (if s.mseccfg.mml then pmpGetPrivsMml s pmpIndex priv
      else pmpGetPrivsNormal H s pmpIndex priv)
  else none

def pmpNoMatch (s : PmpState) (priv : Nat) : Nat :=
  if priv = prvM then
    if s.mseccfg.mmwp then 0
    else if s.mseccfg.mml then pmpRead ||| pmpWrite else allPrivs
  else 0

def pmpGetAccess (H : PmpHart) (s : PmpState) (mode : HartMode) (addr size : Nat)
    (access : AccessType) : Nat :=
  let addr := addr &&& H.pmpAddrMask
  let priv := mode.effective access
  if s.numRules = 0 then
    if priv = prvM then if s.mseccfg.mmwp then 0 else allPrivs
    else if H.smepmp then 0 else allPrivs
  else
    match (List.range H.pmpEntryCount).findSome? (pmpVerdict H s addr size priv) with
    | some privs => privs
    | none => pmpNoMatch s priv

end Tlib.Riscv
