import Tlib.Riscv.DirtySummary
import Tlib.Riscv.PmpWrites
import Tlib.Riscv.TranslationWriters

/-!
Contract: flushes of the TLB when a translation changes.

Owns: the result of a translation in each mode, the entries that stand for it, and that an operation
which changes a result flushes them.
-/

namespace Tlib.Riscv.Translation

open Tlib.Library.BitFields BitVec List Option
open Tlib.Riscv.Paging
open Tlib.Riscv.Trap hiding prvM
open Tlib.Softmmu

variable {xlen : Nat}

/-! ### Translations -/

/-- What an access brings with it. -/
structure Request (xlen : Nat) where
  memory : Memory xlen
  address : BitVec xlen
  access : AccessType
  accessWidth : Nat
  noPageFault : Bool

/-- What `cpu_handle_mmu_fault` gives to `tlb_set_page`. -/
structure FilledPage where
  (pa prot pageSize : Nat)
  deriving DecidableEq, Repr

namespace Cpu

variable {P : Platform xlen} (c : Cpu P)

def registers : Registers xlen := ⟨c.trap.mstatus, c.satp, c.sptbr⟩

def hartMode : HartMode where
  priv := c.trap.priv.toNat
  mprv := getField c.trap.mstatus mstatusMprv ≠ 0
  mpp := (getField c.trap.mstatus mstatusMpp).toNat

def pmpGetAccess (addr size : Nat) (access : AccessType) : Nat :=
  if c.useExternalPmp then
    P.external.getAccess c.external c.pmp.mseccfg c.hartMode addr size access
  else Riscv.pmpGetAccess P.pmp c.pmp c.hartMode addr size access

/-- `get_physical_address`, and the permissions that `pmp_get_access` leaves. -/
def translate (request : Request xlen) (mmuIdx : BitVec xlen) : Walk xlen × Nat :=
  let walk := getPhysicalAddress P.hart c.registers request.memory request.address request.access
    mmuIdx request.noPageFault
  -- `pa` stays 0 if the walk fails
  let pa := match walk.outcome with
    | .success physical _ => physical.toNat
    | _ => 0
  (walk, c.pmpGetAccess pa request.accessWidth request.access)

/-- The hart in the mode of an index: `cpu_mmu_index` is `env->priv`. -/
def inMode (mmuIdx : BitVec xlen) : Cpu P := c.setTrap { c.trap with priv := mmuIdx }

def resultAt (mmuIdx : BitVec xlen) (request : Request xlen) : Walk xlen × Nat :=
  (c.inMode mmuIdx).translate request mmuIdx

/-! ### Entries of the TLB -/

def pmpFindOverlapping (addr size startingIndex : Nat) : Option Nat :=
  if c.useExternalPmp then P.external.findOverlapping c.external addr size startingIndex
  else
    let addr := addr &&& P.pmp.pmpAddrMask
    (range P.pmp.pmpEntryCount).find? fun i =>
      startingIndex ≤ i && c.pmp.active i &&
        if (c.pmp.addr i).sa < addr then addr ≤ (c.pmp.addr i).ea
        else (c.pmp.addr i).sa ≤ P.pmp.toUlong (addr + size + P.pmp.allOnes)

/-- `none` if the access is refused. -/
def cpuHandleMmuFault (request : Request xlen) (mmuIdx : BitVec xlen) : Option FilledPage :=
  let result := c.translate request mmuIdx
  match result.1.outcome with
  | .success physical prot =>
    let pmpAccessType := request.access.mask
    if pmpAccessType &&& result.2 ≠ pmpAccessType then none
    else
      let pa := physical.toNat
      let page := P.tlb.pageBase pa
      match c.pmpFindOverlapping page P.tlb.pageSize 0 with
      | none => some ⟨pa, prot, P.tlb.pageSize⟩
      | some region =>
        if (c.pmp.addr region).sa > page ∨ (c.pmp.addr region).ea < page + P.tlb.pageSize - 1 then
          -- the entry is one-shot
          some ⟨pa, prot, request.accessWidth⟩
        else some ⟨pa, prot &&& result.2, P.tlb.pageSize⟩
  | _ => none

def newEntry (map : MemoryMap) (request : Request xlen) (mmuIdx : BitVec xlen) :
    Option CPUTLBEntry :=
  (c.cpuHandleMmuFault request mmuIdx).map fun page =>
    tlbEntry P.tlb.toTarget map (P.tlb.pageBase request.address.toNat) (P.tlb.pageBase page.pa)
      page.prot page.pageSize

/-- `tlb_fill` without an external MMU, in the mode of the hart. -/
def tlbFill (map : MemoryMap) (request : Request xlen) : Cpu P :=
  match c.cpuHandleMmuFault request c.trap.priv with
  | none => c
  | some page =>
    { c with
      tlb :=
        { c.tlb with
          table := tlbSetPage P.tlb.toTarget map c.tlb.table
            (P.tlb.pageBase request.address.toNat) (P.tlb.pageBase page.pa) page.prot
            c.trap.priv.toNat page.pageSize } }

/-- The current registers give a page to such accesses, and lead them to the same place. -/
def Produces (mmuIdx : BitVec xlen) (i : Nat) (access : AccessType) (word : TlbAddress)
    (place : Nat × Nat) : Prop :=
  ∃ map request entry produced, (c.inMode mmuIdx).newEntry map request mmuIdx = some entry ∧
    tlbIndex P.tlb.toTarget request.address.toNat = i ∧ entry.word access = some produced ∧
    produced.page = word.page ∧ produced.oneShot = word.oneShot ∧ entry.place = place

/-- Every entry is one that the current registers produce. -/
def NoStale : Prop :=
  ∀ mmuIdx : BitVec xlen, mmuIdx.toNat < P.tlb.nbMmuModes → ∀ i access word,
    (c.tlb.table mmuIdx.toNat i).word access = some word →
      c.Produces mmuIdx i access word (c.tlb.table mmuIdx.toNat i).place

/-- `MPRV` is clear without U-mode. -/
def MprvSupported : Prop := P.hart.rvu = true ∨ getField c.trap.mstatus mstatusMprv = 0

end Cpu

def TranslationCsr.isStatus : TranslationCsr → Bool
  | .mstatus | .sstatus => true
  | _ => false

def TranslationCsr.isPmp : TranslationCsr → Bool
  | .pmpcfg _ | .pmpaddr _ => true
  | _ => false

/-- The operation does not write `mstatus`, or it finds `MPRV` supported. -/
def Operation.Supported {P : Platform xlen} (c : Cpu P) : Operation xlen → Prop
  | .csrWrite csr _ => csr.isStatus = true → c.MprvSupported
  | _ => c.MprvSupported

def Operation.Own {P : Platform xlen} (c : Cpu P) : Operation xlen → Prop
  | .csrWrite csr _ => csr.isPmp = true → c.useExternalPmp = false
  | _ => True

section Changes

variable {P : Platform xlen} (c c' : Cpu P) (mmuIdx : BitVec xlen)

def ChangesAt : Prop := ∃ request, c'.resultAt mmuIdx request ≠ c.resultAt mmuIdx request

/-- The entries of the index are gone. -/
def FlushedAt : Prop := ∀ i, c'.tlb.table mmuIdx.toNat i = (c.tlb.table mmuIdx.toNat i).emptied

structure SameTranslation : Prop where
  fields : ∀ f ∈ flushFields P.hart, getField c'.trap.mstatus f = getField c.trap.mstatus f
  satp : c'.satp = c.satp
  sptbr : c'.sptbr = c.sptbr
  pmp : c'.pmp = c.pmp
  useExternalPmp : c'.useExternalPmp = c.useExternalPmp
  external : c'.external = c.external

/-- Whatever else happens leaves the registers alone and brings in no entry. -/
structure Elsewhere : Prop where
  same : SameTranslation c c'
  entries : ∀ mmuIdx i access word', (c'.tlb.table mmuIdx i).word access = some word' →
    ∃ word, (c.tlb.table mmuIdx i).word access = some word ∧ word.page = word'.page ∧
      word.oneShot = word'.oneShot ∧ (c.tlb.table mmuIdx i).place = (c'.tlb.table mmuIdx i).place

end Changes

/-- After `tlib_reset`. -/
structure AtReset {P : Platform xlen} (c : Cpu P) : Prop where
  mstatus : ∃ fpu, c.trap.mstatus = setDefaultMstatus fpu
  empty : ∀ mmuIdx < P.tlb.nbMmuModes, ∀ i access, (c.tlb.table mmuIdx i).word access = none

inductive Runs {P : Platform xlen} (c : Cpu P) : Cpu P → Prop where
  | start : Runs c c
  | operate {c' c'' : Cpu P} (before : Runs c c') (op : Operation xlen) (own : op.Own c')
      (done : op.apply c' = some c'') : Runs c c''
  | fill {c' : Cpu P} (before : Runs c c') (map : MemoryMap) (request : Request xlen) :
      Runs c (c'.tlbFill map request)
  | elsewhere {c' c'' : Cpu P} (before : Runs c c') (other : Elsewhere c' c'') : Runs c c''

/-! ### What a translation depends on -/

section Depends

variable {P : Platform xlen} {c c' : Cpu P}

theorem mem_flushFields {H : Hart xlen} {f : Field}
    (always : f ∈ [mstatusMxr, mstatusMpp, mstatusMprv, mstatusSum]) : f ∈ flushFields H :=
  mem_append_left _ always

theorem mstatusVm_mem {H : Hart xlen} (before : H.privilegeArchitecture.since110 = false) :
    mstatusVm ∈ flushFields H := by
  unfold flushFields
  rw [before, if_neg Bool.false_ne_true]
  exact mem_append_right _ (mem_singleton_self _)

theorem getPhysicalAddress_congr {H : Hart xlen} {regs regs' : Registers xlen}
    (fields : ∀ f ∈ flushFields H, getField regs'.mstatus f = getField regs.mstatus f)
    (satp : regs'.satp = regs.satp) (sptbr : regs'.sptbr = regs.sptbr) :
    getPhysicalAddress H regs' = getPhysicalAddress H regs := by
  have mxr := fields mstatusMxr (mem_flushFields (by simp))
  have mpp := fields mstatusMpp (mem_flushFields (by simp))
  have mprv := fields mstatusMprv (mem_flushFields (by simp))
  have sum := fields mstatusSum (mem_flushFields (by simp))
  have mode : ∀ mmuIdx access,
      effectiveMode regs' mmuIdx access = effectiveMode regs mmuIdx access := by
    intro mmuIdx access
    unfold effectiveMode
    rw [mprv, mpp]
  have field : vmField H regs' = vmField H regs := by
    unfold vmField
    rw [satp]
    split
    · rfl
    next before => exact fields mstatusVm (mstatusVm_mem (by simpa using before))
  have vm : vmMode H regs' = vmMode H regs := by
    unfold vmMode
    rw [field]
  have root : rootPpn H regs' = rootPpn H regs := by
    unfold rootPpn
    rw [satp, sptbr]
  have may : ∀ mode, privileges H regs' mode = privileges H regs mode := by
    intro mode
    unfold privileges mstatusPum
    rw [sum, mxr]
  unfold getPhysicalAddress
  simp [mode, vm, root, may]

theorem SameTranslation.refl (c : Cpu P) : SameTranslation c c :=
  ⟨fun _ _ => rfl, rfl, rfl, rfl, rfl, rfl⟩

theorem SameTranslation.trans {c'' : Cpu P} (first : SameTranslation c c')
    (second : SameTranslation c' c'') : SameTranslation c c'' where
  fields f mem := (second.fields f mem).trans (first.fields f mem)
  satp := second.satp.trans first.satp
  sptbr := second.sptbr.trans first.sptbr
  pmp := second.pmp.trans first.pmp
  useExternalPmp := second.useExternalPmp.trans first.useExternalPmp
  external := second.external.trans first.external

theorem SameTranslation.inMode (same : SameTranslation c c') (mmuIdx : BitVec xlen) :
    SameTranslation (c.inMode mmuIdx) (c'.inMode mmuIdx) :=
  ⟨same.fields, same.satp, same.sptbr, same.pmp, same.useExternalPmp, same.external⟩

theorem SameTranslation.translate (same : SameTranslation c c')
    (priv : c'.trap.priv = c.trap.priv) (request : Request xlen) (mmuIdx : BitVec xlen) :
    c'.translate request mmuIdx = c.translate request mmuIdx := by
  have walk := @getPhysicalAddress_congr _ P.hart c.registers c'.registers same.fields same.satp
    same.sptbr
  have mode : c'.hartMode = c.hartMode := by
    unfold Cpu.hartMode
    rw [priv, same.fields mstatusMprv (mem_flushFields (by simp)),
      same.fields mstatusMpp (mem_flushFields (by simp))]
  unfold Cpu.translate Cpu.pmpGetAccess
  rw [walk, mode, same.pmp, same.useExternalPmp, same.external]

theorem SameTranslation.resultAt (same : SameTranslation c c') (mmuIdx : BitVec xlen)
    (request : Request xlen) : c'.resultAt mmuIdx request = c.resultAt mmuIdx request :=
  (same.inMode mmuIdx).translate rfl request mmuIdx

theorem SameTranslation.newEntry (same : SameTranslation c c')
    (priv : c'.trap.priv = c.trap.priv) (map : MemoryMap) (request : Request xlen)
    (mmuIdx : BitVec xlen) : c'.newEntry map request mmuIdx = c.newEntry map request mmuIdx := by
  have result := same.translate priv request mmuIdx
  unfold Cpu.newEntry Cpu.cpuHandleMmuFault Cpu.pmpFindOverlapping
  rw [result, same.pmp, same.useExternalPmp, same.external]

theorem SameTranslation.produces (same : SameTranslation c c') {mmuIdx : BitVec xlen} {i : Nat}
    {access : AccessType} {word : TlbAddress} {place : Nat × Nat}
    (produces : c.Produces mmuIdx i access word place) :
    c'.Produces mmuIdx i access word place := by
  obtain ⟨map, request, entry, produced, made, rest⟩ := produces
  refine ⟨map, request, entry, produced, ?_, rest⟩
  rw [(same.inMode mmuIdx).newEntry rfl, made]

end Depends

/-! ### Flushed or the same -/

section Settles

variable {P : Platform xlen} {c c' c'' : Cpu P}

def FlushedOrSame (c c' : Cpu P) : Prop :=
  c'.tlb = c.tlbFlush.tlb ∨ (SameTranslation c c' ∧ c'.tlb = c.tlb)

theorem tlbFlush_tlb_congr (same : c'.tlb = c.tlb) : c'.tlbFlush.tlb = c.tlbFlush.tlb := by
  unfold Cpu.tlbFlush
  rw [same]

theorem tlbFlush_tlbFlush (G : TlbTarget) (s : TlbState) :
    Softmmu.tlbFlush G (Softmmu.tlbFlush G s true) true = Softmmu.tlbFlush G s true := by
  have table : (Softmmu.tlbFlush G (Softmmu.tlbFlush G s true) true).table =
      (Softmmu.tlbFlush G s true).table := by
    funext mmuIdx i
    unfold Softmmu.tlbFlush
    dsimp only
    split <;> rfl
  unfold Softmmu.tlbFlush at table ⊢
  dsimp only at table ⊢
  rw [table]
  rfl

theorem FlushedOrSame.trans (first : FlushedOrSame c c') (second : FlushedOrSame c' c'') :
    FlushedOrSame c c'' := by
  rcases first with flushed | ⟨same, kept⟩
  · left
    rcases second with again | ⟨-, kept⟩
    · rw [again]
      unfold Cpu.tlbFlush at flushed ⊢
      rw [flushed]
      exact tlbFlush_tlbFlush P.tlb c.tlb
    · rw [kept, flushed]
  · rcases second with flushed | ⟨same', kept'⟩
    · exact .inl (flushed.trans (tlbFlush_tlb_congr kept))
    · exact .inr ⟨same.trans same', kept'.trans kept⟩

/-- A step that does not write `mstatus`. -/
structure Steady (c c' : Cpu P) : Prop where
  mstatus : c'.trap.mstatus = c.trap.mstatus
  either : FlushedOrSame c c'

/-- A step that may write `mstatus`. -/
structure Settles (c c' : Cpu P) : Prop where
  supported : c.MprvSupported → c'.MprvSupported
  either : c.MprvSupported → FlushedOrSame c c'

theorem Steady.trans (first : Steady c c') (second : Steady c' c'') : Steady c c'' :=
  ⟨second.mstatus.trans first.mstatus, first.either.trans second.either⟩

theorem Steady.settles (steady : Steady c c') : Settles c c' where
  supported before := by
    unfold Cpu.MprvSupported at before ⊢
    rwa [steady.mstatus]
  either _ := steady.either

theorem Settles.trans (first : Settles c c') (second : Settles c' c'') : Settles c c'' where
  supported before := second.supported (first.supported before)
  either before := (first.either before).trans (second.either (first.supported before))

theorem steady_trap (c : Cpu P) {s : State xlen} (mstatus : s.mstatus = c.trap.mstatus) :
    Steady c (c.setTrap s) := by
  refine ⟨mstatus, .inr ⟨⟨fun f _ => ?_, rfl, rfl, rfl, rfl, rfl⟩, rfl⟩⟩
  rw [Cpu.setTrap_trap, mstatus]

theorem Steady.refl (c : Cpu P) : Steady c c := steady_trap c rfl

theorem settles_trap (c : Cpu P) {s : State xlen} (mstatus : s.mstatus = c.trap.mstatus) :
    Settles c (c.setTrap s) := (steady_trap c mstatus).settles

/-! ### `mstatus` -/

theorem flushFields_below {H : Hart xlen} {f : Field} (mem : f ∈ flushFields H) :
    f.shift + f.width ≤ 29 := by
  have among : f ∈ [mstatusMxr, mstatusMpp, mstatusMprv, mstatusSum, mstatusVm] := by
    unfold flushFields at mem
    split at mem
    · rw [append_nil] at mem
      exact mem_append_left [mstatusVm] mem
    · exact mem
  have all : ∀ g ∈ [mstatusMxr, mstatusMpp, mstatusMprv, mstatusSum, mstatusVm],
      g.shift + g.width ≤ 29 := by decide
  exact all f among

theorem agrees_of_quiet {H : Hart xlen} {m v : BitVec xlen} (quiet : mstatusFlushes H m v = false)
    {f : Field} (mem : f ∈ flushFields H) {i : Nat} (has : f.Has i) :
    v.getLsbD i = m.getLsbD i := by
  have wide := H.le_xlen
  have below := flushFields_below mem
  have inside := has
  unfold Field.Has at inside
  have less : i < xlen := by omega
  have masked : (flushMask H).getLsbD i = true := by
    unfold flushMask
    rw [getLsbD_masks _ _ less, Bool.or_eq_true, List.any_eq_true]
    exact .inr ⟨f, mem, decide_eq_true has⟩
  have zero : (v ^^^ m) &&& flushMask H = 0 := by
    unfold mstatusFlushes at quiet
    simpa using quiet
  have bit := congrArg (fun word => word.getLsbD i) zero
  simp only [getLsbD_and, getLsbD_xor, masked, Bool.and_true] at bit
  cases value : v.getLsbD i <;> cases old : m.getLsbD i <;> simp_all

theorem written_of_quiet {H : Hart xlen} {m v : BitVec xlen} (quiet : mstatusFlushes H m v = false)
    (supported : H.rvu = true ∨ getField m mstatusMprv = 0) {f : Field}
    (mem : f ∈ flushFields H) :
    getField (withDirty (mstatusStored H m v)) f = getField m f := by
  have wide := H.le_xlen
  have below := flushFields_below mem
  rw [withDirty_getField (by omega) H]
  refine getField_congr (by omega) fun i has => ?_
  have inside := has
  unfold Field.Has at inside
  rw [mstatusStored_bit (by omega), agrees_of_quiet quiet mem has, ite_self]
  split
  · rfl
  · split
    next taken =>
      have clear : m.getLsbD 17 = false := by
        rcases supported with rvu | zero
        · rw [taken.2] at rvu
          cases rvu
        · exact (getField_mprv_eq_zero H).mp zero
      have place : i = 17 := by
        have := taken.1
        unfold Field.Has mstatusMprv at this
        dsimp only at this
        omega
      rw [place, clear]
    next => rfl

theorem writeMstatus_settles (c : Cpu P) (v : BitVec xlen) : Settles c (c.writeMstatus v) where
  supported _ := (written_withDirty P.hart c.trap.mstatus v).settled.mprv
  either supported := by
    unfold Cpu.writeMstatus
    cases quiet : mstatusFlushes P.hart c.trap.mstatus v with
    | true => exact .inl rfl
    | false =>
      right
      exact ⟨⟨fun f mem => written_of_quiet quiet supported mem, rfl, rfl, rfl, rfl, rfl⟩, rfl⟩

theorem writeSstatus_settles (c : Cpu P) (v : BitVec xlen) : Settles c (c.writeSstatus v) :=
  writeMstatus_settles c _

theorem writeMcause_settles (c : Cpu P) (v : BitVec xlen) : Settles c (c.writeMcause v) := by
  unfold Cpu.writeMcause
  dsimp only
  have first : Settles c (c.setTrap { c.trap with mcause := v }) := settles_trap c rfl
  split
  · exact first.trans ((writeMstatus_settles _ _).trans (settles_trap _ rfl))
  · exact first

theorem writeScause_settles (c : Cpu P) (v : BitVec xlen) : Settles c (c.writeScause v) :=
  settles_trap c rfl

/-! ### The other registers -/

theorem writeSatp_steady {v : BitVec xlen} (done : c.writeSatp v = some c') : Steady c c' := by
  unfold Cpu.writeSatp at done
  split_ifs at done <;> cases done
  · exact ⟨rfl, .inl rfl⟩
  · exact .refl c
  · exact ⟨rfl, .inl rfl⟩
  · exact .refl c

theorem writeMseccfg_steady {v : BitVec xlen} (done : c.writeMseccfg v = some c') :
    Steady c c' := by
  unfold Cpu.writeMseccfg at done
  split_ifs at done
  cases done
  exact ⟨rfl, .inl rfl⟩

theorem pmpWriteCfg_steady {pmpIndex val : Nat} (done : c.pmpWriteCfg pmpIndex val = some c') :
    Steady c c' := by
  unfold Cpu.pmpWriteCfg at done
  split_ifs at done
  · cases done
    exact .refl c
  · cases valid : pmpValidateConfiguration P.pmp c.pmp val with
    | none =>
      rw [valid] at done
      cases done
      exact .refl c
    | some stored =>
      rw [valid] at done
      cases done
      exact ⟨rfl, .inl rfl⟩

theorem pmpcfg_bytes_steady {base val : Nat} (indices : List Nat)
    (done : indices.foldlM (fun (c : Cpu P) i => c.pmpWriteCfg (base + i) (cfgVal val i)) c =
      some c') : Steady c c' := by
  induction indices generalizing c with
  | nil =>
    cases done
    exact .refl _
  | cons i rest ih =>
    obtain ⟨middle, first, later⟩ := bind_eq_some_iff.mp done
    exact (pmpWriteCfg_steady first).trans (ih later)

theorem pmpcfgCsrWrite_steady (own : c.useExternalPmp = false) {regIndex val : Nat}
    (done : c.pmpcfgCsrWrite regIndex val = some c') : Steady c c' := by
  unfold Cpu.pmpcfgCsrWrite at done
  rw [own, if_neg Bool.false_ne_true] at done
  split_ifs at done
  exact pmpcfg_bytes_steady _ done

theorem pmpaddrCsrWrite_steady (own : c.useExternalPmp = false) {addrIndex val : Nat}
    (done : c.pmpaddrCsrWrite addrIndex val = some c') : Steady c c' := by
  unfold Cpu.pmpaddrCsrWrite at done
  rw [own, if_neg Bool.false_ne_true] at done
  split_ifs at done
  · cases done
    exact .refl c
  · cases done
    exact ⟨rfl, .inl rfl⟩

theorem csrWriteHelper_steady {csr : TranslationCsr} {v : BitVec xlen}
    (other : csr.isStatus = false) (own : csr.isPmp = true → c.useExternalPmp = false)
    (done : c.csrWriteHelper v csr = some c') : Steady c c' := by
  cases csr with
  | mstatus => cases other
  | sstatus => cases other
  | satp => exact writeSatp_steady done
  | mseccfg => exact writeMseccfg_steady done
  | pmpcfg regIndex =>
    unfold Cpu.csrWriteHelper at done
    dsimp only at done
    split_ifs at done
    exact pmpcfgCsrWrite_steady (own rfl) done
  | pmpaddr addrIndex =>
    unfold Cpu.csrWriteHelper at done
    dsimp only at done
    split_ifs at done
    exact pmpaddrCsrWrite_steady (own rfl) done

theorem csrWriteHelper_settles {csr : TranslationCsr} {v : BitVec xlen}
    (own : csr.isPmp = true → c.useExternalPmp = false)
    (done : c.csrWriteHelper v csr = some c') : Settles c c' := by
  cases status : csr.isStatus with
  | false => exact (csrWriteHelper_steady status own done).settles
  | true =>
    cases csr with
    | mstatus =>
      cases done
      exact writeMstatus_settles c v
    | sstatus =>
      cases done
      exact writeSstatus_settles c v
    | satp => cases status
    | mseccfg => cases status
    | pmpcfg regIndex => cases status
    | pmpaddr addrIndex => cases status

/-! ### Traps and returns -/

theorem riscvSetMode_settles {newpriv : BitVec xlen} (done : c.riscvSetMode newpriv = some c') :
    Settles c c' := by
  obtain ⟨s, entered, rfl⟩ := map_eq_some_iff.mp done
  exact settles_trap c (riscvSetMode_mstatus entered)

theorem enterM_settles {clic : ClicInterrupt} (done : c.enterM clic = some c') : Settles c c' := by
  have saved : Settles c (c.setTrap (c.trap.saveM P.hart clic)) := settles_trap c rfl
  have raised := (settles_trap _ (raiseLevel_mstatus _ _)).trans (riscvSetMode_settles done)
  exact saved.trans ((writeMstatus_settles _ _).trans ((writeMcause_settles _ _).trans raised))

theorem enterS_settles {clic : ClicInterrupt} (done : c.enterS clic = some c') : Settles c c' := by
  have saved : Settles c (c.setTrap (c.trap.saveS P.hart clic)) := settles_trap c rfl
  have raised := (settles_trap _ (raiseLevel_mstatus _ _)).trans (riscvSetMode_settles done)
  exact saved.trans ((writeSstatus_settles _ _).trans ((writeScause_settles _ _).trans raised))

theorem doNmi_settles (done : c.doNmi = some c') : Settles c c' := by
  unfold Cpu.doNmi at done
  split at done
  · cases done
    exact (Steady.refl c).settles
  · obtain ⟨entered, mode, rfl⟩ := map_eq_some_iff.mp done
    refine (writeMstatus_settles _ _).trans ((riscvSetMode_settles mode).trans ?_)
    exact (writeMcause_settles _ _).trans (settles_trap _ rfl)

theorem doInterrupt_settles (done : c.doInterrupt = some c') : Settles c c' := by
  unfold Cpu.doInterrupt at done
  split_ifs at done
  · exact doNmi_settles done
  · cases done
    exact (Steady.refl c).settles
  · obtain ⟨entered, taken, rfl⟩ := map_eq_some_iff.mp done
    refine Settles.trans ?_ (settles_trap _ rfl)
    unfold Cpu.takeTrap at taken
    dsimp only at taken
    split_ifs at taken
    · exact enterM_settles taken
    · exact enterS_settles taken

theorem xret_settles {m : TrapMode} (done : c.xret m = some c') : Settles c c' := by
  cases m with
  | machine =>
    unfold Cpu.xret Cpu.helperMret at done
    dsimp only at done
    split_ifs at done
    obtain ⟨entered, mode, rfl⟩ := map_eq_some_iff.mp done
    exact (riscvSetMode_settles mode).trans ((writeMstatus_settles _ _).trans
      ((writeMcause_settles _ _).trans (settles_trap _ restoreMil_mstatus)))
  | supervisor =>
    unfold Cpu.xret Cpu.helperSret at done
    dsimp only at done
    split_ifs at done
    obtain ⟨entered, mode, rfl⟩ := map_eq_some_iff.mp done
    exact (riscvSetMode_settles mode).trans ((writeSstatus_settles _ _).trans
      ((writeScause_settles _ _).trans (settles_trap _ restoreSil_mstatus)))

theorem apply_settles {op : Operation xlen} (own : op.Own c) (done : op.apply c = some c') :
    Settles c c' := by
  cases op with
  | csrWrite csr v => exact csrWriteHelper_settles own done
  | doInterrupt => exact doInterrupt_settles done
  | doNmi => exact doNmi_settles done
  | xret m => exact xret_settles done

theorem apply_flushedOrSame {op : Operation xlen} (supported : op.Supported c) (own : op.Own c)
    (done : op.apply c = some c') : FlushedOrSame c c' := by
  have settles := apply_settles own done
  cases op with
  | csrWrite csr v =>
    cases status : csr.isStatus with
    | false => exact (csrWriteHelper_steady status own done).either
    | true => exact settles.either (supported status)
  | doInterrupt => exact settles.either supported
  | doNmi => exact settles.either supported
  | xret m => exact settles.either supported

end Settles

/-! ### Runs -/

section Reached

variable {P : Platform xlen} {c c' : Cpu P}

theorem flushedAt_of_tlb {mmuIdx : BitVec xlen} (less : mmuIdx.toNat < P.tlb.nbMmuModes)
    (flushed : c'.tlb = c.tlbFlush.tlb) : FlushedAt c c' mmuIdx := by
  intro i
  rw [flushed]
  exact if_pos less

theorem FlushedOrSame.flushedAt (either : FlushedOrSame c c') {mmuIdx : BitVec xlen}
    (less : mmuIdx.toNat < P.tlb.nbMmuModes) (changes : ChangesAt c c' mmuIdx) :
    FlushedAt c c' mmuIdx := by
  rcases either with flushed | ⟨same, -⟩
  · exact flushedAt_of_tlb less flushed
  · obtain ⟨request, differs⟩ := changes
    exact absurd (same.resultAt mmuIdx request) differs

theorem emptied_word (entry : CPUTLBEntry) (access : AccessType) :
    entry.emptied.word access = none := by
  cases access <;> rfl

theorem FlushedOrSame.noStale (either : FlushedOrSame c c') (noStale : c.NoStale) : c'.NoStale := by
  intro mmuIdx less i access word found
  rcases either with flushed | ⟨same, kept⟩
  · rw [flushedAt_of_tlb less flushed i, emptied_word] at found
    cases found
  · rw [kept] at found ⊢
    exact same.produces (noStale mmuIdx less i access word found)

theorem tlbFill_same (map : MemoryMap) (request : Request xlen) :
    SameTranslation c (c.tlbFill map request) := by
  unfold Cpu.tlbFill
  split
  · exact .refl c
  · exact ⟨fun _ _ => rfl, rfl, rfl, rfl, rfl, rfl⟩

theorem tlbFill_noStale (noStale : c.NoStale) (map : MemoryMap) (request : Request xlen) :
    (c.tlbFill map request).NoStale := by
  intro mmuIdx less i access word found
  refine (tlbFill_same map request).produces ?_
  unfold Cpu.tlbFill at found ⊢
  cases fills : c.cpuHandleMmuFault request c.trap.priv with
  | none =>
    rw [fills] at found
    exact noStale mmuIdx less i access word found
  | some page =>
    rw [fills] at found
    dsimp only [tlbSetPage] at found ⊢
    by_cases sameMode : mmuIdx = c.trap.priv
    · subst sameMode
      rw [Function.update_self] at found ⊢
      by_cases here : i = tlbIndex P.tlb.toTarget (P.tlb.pageBase request.address.toNat)
      · rw [here, Function.update_self] at found ⊢
        refine ⟨map, request, _, word, ?_, tlbIndex_pageBase _ |>.symm, found, rfl, rfl, rfl⟩
        unfold Cpu.newEntry
        rw [show c.inMode c.trap.priv = c from rfl, fills]
        rfl
      · rw [Function.update_of_ne here] at found ⊢
        exact noStale _ less i access word found
    · have other : mmuIdx.toNat ≠ c.trap.priv.toNat := fun same =>
        sameMode (eq_of_toNat_eq same)
      rw [Function.update_of_ne other] at found ⊢
      exact noStale mmuIdx less i access word found

theorem Elsewhere.noStale (other : Elsewhere c c') (noStale : c.NoStale) : c'.NoStale := by
  intro mmuIdx less i access word' found
  obtain ⟨word, before, page, oneShot, place⟩ := other.entries mmuIdx.toNat i access word' found
  obtain ⟨map, request, entry, produced, made, index, has, samePage, sameShot, samePlace⟩ :=
    other.same.produces (noStale mmuIdx less i access word before)
  exact ⟨map, request, entry, produced, made, index, has, samePage.trans page,
    sameShot.trans oneShot, samePlace.trans place⟩

theorem Elsewhere.supported (other : Elsewhere c c') (supported : c.MprvSupported) :
    c'.MprvSupported := by
  unfold Cpu.MprvSupported at supported ⊢
  rwa [other.same.fields mstatusMprv (mem_flushFields (by simp))]

theorem setDefaultMstatus_mprv (H : Hart xlen) (fpu : Bool) :
    getField (setDefaultMstatus fpu : BitVec xlen) mstatusMprv = 0 := by
  have wide := H.le_xlen
  rw [getField_mprv_eq_zero H]
  unfold setDefaultMstatus
  rw [setField_of_not_has (by omega) (by decide)]
  cases fpu with
  | true =>
    rw [if_pos rfl, getLsbD_or, getLsbD_ofNat, getLsbD_ofNat]
    simp [Nat.testBit]
  | false => simp

theorem AtReset.noStale (reset : AtReset c) : c.NoStale := by
  intro mmuIdx less i access word found
  rw [reset.empty mmuIdx.toNat less i access] at found
  cases found

theorem Runs.supported (reset : AtReset c) (runs : Runs c c') : c'.MprvSupported := by
  induction runs with
  | start =>
    obtain ⟨fpu, value⟩ := reset.mstatus
    unfold Cpu.MprvSupported
    rw [value]
    exact .inr (setDefaultMstatus_mprv P.hart fpu)
  | operate before op own done ih => exact (apply_settles own done).supported ih
  | @fill c' before map request ih =>
    have same := @tlbFill_same _ _ c' map request
    unfold Cpu.MprvSupported at ih ⊢
    rwa [same.fields mstatusMprv (mem_flushFields (by simp))]
  | elsewhere before other ih => exact other.supported ih

theorem Runs.noStale (reset : AtReset c) (runs : Runs c c') : c'.NoStale := by
  induction runs with
  | start => exact reset.noStale
  | operate before op own done ih =>
    exact ((apply_settles own done).either (before.supported reset)).noStale ih
  | fill before map request ih => exact tlbFill_noStale ih map request
  | elsewhere before other ih => exact other.noStale ih

end Reached

/-- An operation that changes a result at an index flushes the entries of the index, in every state
in which `MPRV` is clear without U-mode. From a reset on all states are like that, and no entry of
the TLB is stale in them. -/
theorem tlb_follows_translation (P : Platform xlen) :
    (∀ (c c' : Cpu P) (op : Operation xlen), op.apply c = some c' → op.Supported c → op.Own c →
      ∀ mmuIdx : BitVec xlen, mmuIdx.toNat < P.tlb.nbMmuModes →
        ChangesAt c c' mmuIdx → FlushedAt c c' mmuIdx) ∧
    ∀ c c' : Cpu P, AtReset c → Runs c c' → c'.MprvSupported ∧ c'.NoStale := by
  constructor
  · intro c c' op done supported own mmuIdx less changes
    exact (apply_flushedOrSame supported own done).flushedAt less changes
  · exact fun c c' reset runs => ⟨runs.supported reset, runs.noStale reset⟩

/-! ### Two harts -/

def refusingPmp : ExternalPmp where
  Device := Bool
  cfgCsrWrite _ _ _ := (true, false)
  addressCsrWrite _ _ _ := (true, false)
  getAccess written _ _ _ _ _ := if written then 0 else 7
  findOverlapping _ _ _ _ := none
  isAnyRegionLocked _ := false

theorem pages4K_le_64 : 12 ≤ 64 := by decide

theorem four_le : 4 ≤ 32 := by decide

def sampleTlb : TlbTarget where
  pageBits := 12
  longBits := 64
  physAddrBits := 64
  pageBits_ge := TranslationCache.Target.pages4K_ge
  pageBits_le := pages4K_le_64
  nbMmuModes := 4
  nbMmuModes_le := four_le

def samplePlatform (rvu : Bool) : Platform 64 where
  hart := { Trap.sampleHart with rvs := rvu, rvu := rvu }
  pmp := Riscv.sampleHart
  tlb := sampleTlb
  external := refusingPmp
  longBits_eq := rfl
  privilege111_eq := rfl
  tlbLongBits_eq := rfl
  pageBits_eq := rfl
  nbMmuModes_eq := rfl

def closedPmp : PmpState :=
  Riscv.pmpUpdateRule Riscv.sampleHart
    (pmpReset.setEntry 0 { addrReg := 2 ^ 54 - 1, cfgReg := 0x18 }) 0

def sampleTlbState (filled : Bool) : TlbState where
  table mmuIdx i :=
    { addrRead := if filled ∧ mmuIdx = 3 ∧ i = 0 then some ⟨0, false, false, false, false⟩ else none
      addrWrite := none
      addrCode := none
      addend := 0
      iotlb := 0 }
  flushAddr := 2 ^ 64 - 1
  flushMask := 0
  tbJmpCache _ := none
  currentTb := none

def sampleCpu (rvu filled useExternalPmp : Bool) (mstatus : BitVec 64) :
    Cpu (samplePlatform rvu) where
  trap := { sampleState excpNone 0 0 with mstatus := mstatus, priv := Trap.prvM }
  satp := 0
  sptbr := 0
  pmp := closedPmp
  useExternalPmp := useExternalPmp
  external := false
  tlb := sampleTlbState filled

/-- A load of a word. -/
def sampleRequest : Request 64 where
  memory _ := 0
  address := 0
  access := .dataLoad
  accessWidth := 4
  noPageFault := false

theorem sampleCpu_atReset : AtReset (sampleCpu true false false 0x1800) where
  mstatus := ⟨false, by decide⟩
  empty mmuIdx _ i access := by
    cases access <;> simp [sampleCpu, sampleTlbState, CPUTLBEntry.word]

/-- `MPRV` is set, with U-mode as the previous mode. -/
theorem tlb_follows_translation_sample : FlushedAt (sampleCpu true false false 0x1800)
        ((sampleCpu true false false 0x1800).writeMstatus 0x20000) Trap.prvM ∧
      ((sampleCpu true false false 0x1800).writeMstatus 0x20000).NoStale :=
  ⟨(tlb_follows_translation (samplePlatform true)).1 _ _ (.csrWrite .mstatus 0x20000) rfl
      (fun _ => .inl rfl) (fun isPmp => by cases isPmp) Trap.prvM (by decide)
      ⟨sampleRequest, fun same => absurd (congrArg Prod.snd same) (by decide)⟩,
    ((tlb_follows_translation (samplePlatform true)).2 _ _ sampleCpu_atReset
      (.operate .start (.csrWrite .mstatus 0x20000) (fun isPmp => by cases isPmp) rfl)).2⟩

/-- `MPRV` is set on a hart without U-mode: the write of the same word takes it out and does not
flush. A write to an external PMP does not flush either. -/
theorem flush_missed :
    ((Operation.csrWrite .mstatus 0x20000).apply (sampleCpu false true false 0x20000) =
        some ((sampleCpu false true false 0x20000).writeMstatus 0x20000) ∧
      ChangesAt (sampleCpu false true false 0x20000)
        ((sampleCpu false true false 0x20000).writeMstatus 0x20000) Trap.prvM ∧
      ¬FlushedAt (sampleCpu false true false 0x20000)
        ((sampleCpu false true false 0x20000).writeMstatus 0x20000) Trap.prvM) ∧
    ((Operation.csrWrite (.pmpcfg 0) 0).apply (sampleCpu true true true 0x1800) =
        some ((sampleCpu true true true 0x1800).afterCallback (true, false)) ∧
      ChangesAt (sampleCpu true true true 0x1800)
        ((sampleCpu true true true 0x1800).afterCallback (true, false)) Trap.prvM ∧
      ¬FlushedAt (sampleCpu true true true 0x1800)
        ((sampleCpu true true true 0x1800).afterCallback (true, false)) Trap.prvM) := by
  refine ⟨⟨rfl, ⟨sampleRequest, fun same => ?_⟩, fun flushed => ?_⟩,
    rfl, ⟨sampleRequest, fun same => ?_⟩, fun flushed => ?_⟩
  · exact absurd (congrArg Prod.snd same) (by decide)
  · exact absurd (congrArg CPUTLBEntry.addrRead (flushed 0)) (by decide)
  · exact absurd (congrArg Prod.snd same) (by decide)
  · exact absurd (congrArg CPUTLBEntry.addrRead (flushed 0)) (by decide)

end Tlib.Riscv.Translation
