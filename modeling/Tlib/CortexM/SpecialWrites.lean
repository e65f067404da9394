import Tlib.CortexM.ProgramStatus
import Tlib.CortexM.StackPointerRuns

/-!
Contract: what a write of a special register changes, and what a read finds after it.

Owns: the bits that each mode and Security state may write.
-/

namespace Tlib.CortexM

open BitVec

/-- The registers of which each Security state has its own, apart from the stack pointers. -/
structure Bank where
  control : Control
  fpccr : Fpccr
  (fpcar fpdscr vecbase basepri primask faultmask msplim psplim faultStatus : Word)
  memoryFaultAddress : Word
  deriving DecidableEq, Repr

def Cpu.bank (cpu : Cpu) (secure : Bool) : Bank :=
  { control := cpu.control secure
    fpccr := cpu.fpccr secure
    fpcar := cpu.fpcar secure
    fpdscr := cpu.fpdscr secure
    vecbase := cpu.vecbase secure
    basepri := cpu.basepri secure
    primask := cpu.primask secure
    faultmask := cpu.faultmask secure
    msplim := cpu.msplim secure
    psplim := cpu.psplim secure
    faultStatus := cpu.faultStatus secure
    memoryFaultAddress := cpu.memoryFaultAddress secure }

/-- `CONTROL.SFPA` is Secure. -/
structure KeepsBank (cpu cpu' : Cpu) (secure : Bool) : Prop where
  bank : cpu'.bank secure = cpu.bank secure
  pointer : ∀ process, cpu'.pointer ⟨secure, process⟩ = cpu.pointer ⟨secure, process⟩
  sfpa : secure = true → cpu'.sfpa = cpu.sfpa

/-- Nothing differs but the flags of `APSR` and the two bits of `CONTROL`. -/
def Cpu.OnlyFlags (cpu cpu' : Cpu) : Prop :=
  cpu' = { cpu with
    n := cpu'.n
    z := cpu'.z
    c := cpu'.c
    v := cpu'.v
    q := cpu'.q
    fpca := cpu'.fpca
    sfpa := cpu'.sfpa }

def Cpu.viewed (cpu : Cpu) (reg : SpecialRegister) : Bool := cpu.secure && !reg.isRegNs

def SpecialRegister.statusRead : SpecialRegister → Word
  | .apsr => 0xf8000000#32
  | .iapsr => 0xf80001ff#32
  | .eapsr => 0xff00fc00#32
  | .xpsr => 0xff00fdff#32
  | .ipsr => 0x000001ff#32
  | .epsr => 0x0700fc00#32
  | .iepsr => 0x0700edff#32
  | _ => 0#32

/-- The mask of the write. -/
def SpecialRegister.statusWritten : SpecialRegister → Word
  | .apsr | .iapsr => 0xf8000000#32
  | .eapsr | .xpsr => 0xfe00fc00#32
  | .epsr | .iepsr => 0x0600fc00#32
  | _ => 0#32

def Cpu.writable (cpu : Cpu) (reg : SpecialRegister) (val : Word) : Word :=
  if reg.isRegNs && !cpu.secure then 0#32
  else if cpu.inPrivilegedMode then
    match reg with
    | .msp _ | .psp _ | .spNs => 0xFFFFFFFC#32
    | .msplim _ | .psplim _ => 0xFFFFFFFF#32
    | .primask _ | .faultmask _ => 1#32
    | .basepri _ => 0xff#32
    -- `BASEPRI_MAX` takes a value that raises the priority.
    | .basepriMax =>
      if val &&& 0xff#32 ≠ 0 ∧ (val &&& 0xff#32 < cpu.basepri (cpu.viewed reg) ∨
        cpu.basepri (cpu.viewed reg) = 0) then 0xff#32 else 0#32
    | .control _ =>
      3#32 ||| bitIf (cpu.viewed reg || cpu.nsacrCp10) 2 ||| bitIf (cpu.viewed reg) 3
    | status => status.statusWritten
  else
    match reg with
    | .control _ => bitIf (cpu.viewed reg) 3
    | status => status.statusWritten &&& 0xf8000000#32

/-- `MRS` returns what has been written, restricted to the bits that may be. -/
def Cpu.ReadsBack (cpu : Cpu) (reg : SpecialRegister) (val : Word) : Prop :=
  (cpu.v7mMsr reg val).v7mMrs reg &&& cpu.writable reg val = val &&& cpu.writable reg val

structure RespectsPrivilege (cpu : Cpu) (reg : SpecialRegister) (val : Word) : Prop where
  unprivileged : cpu.inPrivilegedMode = false → cpu.OnlyFlags (cpu.v7mMsr reg val)
  nonSecure : cpu.secure = false → KeepsBank cpu (cpu.v7mMsr reg val) true
  readsBack : cpu.ReadsBack reg val
  otherBank : KeepsBank cpu (cpu.v7mMsr reg val) (!cpu.viewed reg)

/-- Privileged code writes what is read back, and unprivileged code what is there already. -/
def Cpu.WriteRespected (cpu : Cpu) (reg : SpecialRegister) (val : Word) : Prop :=
  if cpu.inPrivilegedMode then
    cpu.exception &&& (reg.statusWritten &&& reg.statusRead) &&& ~~~val = 0#32 ∧
      val &&& reg.statusWritten &&& ~~~reg.statusRead = 0#32
  else
    match reg with
    | .apsr | .iapsr | .eapsr | .xpsr => cpu.xpsrRead &&& 0xf8000000#32 = val &&& 0xf8000000#32
    | .msp true | .psp _ | .spNs => ∀ p, cpu.named reg = some p → cpu.pointer p = spMask val
    | .msplim ns => ns && !cpu.secure ∨ cpu.msplim (cpu.viewed reg) = val
    | .psplim ns => ns && !cpu.secure ∨ cpu.psplim (cpu.viewed reg) = val
    | _ => True

variable {cpu : Cpu} {reg : SpecialRegister} {val : Word}

theorem writeSpecial_bank (cpu : Cpu) (reg : SpecialRegister) (isSecure : Bool) (val : Word) :
    (cpu.writeSpecial reg isSecure val).secure = cpu.secure ∧
      (cpu.writeSpecial reg isSecure val).bank (!isSecure) = cpu.bank (!isSecure) ∧
      ((!isSecure) = true → (cpu.writeSpecial reg isSecure val).sfpa = cpu.sfpa) := by
  unfold Cpu.writeSpecial
  split
  · unfold Cpu.writeMsp Cpu.setMsp
    split_ifs <;> exact ⟨rfl, rfl, fun _ => rfl⟩
  · unfold Cpu.writePsp Cpu.setPsp
    split_ifs <;> exact ⟨rfl, rfl, fun _ => rfl⟩
  · cases isSecure <;> exact ⟨rfl, rfl, fun _ => rfl⟩
  · cases isSecure <;> exact ⟨rfl, rfl, fun _ => rfl⟩
  · unfold Cpu.writeControl Cpu.reselectStack
    -- The switch of the stack pointers leaves the banks alone.
    have switched (c : Cpu) (process : Bool) := switchV7mSp_relocates c process
    split_ifs
    · exact ⟨rfl, rfl, by cases isSecure <;> simp [Cpu.writeSfpa]⟩
    · refine ⟨switchV7mSp_secure _ _, ((switched _ _).same fun c => c.bank (!isSecure)).trans ?_,
        fun other => ?_⟩
      · cases isSecure <;> rfl
      · refine ((switched _ _).same Cpu.sfpa).trans ?_
        cases isSecure
        · rfl
        · cases other
    · cases isSecure
      · exact ⟨rfl, rfl, fun _ => rfl⟩
      · exact ⟨rfl, rfl, fun other => by cases other⟩
  · unfold Cpu.writeSpNs
    split_ifs <;> exact ⟨rfl, rfl, fun _ => rfl⟩
  · unfold Cpu.writeMasks Cpu.raiseBasepri
    split
    · exact ⟨rfl, rfl, fun _ => rfl⟩
    · split <;> try split_ifs
      all_goals cases isSecure <;> exact ⟨rfl, rfl, fun _ => rfl⟩

theorem v7mMsr_secure (cpu : Cpu) (reg : SpecialRegister) (val : Word) :
    (cpu.v7mMsr reg val).secure = cpu.secure := by
  unfold Cpu.v7mMsr
  split
  · rfl
  · exact (writeSpecial_bank cpu reg _ val).1

theorem v7mMsr_keepsBank (cpu : Cpu) (reg : SpecialRegister) (val : Word) :
    KeepsBank cpu (cpu.v7mMsr reg val) (!cpu.viewed reg) := by
  have moves := v7mMsr_movesTarget (F := Features.v7m) cpu reg val
  have pointer (process : Bool) : (cpu.v7mMsr reg val).pointer ⟨!cpu.viewed reg, process⟩ =
      cpu.pointer ⟨!cpu.viewed reg, process⟩ := by
    apply moves
    intro named
    exact Bool.not_ne_self _ (named_viewed named)
  have written := writeSpecial_bank cpu reg (cpu.viewed reg) val
  unfold Cpu.v7mMsr at pointer ⊢
  split
  · exact ⟨rfl, fun _ => rfl, fun _ => rfl⟩
  · rename_i seen
    rw [if_neg seen] at pointer
    exact ⟨written.2.1, pointer, written.2.2⟩

theorem readsBack_nothing (nothing : cpu.writable reg val = 0#32) : cpu.ReadsBack reg val := by
  unfold Cpu.ReadsBack
  rw [nothing, and_zero, and_zero]

theorem word_eq_iff (a b : Word) : a = b ↔ ∀ i < 32, a.getLsbD i = b.getLsbD i :=
  ⟨fun same _ _ => same ▸ rfl, eq_of_getLsbD_eq⟩

theorem readMasked_iff (number val written read : Word) :
    (val ||| number) &&& written &&& read = val &&& written ↔
      number &&& (written &&& read) &&& ~~~val = 0#32 ∧ val &&& written &&& ~~~read = 0#32 := by
  rw [word_eq_iff, word_eq_iff, word_eq_iff, ← forall_and]
  apply forall_congr'
  intro i
  rw [← imp_and]
  apply imp_congr_right
  intro inside
  simp only [getLsbD_and, getLsbD_or, getLsbD_not, getLsbD_zero,
    inside, decide_true, Bool.true_and]
  cases val.getLsbD i <;> cases number.getLsbD i <;> cases written.getLsbD i <;>
    cases read.getLsbD i <;> simp

theorem v7mMrs_status (cpu : Cpu) (status : reg.statusWritten ≠ 0#32) :
    cpu.v7mMrs reg = cpu.xpsrRead &&& reg.statusRead := by
  cases reg <;> first | exact absurd rfl status | rfl

theorem status_readsBack (privileged : cpu.inPrivilegedMode = true)
    (status : reg.statusWritten ≠ 0#32) :
    cpu.ReadsBack reg val ↔
      cpu.exception &&& (reg.statusWritten &&& reg.statusRead) &&& ~~~val = 0#32 ∧
        val &&& reg.statusWritten &&& ~~~reg.statusRead = 0#32 := by
  have unmasked : ¬ (!cpu.inPrivilegedMode) = true := by
    rw [privileged]
    decide
  have written : cpu.v7mMsr reg val = cpu.xpsrWrite val reg.statusWritten := by
    cases reg <;> first | exact absurd rfl status | exact if_neg unmasked
  have mask : cpu.writable reg val = reg.statusWritten := by
    cases reg <;> first | exact absurd rfl status | exact if_pos privileged
  have masks : reg.statusWritten = 0xf8000000#32 ∨ reg.statusWritten = 0xfe00fc00#32 ∨
      reg.statusWritten = 0x0600fc00#32 := by
    cases reg <;> first | exact absurd rfl status | decide
  unfold Cpu.ReadsBack
  rw [written, v7mMrs_status _ status, mask, BitVec.and_assoc,
    BitVec.and_comm reg.statusRead, ← BitVec.and_assoc,
    xpsrWrite_read cpu val masks]
  exact readMasked_iff _ _ _ _

theorem control_readsBack (cpu : Cpu) (isSecure : Bool) (val : Word)
    (privileged : cpu.inPrivilegedMode = true) :
    (cpu.writeControl isSecure val).controlRead isSecure &&&
        (3#32 ||| bitIf (isSecure || cpu.nsacrCp10) 2 ||| bitIf isSecure 3) =
      val &&& (3#32 ||| bitIf (isSecure || cpu.nsacrCp10) 2 ||| bitIf isSecure 3) := by
  have bits : (cpu.writeControl isSecure val).controlRead isSecure =
      ((cpu.writeSfpa isSecure val).writeControlBits isSecure val).controlRead isSecure := by
    have stillPrivileged : ¬ (!(cpu.writeSfpa isSecure val).inPrivilegedMode) = true := by
      show ¬ (!cpu.inPrivilegedMode) = true
      rw [privileged]
      decide
    unfold Cpu.writeControl
    rw [if_neg stillPrivileged]
    unfold Cpu.reselectStack
    split
    · exact (switchV7mSp_relocates _ _).same fun c => c.controlRead isSecure
    · rfl
  have three : ∀ j : Fin 32, (3#32).getLsbD j = decide (j.val < 2) := by decide
  rw [bits, word_eq_iff]
  intro i inside
  unfold Cpu.controlRead Cpu.writeControlBits Cpu.writeSfpa
  simp only [setBank_same, getLsbD_and, getLsbD_or, bitIf_getLsbD _ _ _ inside,
    three ⟨i, inside⟩]
  by_cases low : i < 4
  · interval_cases i <;> cases isSecure <;> cases cpu.nsacrCp10 <;> simp
  · have apart (k : Nat) (below : k < 4) : decide (i = k) = false := decide_eq_false (by omega)
    have above : ¬ i < 2 := by omega
    simp [apart, above]

theorem pointer_readsBack {p : StackPointer} (named : cpu.named reg = some p)
    (privileged : cpu.inPrivilegedMode = true) :
    (cpu.v7mMsr reg val).v7mMrs reg = spMask val := by
  have secure := v7mMsr_secure cpu reg val
  have exception := (v7mMsr_selects cpu reg val).1
  have stillNamed : (cpu.v7mMsr reg val).named reg = some p := by
    rw [← named]
    cases reg with
    | spNs =>
      have control : (cpu.v7mMsr .spNs val).control = cpu.control := by
        unfold Cpu.v7mMsr Cpu.writeSpecial Cpu.writeSpNs
        split_ifs <;> rfl
      unfold Cpu.named Cpu.isUsingProcessSp Cpu.inHandlerMode
      rw [secure, exception, control]
    | _ =>
      unfold Cpu.named
      rw [secure]
  rw [(readsOwn _).reads reg p stillNamed]
  exact (readsOwn cpu).writes reg p val named privileged

theorem readsBack_banked (privileged : cpu.inPrivilegedMode = true)
    (other : reg.statusWritten = 0#32) :
    cpu.ReadsBack reg val := by
  by_cases seen : (reg.isRegNs && !cpu.secure) = true
  · exact readsBack_nothing (if_pos seen)
  rcases named : cpu.named reg with _ | p
  rotate_left
  · have mask : cpu.writable reg val = 0xFFFFFFFC#32 := by
      unfold Cpu.writable
      rw [if_neg seen, if_pos privileged]
      cases reg <;> first | rfl | cases named
    unfold Cpu.ReadsBack
    rw [pointer_readsBack named privileged, mask, spMask, BitVec.and_assoc, BitVec.and_self]
  have unmasked : ¬ (!cpu.inPrivilegedMode) = true := by
    rw [privileged]
    decide
  have written : cpu.v7mMsr reg val = cpu.writeSpecial reg (cpu.viewed reg) val := if_neg seen
  have secure := v7mMsr_secure cpu reg val
  unfold Cpu.ReadsBack Cpu.v7mMrs Cpu.writable
  rw [secure, written, if_neg seen, if_neg seen, if_pos privileged]
  cases reg with
  | apsr | iapsr | eapsr | xpsr | epsr | iepsr => exact absurd other (by decide)
  | ipsr => exact and_zero.trans and_zero.symm
  | msplim ns =>
    show setBank cpu.msplim (cpu.viewed (.msplim ns)) val (cpu.viewed (.msplim ns)) &&& _ = _
    rw [setBank_same]
  | psplim ns =>
    show setBank cpu.psplim (cpu.viewed (.psplim ns)) val (cpu.viewed (.psplim ns)) &&& _ = _
    rw [setBank_same]
  | control ns => exact control_readsBack cpu _ val privileged
  | basepri ns =>
    have stored : cpu.writeSpecial (.basepri ns) (cpu.viewed (.basepri ns)) val = _ :=
      if_neg unmasked
    rw [stored]
    show setBank cpu.basepri (cpu.viewed (.basepri ns)) (val &&& 0xff#32)
      (cpu.viewed (.basepri ns)) &&& 0xff#32 = _
    rw [setBank_same, BitVec.and_assoc, BitVec.and_self]
  | faultmask ns =>
    have stored : cpu.writeSpecial (.faultmask ns) (cpu.viewed (.faultmask ns)) val = _ :=
      if_neg unmasked
    rw [stored]
    show setBank cpu.faultmask (cpu.viewed (.faultmask ns)) (val &&& 1#32)
      (cpu.viewed (.faultmask ns)) &&& 1#32 = _
    rw [setBank_same, BitVec.and_assoc, BitVec.and_self]
  | basepriMax =>
    have stored : cpu.writeSpecial .basepriMax (cpu.viewed .basepriMax) val =
        cpu.raiseBasepri (cpu.viewed .basepriMax) (val &&& 0xff#32) := if_neg unmasked
    rw [stored]
    show (cpu.raiseBasepri (cpu.viewed .basepriMax) (val &&& 0xff#32)).basepri
      (cpu.viewed .basepriMax) &&& _ = _
    unfold Cpu.raiseBasepri
    by_cases raises : val &&& 0xff#32 ≠ 0 ∧ (val &&& 0xff#32 < cpu.basepri
        (cpu.viewed .basepriMax) ∨ cpu.basepri (cpu.viewed .basepriMax) = 0)
    · simp only [if_pos raises]
      rw [setBank_same, BitVec.and_assoc, BitVec.and_self]
    · simp only [if_neg raises]
      rw [and_zero, and_zero]
  | primask ns =>
    have stored : cpu.writeSpecial (.primask ns) (cpu.viewed (.primask ns)) val = _ :=
      if_neg unmasked
    rw [stored]
    show bitIf ((setBank cpu.primask (cpu.viewed (.primask ns)) _
      (cpu.viewed (.primask ns))).getLsbD 0) 0 &&& 1#32 = _
    rw [setBank_same, word_eq_iff]
    intro i inside
    rw [getLsbD_and, getLsbD_and, bitIf_getLsbD _ _ _ inside, getLsbD_one]
    by_cases first : i = 0
    · subst first
      cases val.getLsbD 0 <;> simp
    · simp [first]
  | msp ns | psp ns | spNs => cases named.symm.trans (if_neg seen)

theorem readsBack_privileged (privileged : cpu.inPrivilegedMode = true) : cpu.ReadsBack reg val ↔
      cpu.WriteRespected reg val := by
  unfold Cpu.WriteRespected
  rw [if_pos privileged]
  by_cases status : reg.statusWritten = 0#32
  · rw [status]
    simp [readsBack_banked privileged status]
  · exact status_readsBack privileged status

theorem setBank_self {α : Type} (bank : Bool → α) {secure : Bool} {value : α}
    (same : bank secure = value) : setBank bank secure value = bank := by
  funext other
  by_cases own : other = secure
  · rw [own, setBank_same, same]
  · exact setBank_other bank value own

theorem setOtherSsMsp_self {value : Word} (same : cpu.pointer ⟨!cpu.secure, false⟩ = value) :
    cpu.setOtherSsMsp value = cpu := by
  rw [← same, ← otherSsMsp_eq]
  rfl

theorem setOtherSsPsp_self {value : Word} (same : cpu.pointer ⟨!cpu.secure, true⟩ = value) :
    cpu.setOtherSsPsp value = cpu := by
  rw [← same, ← otherSsPsp_eq]
  rfl

theorem setPsp_self {value : Word} (same : cpu.pointer ⟨cpu.secure, true⟩ = value) :
    cpu.setPsp value = cpu := by
  rw [← same, ← getPsp_eq]
  unfold Cpu.setPsp Cpu.getPsp
  split <;> rfl

theorem pointer_written {p : StackPointer} (named : cpu.named reg = some p)
    (unchecked : reg ≠ .msp false) :
    (cpu.v7mMsr reg val).pointer p = spMask val ∧
      (cpu.pointer p = spMask val → cpu.v7mMsr reg val = cpu) := by
  cases reg <;> simp only [Cpu.named, reduceCtorEq] at named
  case msp ns =>
    cases ns <;> cases secure : cpu.secure <;>
      simp_all [Cpu.v7mMsr, Cpu.writeSpecial, Cpu.writeMsp, SpecialRegister.isRegNs,
        pointer_setOtherSsMsp]
    exact fun same => setOtherSsMsp_self (by simp_all)
  case psp ns =>
    cases ns <;> cases secure : cpu.secure <;>
      simp_all [Cpu.v7mMsr, Cpu.writeSpecial, Cpu.writePsp, SpecialRegister.isRegNs,
        pointer_setPsp, pointer_setOtherSsPsp]
    · exact fun same => setPsp_self (by simp_all)
    · exact fun same => setPsp_self (by simp_all)
    · exact fun same => setOtherSsPsp_self (by simp_all)
  case spNs =>
    cases secure : cpu.secure <;>
      cases process : cpu.isUsingProcessSp cpu.inHandlerMode false <;>
      simp_all [Cpu.v7mMsr, Cpu.writeSpecial, Cpu.writeSpNs, SpecialRegister.isRegNs,
        pointer_setOtherSsMsp, pointer_setOtherSsPsp]
    · exact fun same => setOtherSsMsp_self (by simp_all)
    · exact fun same => setOtherSsPsp_self (by simp_all)

theorem onlyFlags_pointer {p : StackPointer} (named : cpu.named reg = some p)
    (unchecked : reg ≠ .msp false) :
    cpu.OnlyFlags (cpu.v7mMsr reg val) ↔ cpu.pointer p = spMask val := by
  have moved : (cpu.v7mMsr reg val).pointer p = spMask val ∧
      (cpu.pointer p = spMask val → cpu.v7mMsr reg val = cpu) := pointer_written named unchecked
  constructor
  · intro only
    rw [← moved.1]
    exact (congrArg (fun c => c.pointer p) only).symm
  · intro same
    rw [moved.2 same]
    rfl

theorem onlyFlags_limit (limit : Cpu → Bool → Word) (stored : (Bool → Word) → Cpu)
    (written : cpu.v7mMsr reg val = if (reg.isRegNs && !cpu.secure) = true then cpu
      else stored (setBank (limit cpu) (cpu.viewed reg) val))
    (reads : ∀ bank, limit (stored bank) = bank) (same : stored (limit cpu) = cpu)
    (kept : ∀ c, cpu.OnlyFlags c → limit c = limit cpu) :
    cpu.OnlyFlags (cpu.v7mMsr reg val) ↔
      (reg.isRegNs && !cpu.secure) = true ∨ limit cpu (cpu.viewed reg) = val := by
  rw [written]
  by_cases seen : (reg.isRegNs && !cpu.secure) = true
  · rw [if_pos seen]
    exact iff_of_true rfl (Or.inl seen)
  · rw [if_neg seen, or_iff_right seen]
    constructor
    · intro only
      rw [← kept _ only, reads, setBank_same]
    · intro there
      rw [setBank_self _ there, same]
      rfl

section

variable (user : cpu.inPrivilegedMode = false)

include user

theorem writable_user (none : reg.statusWritten &&& 0xf8000000#32 = 0#32)
    (notControl : ∀ ns, reg ≠ .control ns) : cpu.writable reg val = 0#32 := by
  unfold Cpu.writable
  rw [user]
  split
  · rfl
  · cases reg <;> first | exact none | exact absurd rfl (notControl _)

theorem flags_unprivileged (status : reg.statusWritten ≠ 0#32)
    (flags : reg.statusWritten &&& 0xf8000000#32 = 0xf8000000#32) :
    cpu.OnlyFlags (cpu.v7mMsr reg val) ∧ cpu.ReadsBack reg val ↔
      cpu.xpsrRead &&& 0xf8000000#32 = val &&& 0xf8000000#32 := by
  have masked : (!cpu.inPrivilegedMode) = true := by
    rw [user]
    decide
  have ignored : cpu.v7mMsr reg val = cpu := by
    cases reg <;> first | exact absurd rfl status | exact if_pos masked
  have mask : cpu.writable reg val = 0xf8000000#32 := by
    have unprivileged : ¬ cpu.inPrivilegedMode = true := Bool.not_eq_true _ ▸ user
    refine Eq.trans ?_ flags
    cases reg <;> first | exact absurd rfl status | exact if_neg unprivileged
  have read : reg.statusRead &&& 0xf8000000#32 = 0xf8000000#32 := by
    cases reg <;> first | exact absurd rfl status | exact absurd flags (by decide) | decide
  unfold Cpu.ReadsBack
  rw [ignored, v7mMrs_status cpu status, mask, BitVec.and_assoc, read]
  exact and_iff_right rfl

theorem pointers_unprivileged (notControl : ∀ ns, reg ≠ .control ns)
    (pointer : reg ≠ .msp false ∧ (cpu.named reg = none → cpu.v7mMsr reg val = cpu))
    (none : reg.statusWritten = 0#32) :
    cpu.OnlyFlags (cpu.v7mMsr reg val) ∧ cpu.ReadsBack reg val ↔
      ∀ p, cpu.named reg = some p → cpu.pointer p = spMask val := by
  rw [and_iff_left (readsBack_nothing (writable_user user (by rw [none]; rfl) notControl))]
  rcases named : cpu.named reg with _ | p
  · rw [pointer.2 named]
    exact iff_of_true rfl fun p other => by cases other
  · rw [onlyFlags_pointer named pointer.1]
    exact ⟨fun same q other => Option.some.inj other ▸ same, fun same => same p rfl⟩

theorem unprivileged_iff : cpu.OnlyFlags (cpu.v7mMsr reg val) ∧ cpu.ReadsBack reg val ↔
      cpu.WriteRespected reg val := by
  have masked : (!cpu.inPrivilegedMode) = true := by
    rw [user]
    decide
  have ignored (written : cpu.writeSpecial reg (cpu.viewed reg) val = cpu)
      (nothing : cpu.writable reg val = 0#32) :
      cpu.OnlyFlags (cpu.v7mMsr reg val) ∧ cpu.ReadsBack reg val := by
    have kept : cpu.v7mMsr reg val = cpu := by
      unfold Cpu.v7mMsr
      split
      · rfl
      · exact written
    rw [kept]
    exact ⟨rfl, readsBack_nothing nothing⟩
  unfold Cpu.WriteRespected
  rw [user, if_neg Bool.false_ne_true]
  cases reg with
  | apsr | iapsr | eapsr | xpsr => exact flags_unprivileged user (by decide) (by decide)
  | ipsr | epsr | iepsr | basepriMax =>
    exact iff_of_true (ignored (if_pos masked) (writable_user user rfl (by simp))) trivial
  | primask ns | basepri ns | faultmask ns =>
    refine iff_of_true (ignored (if_pos masked) ?_) trivial
    exact writable_user user zero_and (by simp)
  | msp ns =>
    cases ns
    · refine iff_of_true (ignored (if_pos masked) ?_) trivial
      exact writable_user user zero_and (by simp)
    · refine pointers_unprivileged user (by simp) ⟨by simp, fun named => if_pos ?_⟩ rfl
      simpa [Cpu.named, SpecialRegister.isRegNs] using named
  | psp ns =>
    refine pointers_unprivileged user (by simp) ⟨by simp, fun named => if_pos ?_⟩ rfl
    simpa [Cpu.named, SpecialRegister.isRegNs] using named
  | spNs =>
    refine pointers_unprivileged user (by simp) ⟨by simp, fun named => if_pos ?_⟩ rfl
    simpa [Cpu.named, SpecialRegister.isRegNs] using named
  | msplim ns =>
    rw [and_iff_left (readsBack_nothing (writable_user user zero_and (by simp)))]
    exact onlyFlags_limit Cpu.msplim (fun bank => { cpu with msplim := bank }) rfl
      (fun _ => rfl) rfl fun c only => (congrArg Cpu.msplim only :)
  | psplim ns =>
    rw [and_iff_left (readsBack_nothing (writable_user user zero_and (by simp)))]
    exact onlyFlags_limit Cpu.psplim (fun bank => { cpu with psplim := bank }) rfl
      (fun _ => rfl) rfl fun c only => (congrArg Cpu.psplim only :)
  | control ns =>
    refine iff_of_true ?_ trivial
    by_cases seen : (ns && !cpu.secure) = true
    · have unseen : cpu.v7mMsr (.control ns) val = cpu := if_pos seen
      rw [unseen]
      exact ⟨rfl, readsBack_nothing (if_pos seen)⟩
    · have written : cpu.v7mMsr (.control ns) val =
          cpu.writeSfpa (cpu.viewed (.control ns)) val := (if_neg seen).trans (if_pos masked)
      have mask : cpu.writable (.control ns) val = bitIf (cpu.viewed (.control ns)) 3 := by
        unfold Cpu.writable
        rw [user]
        exact if_neg seen
      have read : (cpu.writeSfpa (cpu.viewed (.control ns)) val).v7mMrs (.control ns) =
          (cpu.writeSfpa (cpu.viewed (.control ns)) val).controlRead
            (cpu.viewed (.control ns)) := if_neg seen
      unfold Cpu.ReadsBack
      rw [written, mask, read]
      refine ⟨rfl, ?_⟩
      cases secure : cpu.viewed (.control ns)
      · exact and_zero.trans and_zero.symm
      · rw [word_eq_iff]
        intro i inside
        unfold Cpu.controlRead Cpu.writeSfpa
        simp only [getLsbD_and, getLsbD_or, bitIf_getLsbD _ _ _ inside]
        by_cases third : i = 3
        · subst third
          simp
        · simp [third]

end

/-- With privilege the bits that a read leaves out must be written as they are kept, and without
it a write must name what the register holds already. -/
theorem respectsPrivilege_iff (cpu : Cpu) (reg : SpecialRegister) (val : Word) :
    RespectsPrivilege cpu reg val ↔ cpu.WriteRespected reg val := by
  have other := v7mMsr_keepsBank cpu reg val
  have nonSecure (state : cpu.secure = false) : KeepsBank cpu (cpu.v7mMsr reg val) true := by
    have viewed : cpu.viewed reg = false := by
      unfold Cpu.viewed
      rw [state, Bool.false_and]
    rw [viewed] at other
    exact other
  cases mode : cpu.inPrivilegedMode with
  | true =>
    rw [← readsBack_privileged mode]
    exact ⟨fun respects => respects.readsBack,
      fun back => ⟨fun user => absurd (mode.symm.trans user) (by decide), nonSecure, back, other⟩⟩
  | false =>
    rw [← unprivileged_iff mode]
    exact ⟨fun respects => ⟨respects.unprivileged mode, respects.readsBack⟩,
      fun both => ⟨fun _ => both.1, nonSecure, both.2, other⟩⟩

def Cpu.unprivilegedAtRest : Cpu :=
  { Cpu.atRest false with control := fun _ => { nPriv := true, spsel := false } }

/-- Unprivileged code writes `PSP` and `MSPLIM`. -/
theorem unprivileged_psp_written : Cpu.unprivilegedAtRest.inPrivilegedMode = false ∧
      Cpu.unprivilegedAtRest.getPsp = 0x3000#32 ∧
      (Cpu.unprivilegedAtRest.v7mMsr (.psp false) 0x8000#32).getPsp = 0x8000#32 ∧
      ¬ RespectsPrivilege Cpu.unprivilegedAtRest (.psp false) 0x8000#32 := by
  refine ⟨by decide, by decide, by decide, fun respects => ?_⟩
  have only := respects.unprivileged (by decide)
  exact absurd (congrArg Cpu.getPsp only) (by decide)

end Tlib.CortexM
