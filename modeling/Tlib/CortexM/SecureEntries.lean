import Tlib.CortexM.LazyEqualsEager

/-!
Contract: Secure code that is interrupted by a Non-secure exception.

Owns: what a Non-secure handler can tell of two Secure states that differ in their registers only.
-/

namespace Tlib.CortexM

open Tlib.Library.WordStack

variable {first second handled : Cpu} {F : Features} {E : Environment}
  {acknowledged number lr : Word}

/-! ### Two Secure states -/

/-- The parts that Secure code keeps to itself, and the memory, taken from another state. -/
def Cpu.withPrivate (cpu other : Cpu) : Cpu :=
  { cpu with
    r := other.r
    lr := other.lr
    pc := other.pc
    n := other.n
    z := other.z
    c := other.c
    v := other.v
    q := other.q
    ge := other.ge
    s := other.s
    fpscr := other.fpscr
    vpr := other.vpr
    memory := other.memory }

def Alike (first second : Cpu) : Prop := second = first.withPrivate second

theorem Alike.same {α : Type} (alike : Alike first second) (part : Cpu → α) :
    part second = part (first.withPrivate second) := congrArg part alike

structure SameFpRegisters (first second : Cpu) : Prop where
  s : second.s = first.s
  fpscr : second.fpscr = first.fpscr
  vpr : second.vpr = first.vpr

/-- The states differ only in registers of the code, and with `FPCCR.TS` in those of the unit. -/
structure DifferPrivately (first second : Cpu) : Prop where
  alike : Alike first second
  memory : second.memory = first.memory
  fp : first.ts = false → SameFpRegisters first second

/-- The flags of `APSR`. -/
structure SameFlags (first second : Cpu) : Prop where
  n : second.n = first.n
  z : second.z = first.z
  c : second.c = first.c
  v : second.v = first.v
  q : second.q = first.q
  ge : second.ge = first.ge

/-- What floating-point instructions find after their lazy preservation. -/
def Cpu.readFp (F : Features) (cpu : Cpu) : (Fin 32 → Word) × Word × Word :=
  ((cpu.fpLspSaveToStack F).cpu.s, (cpu.fpLspSaveToStack F).cpu.fpscr,
    (cpu.fpLspSaveToStack F).cpu.vpr)

/-- Nothing outside `hidden` tells the two states apart. -/
structure SameView (F : Features) (hidden : Word → Prop) (first second : Cpu) : Prop where
  others : second = { first with
    s := second.s
    fpscr := second.fpscr
    vpr := second.vpr
    memory := second.memory }
  memory : ∀ b, ¬ hidden b → second.memory b = first.memory b
  fp : second.readFp F = first.readFp F

/-! ### Entries of alike states -/

section

variable (alike : Alike first second)

include alike

theorem aligned_alike : Alike (first.aligned number) (second.aligned number) := by
  unfold Alike at alike ⊢
  rw [alike]
  rfl

theorem reservedExtended_alike : Alike first.reservedExtended second.reservedExtended := by
  unfold Alike at alike ⊢
  rw [alike]
  rfl

theorem withStack_alike {stack other : Stack 32}
    (sp : other.sp = stack.sp) : Alike (first.withStack stack) (second.withStack other) := by
  obtain ⟨memory, top⟩ := stack
  cases sp
  rw [alike]
  rfl

theorem pushedExtended_alike : Alike (first.pushedExtended F) (second.pushedExtended F) := by
  have cleared : Alike first.clearFpca second.clearFpca := by
    unfold Alike at alike ⊢
    rw [alike]
    rfl
  apply withStack_alike cleared
  rw [pushAll_sp, pushAll_sp, extendedPushes_length, extendedPushes_length]
  unfold Cpu.pushedFpWords Cpu.stack
  rw [alike.same Cpu.ts, alike.same Cpu.sp]
  rfl

theorem invalidateVfpRegs_alike (shouldClear : Bool) :
    Alike (first.invalidateVfpRegs shouldClear) (second.invalidateVfpRegs shouldClear) := by
  unfold Cpu.invalidateVfpRegs
  split
  · unfold Alike at alike ⊢
    rw [alike]
    rfl
  · exact alike

theorem extended_alike : Alike (first.extended F number) (second.extended F number) := by
  have aligned : Alike (first.aligned number) (second.aligned number) := aligned_alike alike
  have ts : second.ts = first.ts := alike.same Cpu.ts
  unfold Cpu.extended
  rw [alike.same Cpu.fpca, alike.same Cpu.lspen]
  show Alike _ (if first.fpca then if first.lspen then _ else _ else _)
  split
  · split
    · exact reservedExtended_alike aligned
    · rw [ts]
      exact invalidateVfpRegs_alike (pushedExtended_alike aligned) _
  · exact aligned

theorem clearIfLeaving_alike : Alike (first.clearIfLeaving F lr) (second.clearIfLeaving F lr) := by
  have leaves : second.leavesSecure F lr = first.leavesSecure F lr := by
    unfold Cpu.leavesSecure
    rw [alike.same Cpu.secure]
    rfl
  unfold Cpu.clearIfLeaving
  rw [leaves]
  split
  · unfold Alike at alike ⊢
    rw [alike]
    rfl
  · exact alike

theorem framed_alike (xpsr other : Word) :
    Alike (first.framed F xpsr lr) (second.framed F other lr) := by
  apply clearIfLeaving_alike
  apply withStack_alike alike
  rw [pushAll_sp, pushAll_sp, List.length_reverse, List.length_reverse, coreFrame_length,
    coreFrame_length]
  unfold Cpu.coreWords Cpu.leavesSecure Cpu.stack
  rw [alike.same Cpu.secure, alike.same Cpu.sp]
  rfl

theorem switchV7mSecurityState_alike (secure : Bool) :
    Alike (first.switchV7mSecurityState secure) (second.switchV7mSecurityState secure) := by
  have state : second.secure = first.secure := alike.same Cpu.secure
  unfold Cpu.switchV7mSecurityState
  rw [state]
  split
  · exact alike
  · unfold Alike at alike ⊢
    rw [alike]
    rfl

theorem switchV7mSp_alike (process : Bool) :
    Alike (first.switchV7mSp process) (second.switchV7mSp process) := by
  have state : second.processSp = first.processSp := alike.same Cpu.processSp
  unfold Cpu.switchV7mSp
  rw [state]
  split
  · unfold Alike at alike ⊢
    rw [alike]
    rfl
  · exact alike

theorem selectHandlerStack_alike :
    Alike (first.selectHandlerStack F lr) (second.selectHandlerStack F lr) := by
  apply switchV7mSp_alike
  split
  · exact switchV7mSecurityState_alike alike _
  · exact alike

theorem enterHandler_alike
    (address : (second.selectHandlerStack F lr).handlerAddress =
      (first.selectHandlerStack F lr).handlerAddress) :
    Alike (first.enterHandler F lr) (second.enterHandler F lr) := by
  have selected : Alike (first.selectHandlerStack F lr) (second.selectHandlerStack F lr) :=
    selectHandlerStack_alike alike
  unfold Cpu.enterHandler Cpu.fetchHandler
  rw [address]
  unfold Alike at selected ⊢
  rw [selected]
  rfl

end

/-! ### What the handler can read -/

def Cpu.VectorApart (F : Features) (cpu : Cpu) (number lr : Word) : Prop :=
  ∀ b, Within (cpu.vecbase (excReturnEs lr) + number * 4#32) 4 b → ¬ cpu.InFrame F lr b

theorem inFrame_alike (alike : Alike first second) (b : Word) :
    second.InFrame F lr b ↔ first.InFrame F lr b := by
  have sp : second.sp = first.sp := alike.same Cpu.sp
  have secure : second.secure = first.secure := alike.same Cpu.secure
  have fpca : second.fpca = first.fpca := alike.same Cpu.fpca
  have lspen : second.lspen = first.lspen := alike.same Cpu.lspen
  have ts : second.ts = first.ts := alike.same Cpu.ts
  unfold Cpu.InFrame Cpu.frameBase Cpu.frameTop Cpu.misaligned Cpu.coreWords Cpu.leavesSecure
    Cpu.fpWords Cpu.fpReservationWords Cpu.pushedFpWords
  rw [sp, secure, fpca, lspen, ts]

theorem entered_memory_alike (differ : DifferPrivately first second) {b : Word}
    (outside : ¬ first.InFrame F lr b) :
    (second.entered F number lr).memory b = (first.entered F number lr).memory b := by
  rw [entered_outside number outside, entered_outside number, differ.memory]
  rw [inFrame_alike differ.alike]
  exact outside

theorem extended_rest (F : Features) (cpu : Cpu) (number : Word) :
    (cpu.extended F number).vecbase = cpu.vecbase ∧ (cpu.extended F number).r = cpu.r ∧
      SameFlags cpu (cpu.extended F number) := by
  unfold Cpu.extended Cpu.invalidateVfpRegs
  split
  · split
    · exact ⟨rfl, rfl, rfl, rfl, rfl, rfl, rfl, rfl⟩
    · split <;> exact ⟨rfl, rfl, rfl, rfl, rfl, rfl, rfl, rfl⟩
  · exact ⟨rfl, rfl, rfl, rfl, rfl, rfl, rfl, rfl⟩

theorem handlerAddress_eq (trustzone : F.hasTrustzone = true) (cpu : Cpu) :
    (((cpu.extended F number).framed F cpu.stackedXpsr lr).selectHandlerStack
        F lr).handlerAddress =
      load (cpu.entered F number lr).memory
        (cpu.vecbase (excReturnEs lr) + number * 4#32) := by
  have exception :
      (((cpu.extended F number).framed F cpu.stackedXpsr lr).selectHandlerStack F lr).exception =
        number := by
    rw [selectHandlerStack_exception, (framed_keepsStacks F _ _ lr).2]
    exact (extended_known F cpu number).exception
  have secure :
      (((cpu.extended F number).framed F cpu.stackedXpsr lr).selectHandlerStack F lr).secure =
        excReturnEs lr := entered_secure number lr trustzone
  have vecbase :
      (((cpu.extended F number).framed F cpu.stackedXpsr lr).selectHandlerStack F lr).vecbase =
        cpu.vecbase :=
    (@entered_part cpu F _ Cpu.vecbase number lr).trans (extended_rest F cpu number).1
  unfold Cpu.handlerAddress
  rw [exception, secure, vecbase]
  rfl

theorem handlerAddress_alike (trustzone : F.hasTrustzone = true)
    (differ : DifferPrivately first second) (vector : first.VectorApart F number lr) :
    (((second.extended F number).framed F second.stackedXpsr lr).selectHandlerStack
        F lr).handlerAddress =
      (((first.extended F number).framed F first.stackedXpsr lr).selectHandlerStack
        F lr).handlerAddress := by
  have vecbase : second.vecbase = first.vecbase := differ.alike.same Cpu.vecbase
  rw [handlerAddress_eq trustzone, handlerAddress_eq trustzone, vecbase]
  apply load_congr _ (by decide)
  intro b within
  exact entered_memory_alike differ (vector b within)

theorem entered_alike (trustzone : F.hasTrustzone = true)
    (differ : DifferPrivately first second) (vector : first.VectorApart F number lr) :
    Alike (first.entered F number lr) (second.entered F number lr) :=
  enterHandler_alike (framed_alike (extended_alike differ.alike) _ _)
    (handlerAddress_alike trustzone differ vector)

theorem entered_r (cpu : Cpu) (leaves : cpu.leavesSecure F lr = true) (i : Fin 13) :
    (cpu.entered F number lr).r i = if i.val < 12 then 0 else cpu.r i := by
  have selected := (@selectHandlerStack_relocates F
    ((cpu.extended F number).framed F cpu.stackedXpsr lr) lr).same Cpu.r
  have still : ((cpu.extended F number).withStack ((cpu.extended F number).stack.pushAll
      ((cpu.extended F number).coreFrame F cpu.stackedXpsr lr).reverse)).leavesSecure F lr =
        true := by
    unfold Cpu.leavesSecure at leaves ⊢
    rw [← (extended_known F cpu number).keeps.secure] at leaves
    exact leaves
  have cleared : ((cpu.extended F number).framed F cpu.stackedXpsr lr).r =
      fun i => if i.val < 12 then 0 else (cpu.extended F number).r i := by
    unfold Cpu.framed Cpu.clearIfLeaving
    rw [if_pos still]
    rfl
  have register := congrFun (selected.trans cleared) i
  rw [(extended_rest F cpu number).2.1] at register
  exact register

theorem entered_flags (F : Features) (cpu : Cpu) (number lr : Word) :
    SameFlags cpu (cpu.entered F number lr) := by
  have part {α : Type} (part : Cpu → α) := @entered_part cpu F α part number lr
  have flags := (extended_rest F cpu number).2.2
  exact ⟨(part Cpu.n).trans flags.n, (part Cpu.z).trans flags.z, (part Cpu.c).trans flags.c,
    (part Cpu.v).trans flags.v, (part Cpu.q).trans flags.q, (part Cpu.ge).trans flags.ge⟩

theorem Alike.others_iff (alike : Alike first second) (sameLr : second.lr = first.lr)
    (pc : second.pc = first.pc) :
    second = { first with
        s := second.s
        fpscr := second.fpscr
        vpr := second.vpr
        memory := second.memory } ↔ second.r = first.r ∧ SameFlags first second := by
  constructor
  · intro others
    have same {α : Type} (part : Cpu → α) : part second = part { first with
        s := second.s
        fpscr := second.fpscr
        vpr := second.vpr
        memory := second.memory } := congrArg part others
    exact ⟨same Cpu.r, same Cpu.n, same Cpu.z, same Cpu.c, same Cpu.v, same Cpu.q, same Cpu.ge⟩
  · rintro ⟨r, flags⟩
    unfold Alike Cpu.withPrivate at alike
    rw [sameLr, pc, r, flags.n, flags.z, flags.c, flags.v, flags.q, flags.ge] at alike
    exact alike

theorem entered_others_iff (trustzone : F.hasTrustzone = true)
    (differ : DifferPrivately first second) (vector : first.VectorApart F number lr)
    (leaves : first.leavesSecure F lr = true) :
    second.entered F number lr = { first.entered F number lr with
        s := (second.entered F number lr).s
        fpscr := (second.entered F number lr).fpscr
        vpr := (second.entered F number lr).vpr
        memory := (second.entered F number lr).memory } ↔
      second.r 12 = first.r 12 ∧ SameFlags first second := by
  have alike : Alike (first.entered F number lr) (second.entered F number lr) :=
    entered_alike trustzone differ vector
  have alsoLeaves : second.leavesSecure F lr = true := by
    unfold Cpu.leavesSecure at leaves ⊢
    rw [differ.alike.same Cpu.secure]
    exact leaves
  have firstR := @entered_r F number lr first leaves
  have secondR := @entered_r F number lr second alsoLeaves
  have firstFlags := entered_flags F first number lr
  have secondFlags := entered_flags F second number lr
  have pc : (second.entered F number lr).pc = (first.entered F number lr).pc :=
    congrArg (· &&& 0xfffffffe#32) (handlerAddress_alike trustzone differ vector)
  rw [alike.others_iff rfl pc]
  constructor
  · rintro ⟨r, flags⟩
    have twelve := congrFun r 12
    rw [firstR, secondR] at twelve
    refine ⟨twelve, ?_⟩
    exact ⟨secondFlags.n.symm.trans (flags.n.trans firstFlags.n),
      secondFlags.z.symm.trans (flags.z.trans firstFlags.z),
      secondFlags.c.symm.trans (flags.c.trans firstFlags.c),
      secondFlags.v.symm.trans (flags.v.trans firstFlags.v),
      secondFlags.q.symm.trans (flags.q.trans firstFlags.q),
      secondFlags.ge.symm.trans (flags.ge.trans firstFlags.ge)⟩
  · rintro ⟨twelve, flags⟩
    constructor
    · funext i
      rw [firstR, secondR]
      split
      · rfl
      · rw [show i = 12 from Fin.ext (by show i.val = 12; omega)]
        exact twelve
    · exact ⟨secondFlags.n.trans (flags.n.trans firstFlags.n.symm),
        secondFlags.z.trans (flags.z.trans firstFlags.z.symm),
        secondFlags.c.trans (flags.c.trans firstFlags.c.symm),
        secondFlags.v.trans (flags.v.trans firstFlags.v.symm),
        secondFlags.q.trans (flags.q.trans firstFlags.q.symm),
        secondFlags.ge.trans (flags.ge.trans firstFlags.ge.symm)⟩

def Cpu.clearsFp (cpu : Cpu) : Bool := cpu.ts && (cpu.fpca || (cpu.fpccr true).lspact)

def Cpu.fpRegisters (cpu : Cpu) : (Fin 32 → Word) × Word × Word := (cpu.s, cpu.fpscr, cpu.vpr)

def clearedFp : (Fin 32 → Word) × Word × Word := (fun _ => 0, 0, 0)

theorem invalidateVfpRegs_fp (cpu : Cpu) (shouldClear : Bool) :
    (cpu.invalidateVfpRegs shouldClear).fpRegisters =
      if shouldClear then clearedFp else cpu.fpRegisters := by
  unfold Cpu.invalidateVfpRegs
  split <;> rfl

theorem readFp_of_saved {cpu saved : Cpu} (saves : cpu.fpLspSaveToStack F = .done saved) :
    cpu.readFp F = saved.fpRegisters := by
  unfold Cpu.readFp Cpu.fpRegisters
  rw [saves]
  rfl

theorem readFp_pending {cpu saved : Cpu} {frame : FpFrame} (pending : frame.Pending F cpu)
    (saves : cpu.fpLspSaveToStack F = .done saved) :
    cpu.readFp F = if frame.bank && cpu.ts then clearedFp else cpu.fpRegisters := by
  rw [readFp_of_saved saves, save_pending pending saves, invalidateVfpRegs_fp]
  rfl

theorem readFp_quiet {cpu saved : Cpu} (quiet : cpu.Quiet)
    (saves : cpu.fpLspSaveToStack F = .done saved) : cpu.readFp F = cpu.fpRegisters := by
  rw [readFp_of_saved saves, save_quiet quiet saves]

theorem entered_fpRegisters (F : Features) (cpu : Cpu) (number lr : Word) :
    (cpu.entered F number lr).fpRegisters =
      if cpu.fpca && !cpu.lspen && cpu.ts then clearedFp else cpu.fpRegisters := by
  have part {α : Type} (part : Cpu → α) := @entered_part cpu F α part number lr
  have same : (cpu.entered F number lr).fpRegisters = (cpu.extended F number).fpRegisters :=
    part Cpu.fpRegisters
  rw [same]
  cases extended : cpu.fpca with
  | false =>
    rw [extended_plain number extended]
    rfl
  | true =>
    cases lazy : cpu.lspen with
    | true =>
      rw [extended_lazy number extended lazy]
      rfl
    | false =>
      rw [extended_eager number extended lazy, invalidateVfpRegs_fp]
      rfl

theorem entered_readFp {cpu saved : Cpu} (secure : cpu.secure = true)
    (aligned : WordAligned cpu.sp) (fp : cpu.FpConsistent)
    (saves : (cpu.entered F number lr).fpLspSaveToStack F = .done saved) :
    (cpu.entered F number lr).readFp F = if cpu.clearsFp then clearedFp else cpu.fpRegisters := by
  have ts := entered_ts F cpu number lr
  have registers := entered_fpRegisters F cpu number lr
  have before := fp.preserved (F := F)
  unfold Cpu.clearsFp
  cases extended : cpu.fpca with
  | true =>
    have quiet := before.quiet extended
    cases lazy : cpu.lspen with
    | true =>
      have pending : (cpu.lazyFrame F).Pending F (cpu.entered F number lr) :=
        entered_lazy number lr extended lazy aligned quiet
      have bank : (cpu.lazyFrame F).bank = true := secure
      rw [lazy, Bool.not_true, Bool.and_false, Bool.false_and,
        if_neg Bool.false_ne_true] at registers
      rw [readFp_pending pending saves, bank, ts, registers, Bool.true_and, Bool.true_or,
        Bool.and_true]
    | false =>
      have stillQuiet : (cpu.entered F number lr).Quiet :=
        entered_eager number lr extended lazy quiet
      rw [extended, lazy, Bool.not_false, Bool.true_and, Bool.true_and] at registers
      rw [readFp_quiet stillQuiet saves, registers, Bool.true_or, Bool.and_true]
  | false =>
    rw [extended, Bool.false_and, Bool.false_and, if_neg Bool.false_ne_true] at registers
    have start : Preserved F (cpu.level F) False (cpu.entered F number lr) :=
      before.congr (entered_plain number lr extended) False.elim
    rw [Bool.false_or]
    unfold Cpu.level at start
    cases active : (cpu.fpccr cpu.fpccrS).lspact with
    | false =>
      rw [active, if_neg Bool.false_ne_true] at start
      have none : (cpu.fpccr true).lspact = false := by
        cases lspact : (cpu.fpccr true).lspact with
        | false => rfl
        | true =>
          rw [fp.owner true lspact, lspact] at active
          cases active
      rw [readFp_quiet start saves, registers, none, Bool.and_false, if_neg Bool.false_ne_true]
    | true =>
      rw [active, if_pos rfl] at start
      rcases start with pending | ⟨quiet, -⟩
      · have owner : (cpu.fpccr true).lspact = cpu.fpccrS := by
          cases bank : cpu.fpccrS with
          | true =>
            rw [bank] at active
            exact active
          | false =>
            cases lspact : (cpu.fpccr true).lspact with
            | false => rfl
            | true =>
              have same := fp.owner true lspact
              rw [bank] at same
              cases same
        have bank : (cpu.pendingFrame F).bank = cpu.fpccrS := rfl
        rw [readFp_pending pending saves, bank, ts, registers, owner, Bool.and_comm]
      · have lspact := quiet cpu.fpccrS
        have kept := (entered_plain (F := F) number lr extended).lspact cpu.fpccrS
        rw [kept, active] at lspact
        cases lspact

/-! ### A Non-secure handler -/

/-- The same Non-secure exception interrupts two Secure states. -/
structure Interrupts (F : Features) (E : Environment) (first second : Cpu)
    (acknowledged : Word) : Prop where
  trustzone : F.hasTrustzone = true
  differ : DifferPrivately first second
  secure : first.secure = true
  nonSecure : first.handlerSecure F E acknowledged = false
  consistent : first.Consistent F ∧ second.Consistent F
  takes : first.Takes F E acknowledged ∧ second.Takes F E acknowledged
  vector : first.VectorApart F (secureTarget F E first.secure acknowledged).2
    (first.handlerLr F E acknowledged)
  saves : ∀ cpu, cpu = first ∨ cpu = second →
    ∃ saved, (cpu.takeIrq F E acknowledged).cpu.fpLspSaveToStack F = .done saved

structure SecureRestored (cpu last : Cpu) : Prop where
  secure : last.secure = true
  r : last.r = cpu.r
  lr : last.lr = cpu.lr
  pc : last.pc = cpu.pc
  xpsr : last.xpsrRead = cpu.xpsrRead
  pointers : ∀ process, last.pointer ⟨true, process⟩ = cpu.pointer ⟨true, process⟩

structure LearnsNothing (F : Features) (E : Environment) (first second : Cpu)
    (acknowledged : Word) : Prop where
  view : SameView F (first.InFrame F (first.handlerLr F E acknowledged))
    (first.takeIrq F E acknowledged).cpu (second.takeIrq F E acknowledged).cpu
  lr : (first.takeIrq F E acknowledged).cpu.lr = first.handlerLr F E acknowledged
  returns : ∀ handled, Balanced F E first acknowledged handled →
    ∃ last, handled.doV7mExceptionExit F E = .done last ∧ SecureRestored first last

theorem Interrupts.leaves (interrupts : Interrupts F E first second acknowledged) :
    first.leavesSecure F (first.handlerLr F E acknowledged) = true := by
  have es : excReturnEs (first.handlerLr F E acknowledged) =
      first.handlerSecure F E acknowledged := excReturn_es first _ interrupts.trustzone
  unfold Cpu.leavesSecure
  rw [interrupts.trustzone, interrupts.secure, es, interrupts.nonSecure]
  rfl

theorem handlerLr_alike (alike : Alike first second) :
    second.handlerLr F E acknowledged = first.handlerLr F E acknowledged := by
  have secure : second.secure = first.secure := alike.same Cpu.secure
  have exception : second.exception = first.exception := alike.same Cpu.exception
  have fpca : second.fpca = first.fpca := alike.same Cpu.fpca
  have control : second.control = first.control := alike.same Cpu.control
  unfold Cpu.handlerLr
  rw [excReturn_bits, excReturn_bits]
  unfold Cpu.inHandlerMode
  rw [secure, exception, fpca, control]

theorem clearsFp_alike (alike : Alike first second) : second.clearsFp = first.clearsFp := by
  have ts : second.ts = first.ts := alike.same Cpu.ts
  have fpca : second.fpca = first.fpca := alike.same Cpu.fpca
  have fpccr : second.fpccr = first.fpccr := alike.same Cpu.fpccr
  unfold Cpu.clearsFp
  rw [ts, fpca, fpccr]

theorem sameFpRegisters_iff :
    second.fpRegisters = first.fpRegisters ↔ SameFpRegisters first second := by
  rw [Prod.mk.injEq, Prod.mk.injEq]
  constructor
  · rintro ⟨s, fpscr, vpr⟩
    exact ⟨s, fpscr, vpr⟩
  · intro same
    exact ⟨same.s, same.fpscr, same.vpr⟩

theorem readFp_iff (interrupts : Interrupts F E first second acknowledged) :
    (second.takeIrq F E acknowledged).cpu.readFp F = (first.takeIrq F E acknowledged).cpu.readFp F ↔
      (first.fpca = true ∨ (first.fpccr true).lspact = true ∨ SameFpRegisters first second) := by
  have alike := interrupts.differ.alike
  obtain ⟨firstSaved, firstSaves⟩ := interrupts.saves first (.inl rfl)
  obtain ⟨secondSaved, secondSaves⟩ := interrupts.saves second (.inr rfl)
  have secure : second.secure = true := (alike.same Cpu.secure).trans interrupts.secure
  rw [interrupts.takes.1.entered, Outcome.done_cpu] at firstSaves ⊢
  rw [interrupts.takes.2.entered, Outcome.done_cpu] at secondSaves ⊢
  rw [entered_readFp interrupts.secure interrupts.takes.1.aligned interrupts.consistent.1.fp
      firstSaves,
    entered_readFp secure interrupts.takes.2.aligned interrupts.consistent.2.fp secondSaves,
    clearsFp_alike alike]
  have private_ := interrupts.differ.fp
  unfold Cpu.clearsFp
  cases ts : first.ts with
  | false =>
    have same := private_ ts
    rw [Bool.false_and, if_neg Bool.false_ne_true, if_neg Bool.false_ne_true, sameFpRegisters_iff]
    exact ⟨fun _ => .inr (.inr same), fun _ => same⟩
  | true =>
    rw [Bool.true_and]
    cases clears : first.fpca || (first.fpccr true).lspact with
    | true =>
      rw [Bool.or_eq_true] at clears
      rw [if_pos rfl, if_pos rfl]
      refine ⟨fun _ => ?_, fun _ => rfl⟩
      exact clears.elim .inl fun active => .inr (.inl active)
    | false =>
      rw [Bool.or_eq_false_iff] at clears
      rw [if_neg Bool.false_ne_true, if_neg Bool.false_ne_true, sameFpRegisters_iff,
        clears.1, clears.2]
      simp

theorem secure_restored (interrupts : Interrupts F E first second acknowledged)
    (balanced : Balanced F E first acknowledged handled) :
    ∃ last, handled.doV7mExceptionExit F E = .done last ∧ SecureRestored first last := by
  have takes := interrupts.takes.1
  have size : first.fpca = true → first.fpWords F = first.fpReservationWords := by
    intro extended
    unfold Cpu.fpWords Cpu.pushedFpWords Cpu.fpReservationWords
    rw [extended, interrupts.secure, F.v8_of_trustzone interrupts.trustzone]
    simp
  have matched := balanced.matched takes interrupts.consistent.1 size
  obtain ⟨last, left, resumes⟩ := matched.resumes (E := E)
  have leaves := interrupts.leaves
  refine ⟨last, left, ?_⟩
  constructor
  · exact (congrArg StackPointer.secure resumes.active).trans interrupts.secure
  · funext i
    by_cases callee : 4 ≤ i.val ∧ i.val < 12
    · exact resumes.callee leaves i callee.1 callee.2
    · apply resumes.r
      omega
  · exact resumes.lr
  · exact resumes.pc
  · unfold Cpu.xpsrRead
    rw [resumes.n, resumes.z, resumes.c, resumes.v, resumes.q, resumes.thumb,
      resumes.condexecBits, resumes.exception]
  · intro process
    have pointers := balanced.restores_pointers takes resumes process
    rw [interrupts.secure] at pointers
    exact pointers

/-- A Non-secure handler tells two Secure states apart by `r12`, the flags, and floating-point
registers that are neither stacked nor waiting to be; by nothing else. -/
theorem learnsNothing_iff (interrupts : Interrupts F E first second acknowledged) :
    LearnsNothing F E first second acknowledged ↔
      second.r 12 = first.r 12 ∧ SameFlags first second ∧
        (first.fpca = true ∨ (first.fpccr true).lspact = true ∨ SameFpRegisters first second) := by
  have fp := readFp_iff interrupts
  have lr : second.handlerLr F E acknowledged = first.handlerLr F E acknowledged :=
    handlerLr_alike interrupts.differ.alike
  have secure : second.secure = first.secure := interrupts.differ.alike.same Cpu.secure
  have leaves := interrupts.leaves
  have others := entered_others_iff interrupts.trustzone interrupts.differ interrupts.vector
    leaves
  have firstEntered := interrupts.takes.1.entered
  have secondEntered := interrupts.takes.2.entered
  rw [lr, secure] at secondEntered
  constructor
  · intro learns
    have same := learns.view.others
    rw [firstEntered, secondEntered] at same
    obtain ⟨twelve, flags⟩ := others.mp same
    exact ⟨twelve, flags, fp.mp learns.view.fp⟩
  · rintro ⟨twelve, flags, registers⟩
    constructor
    · constructor
      · rw [firstEntered, secondEntered]
        exact others.mpr ⟨twelve, flags⟩
      · intro b outside
        rw [firstEntered, secondEntered]
        exact entered_memory_alike interrupts.differ outside
      · exact fp.mpr registers
    · rw [firstEntered]
      rfl
    · exact fun handled balanced => secure_restored interrupts balanced

/-- Secure code at rest with values in `r0` and `r12`. -/
def Cpu.keeping (r0 r12 : Word) : Cpu :=
  { Cpu.atRest true with
    r := fun i => if i.val = 0 then r0 else if i.val = 12 then r12 else 0 }

theorem keeping_consistent (r0 r12 : Word) : (Cpu.keeping r0 r12).Consistent .v8m := by
  have selected : (Cpu.atRest true).StackSelected := by decide
  have narrow : (Cpu.atRest true).exception.toNat < 512 := by decide
  have even : (Cpu.atRest true).pc &&& ~~~1#32 = (Cpu.atRest true).pc := by decide
  refine ⟨selected, narrow, even, ?_, ?_⟩
  · intro single
    cases single
  · constructor
    · intro bank active
      cases active
    · intro bank active
      cases active

theorem keeping_takes (r0 r12 : Word) : (Cpu.keeping r0 r12).Takes .v8m allNonSecure 16#32 := by
  have numbered : (secureTarget .v8m allNonSecure true 16#32).2 ≠ 0#32 := by decide
  have aligned : WordAligned (Cpu.atRest true).sp := by decide
  refine ⟨by decide, numbered, aligned, ?_, ?_, ?_⟩
  · intro extended
    cases extended
  · intro extended
    cases extended
  · exact fun _ _ _ => rfl

theorem keeping_vector (r0 r12 : Word) :
    (Cpu.keeping r0 r12).VectorApart .v8m (secureTarget .v8m allNonSecure true 16#32).2
      ((Cpu.keeping r0 r12).handlerLr .v8m allNonSecure 16#32) := by
  intro b vector frame
  have base : (Cpu.atRest true).frameBase .v8m
      ((Cpu.atRest true).handlerLr .v8m allNonSecure 16#32) = 0x1fb8#32 := by decide
  have words : 4 * ((Cpu.atRest true).coreWords .v8m
      ((Cpu.atRest true).handlerLr .v8m allNonSecure 16#32) +
        (Cpu.atRest true).fpWords .v8m) = 72 := by decide
  have address : (Cpu.atRest true).vecbase (excReturnEs
      ((Cpu.atRest true).handlerLr .v8m allNonSecure 16#32)) +
        (secureTarget .v8m allNonSecure true 16#32).2 * 4#32 = 0x40#32 := by decide
  have inFrame : Within 0x1fb8#32 72 b := by
    rw [← base, ← words]
    exact frame
  have inVector : Within 0x40#32 4 b := by
    rw [← address]
    exact vector
  unfold Within at inVector inFrame
  bv_omega

theorem keeping_saves (r0 r12 : Word) : ∃ saved,
    ((Cpu.keeping r0 r12).takeIrq .v8m allNonSecure 16#32).cpu.fpLspSaveToStack .v8m =
      .done saved := by
  have none : ((Cpu.keeping r0 r12).takeIrq .v8m allNonSecure
      16#32).cpu.needFpLazyStatePreservation = false := by
    rw [(keeping_takes r0 r12).entered, Outcome.done_cpu]
    unfold Cpu.needFpLazyStatePreservation
    rw [(entered_plain _ _ rfl).lspact]
    rfl
  unfold Cpu.fpLspSaveToStack
  rw [none, if_neg Bool.false_ne_true]
  exact ⟨_, rfl⟩

theorem keeping_interrupts (r0 r12 other otherLast : Word) :
    Interrupts .v8m allNonSecure (Cpu.keeping r0 r12) (Cpu.keeping other otherLast) 16#32 := by
  have nonSecure : (secureTarget .v8m allNonSecure true 16#32).1 = false := by decide
  refine ⟨rfl, ⟨rfl, rfl, fun _ => ⟨rfl, rfl, rfl⟩⟩, rfl, nonSecure,
    ⟨keeping_consistent _ _, keeping_consistent _ _⟩, ⟨keeping_takes _ _, keeping_takes _ _⟩,
    ?_, ?_⟩
  · intro b vector frame
    exact keeping_vector r0 r12 b vector frame
  · rintro cpu (rfl | rfl)
    · exact keeping_saves r0 r12
    · exact keeping_saves other otherLast

/-- Two states that differ in `r0`. -/
theorem learnsNothing_r0 :
    LearnsNothing .v8m allNonSecure (Cpu.keeping 0 0) (Cpu.keeping 7#32 0) 16#32 ↔
      (Cpu.keeping 7#32 0).r 12 = (Cpu.keeping 0 0).r 12 ∧
        SameFlags (Cpu.keeping 0 0) (Cpu.keeping 7#32 0) ∧
          ((Cpu.keeping 0 0).fpca = true ∨ ((Cpu.keeping 0 0).fpccr true).lspact = true ∨
            SameFpRegisters (Cpu.keeping 0 0) (Cpu.keeping 7#32 0)) :=
  learnsNothing_iff (keeping_interrupts 0 0 7#32 0)

/-- `r12` of the Secure code is what the handler finds in it. -/
theorem handler_learns_r12 :
    ¬ ∀ (F : Features) (E : Environment) (first second : Cpu) (acknowledged : Word),
      Interrupts F E first second acknowledged → LearnsNothing F E first second acknowledged := by
  intro always
  have interrupts := keeping_interrupts 0 0 0 7#32
  have others := (always _ _ _ _ _ interrupts).view.others
  rw [interrupts.takes.1.entered, interrupts.takes.2.entered] at others
  have same := (entered_others_iff interrupts.trustzone interrupts.differ interrupts.vector
    interrupts.leaves).mp others
  exact absurd same.1 (by decide)

end Tlib.CortexM
