import Mathlib.Data.List.Induction
import Tlib.Rl78.Chaining
import Tlib.Rl78.Frames

/-!
Contract: the acceptance of interrupts in runs of chained blocks.

Owns: the pending state, latching from outside, `process_interrupt`, and which occurrence each
acceptance takes and where its handler returns to.
-/

namespace Tlib.Rl78.Acceptance

open Tlib.Library.StateTriples Tlib.Rl78.Chaining List Option

variable {σ : Type} {B : Bus σ}

/-! ### Registers that blocks leave alone -/

theorem block_keeps {P : Machine σ → Prop} {block : Block} (free : Free P)
    (setSkip : ∀ m en req, P m → en ≤ 1 → req ≤ 1 → P (m.setSkip en req))
    (regular : Regular block.insn) : Keeps P (block.run B) := by
  have code : Keeps P (translate B block.ctx block.insn) := by
    cases skips : block.insn.mnemonic.skips with
    | false => exact translate_keeps_free free regular skips
    | true =>
      obtain ⟨condition, is⟩ := @translate_skips σ B block.ctx block.insn skips
      rw [is]
      refine Keeps.bind (Keeps.modify fun m holds => ?_) fun _ => Keeps.pure _
      refine setSkip m _ _ holds (Nat.le_refl 1) ?_
      split <;> omega
  refine Keeps.bind (Keeps.modify fun m holds => free.update m _ holds) fun _ => ?_
  refine Keeps.ite (fun _ => ?_) fun _ => ?_
  · unfold genSkippable
    refine Keeps.bind Keeps.get fun read => ?_
    refine Keeps.bind (Keeps.modify fun m holds => ?_) fun _ => ?_
    · exact setSkip m 0 0 holds (Nat.zero_le 1) (Nat.zero_le 1)
    refine Keeps.ite (fun _ => genGotoTb_keeps free _ _) fun _ => ?_
    refine Keeps.bind code fun exit => ?_
    cases exit with
    | fallThrough => exact genGotoTb_keeps free _ _
    | chain slot => exact Keeps.pure _
    | noChain => exact Keeps.pure _
  · unfold genEpilogue
    refine Keeps.bind code fun exit => ?_
    cases exit with
    | fallThrough =>
      refine Keeps.bind Keeps.get fun read => ?_
      exact Keeps.ite (fun _ => genExitTb_keeps free _) fun _ => genGotoTb_keeps free _ _
    | chain slot => exact Keeps.pure _
    | noChain => exact Keeps.pure _

def CandidateIs (index : Int) (priority : Nat) (m : Machine σ) : Prop :=
  InRange m.cpu ∧ m.cpu.irqIndex = index ∧ m.cpu.irqPriority = priority

theorem candidateIs_free (index : Int) (priority : Nat) :
    Free (σ := σ) (CandidateIs index priority) :=
  free_of_latched fun _ latched level => latched = index ∧ level = priority

theorem block_candidate {block : Block} (regular : Regular block.insn) (index : Int)
    (priority : Nat) : Keeps (CandidateIs index priority) (block.run B) :=
  block_keeps (candidateIs_free index priority)
    (fun _ _ _ holds enLe reqLe =>
      ⟨{ holds.1 with skipEn_le := enLe, skipReq_le := reqLe }, holds.2⟩) regular

/-! ### The pending state -/

/-- The emulator with `CPU_INTERRUPT_HARD` of `interrupt_request`, and `exception_index`. -/
structure System (σ : Type) where
  emulator : Emulator σ
  hard : Bool
  exceptionIndex : Int

def System.cpu (s : System σ) : Cpu := s.emulator.machine.cpu

def System.setMachine (s : System σ) (machine : Machine σ) : System σ :=
  { s with emulator.machine := machine }

/-- What is seen of a run: an acceptance with its vector and its index. -/
inductive Occurrence where
  | ran (block : Block) (before after : Cpu)
  | latched (index : Int) (priority : Nat)
  | withdrawn
  | accepted (before after : Cpu) (vector acknowledged : Nat)

def tlibSetRl78Irq (index priority : Int) (enable : Bool) (s : System σ) :
    System σ × List Occurrence :=
  let m := s.emulator.machine
  if enable then
    let irqPriority := (priority % 2 ^ 8).toNat
    ({ s.setMachine { m with cpu.irqIndex := index, cpu.irqPriority := irqPriority } with
        hard := true }, [.latched index irqPriority])
  else
    ({ s.setMachine { m with cpu.irqIndex := -1, cpu.irqPriority := 0 } with
        hard := false
        exceptionIndex := -1 }, [.withdrawn])

/-- `process_interrupt`, called from the loop, with `do_interrupt`. -/
def processInterrupt (B : Bus σ) (s : System σ) : Option (System σ × List Occurrence) :=
  match s.emulator.control with
  | .left _ _ => none
  | .loop _ =>
    if s.hard then
      let cpu := s.cpu
      if cpu.psw.ie = 0 ∨ cpu.skipEn ≠ 0 then some (s, [])
      else if cpu.irqIndex < 0 then some ({ s with hard := false, exceptionIndex := -1 }, [])
      else
        let priority := cpu.psw.isp + 1
        if cpu.irqPriority < priority then
          let exceptionIndex := cpu.irqIndex.toNat
          let irqIndex := cpu.irqIndex.toNat
          let machine := ((doInterrupt B exceptionIndex).run s.emulator.machine).2
          some
            ({ s with
                emulator := { s.emulator with machine := machine, control := .loop none }
                exceptionIndex := -1 },
              [.accepted cpu machine.cpu (exceptionIndex * 2 + 4) irqIndex])
        else some (s, [])
    else some (s, [])

/-- The steps of the emulator that are no interrupts. -/
def isGuest : Chaining.Event σ → Bool
  | .generate _ _ | .execute _ _ | .follow | .force | .invalidate _ | .devices _ => true
  | _ => false

inductive Event (σ : Type) where
  | guest (event : Chaining.Event σ)
  | setIrq (index priority : Int) (enable : Bool)
  | process

def ranBlock (s s' : Emulator σ) (event : Chaining.Event σ) : List Occurrence :=
  ((event.block s).map fun block => Occurrence.ran block s.machine.cpu s'.machine.cpu).toList

def Event.apply (B : Bus σ) (s : System σ) : Event σ → Option (System σ × List Occurrence)
  | .guest event =>
    if isGuest event then
      (event.apply B s.emulator).map fun emulator =>
        ({ s with emulator := emulator }, ranBlock s.emulator emulator event)
    else none
  | .setIrq index priority enable => some (tlibSetRl78Irq index priority enable s)
  | .process => processInterrupt B s

/-- The condition on a step: that of chained blocks. -/
def Event.Meets (s : System σ) : Event σ → Prop
  | .guest event => event.Meets s.emulator
  | _ => True

def System.start (B : Bus σ) (m : Machine σ) : System σ :=
  { emulator := Chaining.start B m, hard := false, exceptionIndex := -1 }

/-- The runs from a state whose steps all meet the condition. -/
inductive Run (B : Bus σ) (s : System σ) : List Occurrence → System σ → Prop where
  | start : Run B s [] s
  | step {trace seen : List Occurrence} {s₁ s₂ : System σ} (event : Event σ) : Run B s trace s₁ →
      event.Meets s₁ → event.apply B s₁ = some (s₂, seen) → Run B s (trace ++ seen) s₂

/-! ### Steps -/

/-- The registers, but for the stack pointer. -/
def ButSp (cpu : Cpu) (m : Machine σ) : Prop := ∃ sp, m.cpu = { cpu with sp := sp }

theorem stbPhys_butSp (cpu : Cpu) (paddr data : Nat) : Keeps (ButSp cpu) (stbPhys B paddr data) :=
  Keeps.modify fun _ holds => holds

/-- The registers after an acceptance. -/
def Entered (cpu : Cpu) (m : Machine σ) : Prop :=
  ∃ sp pc, m.cpu =
    { cpu with
      sp := sp
      pc := pc
      psw := { cpu.psw with ie := 0, isp := cpu.irqPriority }
      irqIndex := -1 }

theorem vectorFetch_entered (cpu : Cpu) (exceptionIndex : Nat) : Triple (ButSp cpu) (do
      let pc ← lduwPhys B (exceptionIndex * 2 + 4)
      modify fun m => m.setIe 0
      modify fun m => m.setIsp m.cpu.irqPriority
      modify fun m => m.setPc pc
      modify fun m => { m with cpu.irqIndex := -1 }) fun _ => Entered cpu := by
  rintro m ⟨sp, isCpu⟩
  refine ⟨sp, (B.lduwPhys (exceptionIndex * 2 + 4) m.bus).1, ?_⟩
  exact congrArg (fun cpu : Cpu =>
    { cpu with
      pc := (B.lduwPhys (exceptionIndex * 2 + 4) m.bus).1
      psw := { cpu.psw with ie := 0, isp := cpu.irqPriority }
      irqIndex := -1 }) isCpu

theorem doInterrupt_entered (exceptionIndex : Nat) (m : Machine σ) :
    Entered m.cpu ((doInterrupt B exceptionIndex).run m).2 := by
  suffices whole : Triple (· = m) (doInterrupt B exceptionIndex) fun _ => Entered m.cpu from
    whole m rfl
  refine Triple.bind (Q := fun _ => (· = m)) (fun m' same => same) fun read => ?_
  refine Triple.bind (Q := fun _ => ButSp m.cpu) (Triple.modify fun m' same => ?_) fun _ => ?_
  · exact ⟨_, congrArg (fun m : Machine σ => (m.setSp _).cpu) same⟩
  refine Triple.bind (stbPhys_butSp _ _ _) fun _ => ?_
  refine Triple.bind (stbPhys_butSp _ _ _) fun _ => ?_
  refine Triple.bind (stbPhys_butSp _ _ _) fun _ => ?_
  refine Triple.bind (stbPhys_butSp _ _ _) fun _ => ?_
  exact vectorFetch_entered m.cpu exceptionIndex

theorem processInterrupt_cases {s s' : System σ} {seen : List Occurrence}
    (step : processInterrupt B s = some (s', seen)) :
    (seen = [] ∧ s'.emulator = s.emulator) ∨
      ∃ nextTb index, s.emulator.control = .loop nextTb ∧ acceptsInterrupt s.cpu = true ∧
        s.cpu.irqIndex = Int.ofNat index ∧
        s'.emulator =
          { s.emulator with
            machine := ((doInterrupt B index).run s.emulator.machine).2, control := .loop none } ∧
        seen = [.accepted s.cpu s'.cpu (index * 2 + 4) index] := by
  unfold processInterrupt at step
  split at step
  next => cases step
  next nextTb control =>
    split at step
    next =>
      dsimp only at step
      split at step
      next =>
        cases step
        exact .inl ⟨rfl, rfl⟩
      next open_ =>
        split at step
        next =>
          cases step
          exact .inl ⟨rfl, rfl⟩
        next latched =>
          split at step
          next priority =>
            cases step
            refine .inr ⟨nextTb, s.cpu.irqIndex.toNat, control, ?_, ?_, rfl, rfl⟩
            · unfold acceptsInterrupt
              rw [not_or, not_not] at open_
              simp only [Bool.and_eq_true, decide_eq_true_eq]
              exact ⟨⟨⟨open_.1, open_.2⟩, Int.not_lt.mp latched⟩, priority⟩
            · exact (Int.toNat_of_nonneg (Int.not_lt.mp latched)).symm
          next =>
            cases step
            exact .inl ⟨rfl, rfl⟩
    next =>
      cases step
      exact .inl ⟨rfl, rfl⟩

theorem interrupt_of_accepts {s : Emulator σ} {nextTb : Option (Nat × Nat)} {index : Nat}
    (control : s.control = .loop nextTb) (accepts : acceptsInterrupt s.machine.cpu = true)
    (isIndex : s.machine.cpu.irqIndex = Int.ofNat index) :
    s.interrupt B = some
      { s with machine := ((doInterrupt B index).run s.machine).2, control := .loop none } := by
  have run : (Tlib.Rl78.processInterrupt B).run s.machine = (doInterrupt B index).run s.machine := by
    unfold Tlib.Rl78.processInterrupt
    rw [get_run, if_pos accepts, isIndex]
    rfl
  unfold Emulator.interrupt
  rw [control]
  dsimp only
  rw [run, if_pos accepts]

theorem guest_applied {s s' : System σ} {event : Chaining.Event σ} {seen : List Occurrence}
    (step : (Event.guest event).apply B s = some (s', seen)) :
    isGuest event = true ∧ event.apply B s.emulator = some s'.emulator ∧
      seen = ranBlock s.emulator s'.emulator event := by
  have applied : (if isGuest event then
      (event.apply B s.emulator).map fun emulator =>
        (({ s with emulator := emulator } : System σ), ranBlock s.emulator emulator event)
      else none) = some (s', seen) := step
  split at applied
  next guest =>
    rw [map_eq_some_iff] at applied
    obtain ⟨emulator, found, result⟩ := applied
    cases result
    exact ⟨guest, found, rfl⟩
  next => cases applied

theorem Event.coherent {s s' : System σ} {event : Event σ} {seen : List Occurrence}
    (coherent : Coherent s.emulator) (meets : event.Meets s)
    (step : event.apply B s = some (s', seen)) : Coherent s'.emulator := by
  cases event with
  | guest event => exact (coherent.apply meets (guest_applied step).2.1).1
  | setIrq index priority enable =>
    cases enable with
    | true =>
      cases step
      exact coherent.setMachine { coherent.range with } rfl
    | false =>
      cases step
      exact coherent.setMachine { coherent.range with } rfl
  | process =>
    rcases processInterrupt_cases step with
      ⟨_, same⟩ | ⟨nextTb, index, control, accepts, isIndex, taken, _⟩
    · rw [same]
      exact coherent
    · rw [taken]
      exact (coherent.interrupt (interrupt_of_accepts control accepts isIndex)).1

/-! ### Candidates -/

def candidateAfter (candidate : Option (Int × Nat)) : Occurrence → Option (Int × Nat)
  | .ran _ _ _ => candidate
  | .latched index priority => some (index, priority)
  | .withdrawn => none
  | .accepted _ _ _ _ => none

def candidate (trace : List Occurrence) : Option (Int × Nat) := trace.foldl candidateAfter none

def Latched (trace : List Occurrence) (cpu : Cpu) : Prop :=
  match candidate trace with
  | some (index, priority) => cpu.irqIndex = index ∧ cpu.irqPriority = priority
  | none => cpu.irqIndex = -1

theorem candidate_append (trace : List Occurrence) (occurrence : Occurrence) :
    candidate (trace ++ [occurrence]) = candidateAfter (candidate trace) occurrence := by
  unfold candidate
  rw [foldl_append]
  rfl

def Occurrence.isRan : Occurrence → Bool
  | .ran _ _ _ => true
  | _ => false

theorem candidate_some {trace : List Occurrence} {index : Int} {priority : Nat}
    (is : candidate trace = some (index, priority)) : ∃ pre mid,
      trace = pre ++ .latched index priority :: mid ∧ ∀ o ∈ mid, o.isRan = true := by
  induction trace using reverseRecOn with
  | nil => cases is
  | append_singleton trace last ih =>
    rw [candidate_append] at is
    unfold candidateAfter at is
    cases last with
    | ran block before after =>
      dsimp only at is
      obtain ⟨pre, mid, split, ran⟩ := ih is
      refine ⟨pre, mid ++ [.ran block before after], ?_, fun o member => ?_⟩
      · rw [split, append_assoc, cons_append]
      · rcases mem_append.mp member with inMid | isLast
        · exact ran o inMid
        · rw [mem_singleton.mp isLast]
          rfl
    | latched index' priority' =>
      dsimp only at is
      obtain ⟨rfl, rfl⟩ := Prod.mk.inj (some.inj is)
      exact ⟨trace, [], rfl, fun _ member => absurd member not_mem_nil⟩
    | withdrawn =>
      dsimp only at is
      cases is
    | accepted before after vector acknowledged =>
      dsimp only at is
      cases is

/-! ### Steps of the guest -/

structure Ran (B : Bus σ) (s s' : Emulator σ) (block : Block) : Prop where
  key : block.key = s.key
  regular : Regular block.insn
  machine : s'.machine = ((block.run B).run s.machine).2
  left : ((block.run B).run s.machine).1 = .noChain → s'.control = .loop none

theorem guest_cases {s s' : Emulator σ} {event : Chaining.Event σ} (coherent : Coherent s)
    (guest : isGuest event = true) (step : event.apply B s = some s') :
    (event.block s = none ∧ s'.machine.cpu = s.machine.cpu) ∨
      ∃ block, event.block s = some block ∧ Ran B s s' block := by
  cases event with
  | generate code tb =>
    unfold Chaining.Event.apply Emulator.generate at step
    dsimp only at step
    split at step
    next =>
      cases step
      exact .inl ⟨rfl, rfl⟩
    next => cases step
  | execute tb chain =>
    unfold Chaining.Event.apply Emulator.execute at step
    dsimp only at step
    split at step
    next nextTb block control found =>
      split at step
      next key =>
        cases step
        have machine := (@patch_machine σ s chain tb nextTb).1
        refine .inr ⟨block, found, key, coherent.regular tb block found, ?_, fun noChain => ?_⟩
        · unfold Emulator.runBlock Emulator.leave
          rw [machine]
        · unfold Emulator.runBlock Emulator.leave
          rw [machine, noChain]
      next => cases step
    next => cases step
  | follow =>
    unfold Chaining.Event.apply Emulator.follow at step
    dsimp only at step
    split at step
    next tb slot control =>
      have followed : s.followed = (s.jmpTarget (tb, slot)).bind s.blocks := by
        unfold Emulator.followed
        rw [control]
      split at step
      next next target =>
        rw [map_eq_some_iff] at step
        obtain ⟨block, found, result⟩ := step
        cases result
        rw [target] at followed
        obtain ⟨block', isNext, key⟩ := coherent.keys tb slot next control target
        rw [found] at isNext
        cases isNext
        refine .inr ⟨block, followed.trans found, key, coherent.regular next block found, rfl,
          fun noChain => ?_⟩
        unfold Emulator.runBlock Emulator.leave
        rw [noChain]
      next target =>
        cases step
        rw [target] at followed
        exact .inl ⟨followed, rfl⟩
    next => cases step
  | force =>
    cases step
    exact .inl ⟨rfl, rfl⟩
  | invalidate tb =>
    cases step
    exact .inl ⟨rfl, rfl⟩
  | devices bus =>
    cases step
    exact .inl ⟨rfl, rfl⟩
  | interrupt => cases guest
  | latch irqIndex irqPriority => cases guest
  | reset => cases guest

theorem guest_candidate {s s' : Emulator σ} {event : Chaining.Event σ} (coherent : Coherent s)
    (guest : isGuest event = true) (step : event.apply B s = some s') :
    s'.machine.cpu.irqIndex = s.machine.cpu.irqIndex ∧
      s'.machine.cpu.irqPriority = s.machine.cpu.irqPriority := by
  rcases guest_cases coherent guest step with ⟨_, same⟩ | ⟨block, _, ran⟩
  · rw [same]
    exact ⟨rfl, rfl⟩
  · rw [ran.machine]
    exact (block_candidate ran.regular _ _ s.machine ⟨coherent.range, rfl, rfl⟩).2

theorem reti_left {s s' : Emulator σ} {block : Block} (coherent : Coherent s)
    (ran : Ran B s s' block) (is : block.insn.mnemonic = .reti)
    (runs : block.skip = true → s.machine.cpu.skipReq = 0) :
    s'.machine.cpu.skipEn = 0 ∧ s'.control = .loop none := by
  have noSkip : block.insn.mnemonic.skips = false := by
    rw [is]
    rfl
  have code : Triple (SkipIs 0) (translate B block.ctx block.insn) fun exit m =>
      exit = .noChain ∧ SkipIs 0 m := by
    have kept :=
      @translate_keeps_free σ B block.ctx block.insn (SkipIs 0) (skipIs_free 0) ran.regular noSkip
    intro m holds
    refine ⟨?_, kept m holds⟩
    unfold translate
    rw [is]
    rfl
  have flags : block.skip = decide (s.machine.cpu.skipEn ≠ 0) := congrArg Key.skip ran.key
  have after : ((block.run B).run s.machine).1 = .noChain ∧
      SkipIs 0 ((block.run B).run s.machine).2 := by
    unfold Block.run
    cases skip : block.skip with
    | true =>
      have skippable : Triple (fun m => m.cpu.skipReq = 0 ∧ InRange m.cpu)
          (genSkippable B block.ctx block.insn) fun exit m => exit = .noChain ∧ SkipIs 0 m := by
        refine Triple.bind (Q := fun read m => read.cpu.skipReq = 0 ∧ InRange m.cpu)
          (fun _ holds => holds) fun read => Triple.assume fun isZero => ?_
        refine Triple.bind (Q := fun _ => SkipIs 0) (Triple.modify fun m range => ?_) fun _ => ?_
        · exact setSkip_skipIs range (Nat.zero_le 1) (Nat.zero_le 1)
        rw [if_neg (not_not.mpr isZero)]
        refine Triple.bind code fun exit => Triple.assume fun isExit => ?_
        rw [isExit]
        exact fun m holds => ⟨rfl, holds⟩
      exact skippable _ ⟨runs skip, coherent.range⟩
    | false =>
      have start : SkipIs 0 (s.machine.setUpdate false) := by
        refine ⟨coherent.range, ?_⟩
        rw [skip] at flags
        exact not_not.mp (of_decide_eq_false flags.symm)
      have epilogue : Triple (SkipIs 0) (genEpilogue B block.ctx block.insn) fun exit m =>
          exit = .noChain ∧ SkipIs 0 m := by
        refine Triple.bind code fun exit => Triple.assume fun isExit => ?_
        rw [isExit]
        exact fun m holds => ⟨rfl, holds⟩
      exact epilogue _ start
  refine ⟨?_, ran.left after.1⟩
  rw [ran.machine]
  exact after.2.2

/-! ### Runs -/

theorem Run.coherent {s s' : System σ} {trace : List Occurrence} (coherent : Coherent s.emulator)
    (run : Run B s trace s') : Coherent s'.emulator := by
  induction run with
  | start => exact coherent
  | step event _ meets step ih => exact event.coherent ih meets step

theorem Latched.append_ran {trace : List Occurrence} {cpu cpu' : Cpu} {block : Block}
    (latched : Latched trace cpu) (index : cpu'.irqIndex = cpu.irqIndex)
    (priority : cpu'.irqPriority = cpu.irqPriority) (before after : Cpu) :
    Latched (trace ++ [.ran block before after]) cpu' := by
  unfold Latched at latched ⊢
  rw [candidate_append, index, priority]
  exact latched

theorem Event.latched {s s' : System σ} {event : Event σ} {trace seen : List Occurrence}
    (coherent : Coherent s.emulator) (latched : Latched trace s.cpu)
    (step : event.apply B s = some (s', seen)) : Latched (trace ++ seen) s'.cpu := by
  cases event with
  | guest event =>
    obtain ⟨guest, applied, isSeen⟩ := guest_applied step
    obtain ⟨index, priority⟩ := guest_candidate coherent guest applied
    unfold ranBlock at isSeen
    cases block : event.block s.emulator with
    | none =>
      rw [block] at isSeen
      rw [isSeen]
      unfold Latched System.cpu at latched ⊢
      rw [index, priority]
      exact (append_nil trace).symm ▸ latched
    | some block' =>
      rw [block] at isSeen
      rw [isSeen]
      exact latched.append_ran index priority _ _
  | setIrq index priority enable =>
    cases enable with
    | true =>
      cases step
      unfold Latched
      rw [candidate_append]
      exact ⟨rfl, rfl⟩
    | false =>
      cases step
      unfold Latched
      rw [candidate_append]
      rfl
  | process =>
    rcases processInterrupt_cases step with ⟨isSeen, same⟩ | ⟨_, index, _, _, _, taken, isSeen⟩
    · rw [isSeen, append_nil]
      unfold System.cpu
      rw [same]
      exact latched
    · rw [isSeen]
      unfold Latched
      rw [candidate_append]
      unfold System.cpu
      rw [taken]
      obtain ⟨sp, pc, entered⟩ := @doInterrupt_entered σ B index s.emulator.machine
      exact congrArg Cpu.irqIndex entered

theorem Run.latched {m : Machine σ} {s : System σ} {trace : List Occurrence}
    (run : Run B (System.start B m) trace s) : Latched trace s.cpu := by
  induction run with
  | start => rfl
  | step event before _ step ih =>
    exact event.latched (before.coherent (.start m)) ih step

/-! ### Acceptances -/

structure Accepted (earlier : List Occurrence) (before after : Cpu) (vector acknowledged : Nat) :
    Prop where
  ie : before.psw.ie = 1
  skipEn : before.skipEn = 0
  priority : before.irqPriority ≤ before.psw.isp
  ie_after : after.psw.ie = 0
  isp_after : after.psw.isp = before.irqPriority
  vector_eq : vector = 2 * acknowledged + 4
  latched : ∃ pre mid, earlier = pre ++ .latched acknowledged before.irqPriority :: mid ∧
    ∀ o ∈ mid, o.isRan = true

theorem processInterrupt_accepted {s s' : System σ} {trace : List Occurrence} {before after : Cpu}
    {vector acknowledged : Nat} (coherent : Coherent s.emulator) (latched : Latched trace s.cpu)
    (step : processInterrupt B s = some (s', [.accepted before after vector acknowledged])) :
    Accepted trace before after vector acknowledged := by
  rcases processInterrupt_cases step with ⟨isSeen, _⟩ | ⟨_, index, _, accepts, isIndex, taken, isSeen⟩
  · cases isSeen
  obtain ⟨sp, pc, entered⟩ := @doInterrupt_entered σ B index s.emulator.machine
  have after_eq : s'.cpu = _ := (congrArg (fun e : Emulator σ => e.machine.cpu) taken).trans entered
  have ie := coherent.range.psw.ie_le
  obtain ⟨rfl, rfl, rfl, rfl⟩ := Occurrence.accepted.inj (singleton_inj.mp isSeen)
  unfold acceptsInterrupt at accepts
  simp only [Bool.and_eq_true, decide_eq_true_eq] at accepts
  obtain ⟨⟨⟨ieSet, skipEn⟩, _⟩, priority⟩ := accepts
  refine ⟨?_, skipEn, Nat.le_of_lt_succ priority, ?_, ?_, by omega, ?_⟩
  · unfold System.cpu at ieSet ⊢
    omega
  · rw [after_eq]
  · rw [after_eq]
    rfl
  · refine candidate_some ?_
    unfold Latched at latched
    split at latched
    next index' priority' is =>
      rw [is, ← latched.1, ← latched.2, isIndex]
      rfl
    next =>
      rw [isIndex] at latched
      cases latched

theorem split_last {trace earlier later : List Occurrence} {last o : Occurrence}
    (split : trace ++ [last] = earlier ++ o :: later) :
    (trace = earlier ∧ last = o) ∨ ∃ rest, trace = earlier ++ o :: rest := by
  rcases eq_nil_or_concat later with rfl | ⟨rest, final, rfl⟩
  · obtain ⟨same, isLast⟩ := append_inj' split rfl
    exact .inl ⟨same, singleton_inj.mp isLast⟩
  · rw [concat_eq_append, ← cons_append, ← append_assoc] at split
    exact .inr ⟨rest, (append_inj' split rfl).1⟩

theorem Event.seen_cases {s s' : System σ} {event : Event σ} {seen : List Occurrence}
    (step : event.apply B s = some (s', seen)) :
    seen = [] ∨ (∃ block before after, seen = [.ran block before after]) ∨
      (∃ index priority, seen = [.latched index priority]) ∨ seen = [.withdrawn] ∨
      (event = .process ∧ ∃ before after vector acknowledged,
        seen = [.accepted before after vector acknowledged]) := by
  cases event with
  | guest event =>
    obtain ⟨_, _, isSeen⟩ := guest_applied step
    unfold ranBlock at isSeen
    cases block : event.block s.emulator with
    | none =>
      rw [block] at isSeen
      exact .inl isSeen
    | some block' =>
      rw [block] at isSeen
      exact .inr (.inl ⟨_, _, _, isSeen⟩)
  | setIrq index priority enable =>
    cases enable with
    | true =>
      cases step
      exact .inr (.inr (.inl ⟨_, _, rfl⟩))
    | false =>
      cases step
      exact .inr (.inr (.inr (.inl rfl)))
  | process =>
    rcases processInterrupt_cases step with ⟨isSeen, _⟩ | ⟨_, _, _, _, _, _, isSeen⟩
    · exact .inl isSeen
    · exact .inr (.inr (.inr (.inr ⟨rfl, _, _, _, _, isSeen⟩)))

theorem Run.accepted {m : Machine σ} {s : System σ} {trace : List Occurrence}
    (run : Run B (System.start B m) trace s) {earlier later : List Occurrence} {before after : Cpu}
    {vector acknowledged : Nat}
    (split : trace = earlier ++ .accepted before after vector acknowledged :: later) :
    Accepted earlier before after vector acknowledged := by
  induction run generalizing later with
  | start => exact absurd split.symm (by simp)
  | @step trace seen s₁ s₂ event reached _ step ih =>
    have coherent := reached.coherent (.start m)
    have either {last : Occurrence} (isSeen : seen = [last]) :
        (trace = earlier ∧ last = .accepted before after vector acknowledged) ∨
          Accepted earlier before after vector acknowledged := by
      rw [isSeen] at split
      rcases split_last split with here | ⟨rest, above⟩
      · exact .inl here
      · exact .inr (ih above)
    rcases event.seen_cases step with none | ⟨_, _, _, one⟩ | ⟨_, _, one⟩ | one | ⟨is, _, _, _, _, one⟩
    · rw [none, append_nil] at split
      exact ih split
    · exact (either one).elim (fun here => nomatch here.2) id
    · exact (either one).elim (fun here => nomatch here.2) id
    · exact (either one).elim (fun here => nomatch here.2) id
    · rcases either one with ⟨same, isAccepted⟩ | holds
      · rw [is, one, isAccepted] at step
        rw [← same]
        exact processInterrupt_accepted coherent reached.latched step
      · exact holds

/-! ### Nested handlers -/

def priorities (trace : List Occurrence) : List Nat :=
  trace.filterMap fun occurrence =>
    match occurrence with
    | .accepted before _ _ _ => some before.irqPriority
    | _ => none

/-- No block writes `isp`. -/
def KeepsIsp (trace : List Occurrence) : Prop :=
  ∀ block before after, .ran block before after ∈ trace → after.psw.isp = before.psw.isp

theorem Event.isp {s s' : System σ} {event : Event σ} {seen : List Occurrence}
    (coherent : Coherent s.emulator) (step : event.apply B s = some (s', seen))
    (keeps : KeepsIsp seen) :
    (priorities seen = [] ∧ s'.cpu.psw.isp = s.cpu.psw.isp) ∨
      ∃ priority, priorities seen = [priority] ∧ priority ≤ s.cpu.psw.isp ∧
        s'.cpu.psw.isp = priority := by
  cases event with
  | guest event =>
    obtain ⟨guest, applied, isSeen⟩ := guest_applied step
    unfold ranBlock at isSeen
    rcases guest_cases coherent guest applied with ⟨idle, same⟩ | ⟨block, runs, _⟩
    · rw [idle] at isSeen
      rw [isSeen]
      exact .inl ⟨rfl, congrArg (fun cpu : Cpu => cpu.psw.isp) same⟩
    · rw [runs] at isSeen
      rw [isSeen] at keeps ⊢
      exact .inl ⟨rfl, keeps block _ _ (mem_singleton.mpr rfl)⟩
  | setIrq index priority enable =>
    cases enable with
    | true =>
      cases step
      exact .inl ⟨rfl, rfl⟩
    | false =>
      cases step
      exact .inl ⟨rfl, rfl⟩
  | process =>
    rcases processInterrupt_cases step with ⟨isSeen, same⟩ | ⟨_, index, _, accepts, _, taken, isSeen⟩
    · rw [isSeen]
      exact .inl ⟨rfl, congrArg (fun e : Emulator σ => e.machine.cpu.psw.isp) same⟩
    · obtain ⟨sp, pc, entered⟩ := @doInterrupt_entered σ B index s.emulator.machine
      rw [isSeen]
      refine .inr ⟨s.cpu.irqPriority, rfl, ?_, ?_⟩
      · unfold acceptsInterrupt at accepts
        simp only [Bool.and_eq_true, decide_eq_true_eq] at accepts
        exact Nat.le_of_lt_succ accepts.2
      · unfold System.cpu
        rw [taken]
        exact congrArg (fun cpu : Cpu => cpu.psw.isp) entered

theorem Run.nested {s s' : System σ} {trace : List Occurrence} (coherent : Coherent s.emulator)
    (run : Run B s trace s') (keeps : KeepsIsp trace) :
    (priorities trace).Pairwise (fun outer inner => inner ≤ outer) ∧
      (∀ priority ∈ priorities trace, s'.cpu.psw.isp ≤ priority) ∧
      s'.cpu.psw.isp ≤ s.cpu.psw.isp := by
  induction run with
  | start => exact ⟨List.Pairwise.nil, fun _ member => absurd member not_mem_nil, Nat.le_refl _⟩
  | @step trace seen s₁ s₂ event reached _ step ih =>
    obtain ⟨ordered, above, fallen⟩ := ih fun block before after member =>
      keeps block before after (mem_append_left seen member)
    have split : priorities (trace ++ seen) = priorities trace ++ priorities seen :=
      filterMap_append
    rw [split]
    rcases event.isp (reached.coherent coherent) step fun block before after member =>
        keeps block before after (mem_append_right trace member) with
      ⟨none, same⟩ | ⟨priority, one, le, same⟩
    · rw [none, append_nil, same]
      exact ⟨ordered, above, fallen⟩
    · rw [one, same]
      refine ⟨pairwise_append.mpr ⟨ordered, pairwise_singleton _ _, ?_⟩, ?_, by omega⟩
      · intro outer member inner isInner
        rw [mem_singleton.mp isInner]
        exact Nat.le_trans le (above outer member)
      · intro outer member
        rcases mem_append.mp member with before | isLast
        · exact Nat.le_trans le (above outer before)
        · exact Nat.le_of_eq (mem_singleton.mp isLast).symm

/-! ### Returns -/

/-- A `RETI` that is run on a frame as it was pushed. -/
structure Returns {region : Nat → Prop} (ram : Ram B region) (before : Cpu) (pushed s : System σ)
    (block : Block) : Prop where
  sp_ge : 4 ≤ before.sp
  sp_lt : before.sp < 2 ^ 16
  inside : FrameIn region (before.sp - 4)
  pc_lt : before.pc < 2 ^ 24
  undisturbed : ∀ i, i < 4 → ram.byte (stackPaddr (before.sp - 4 + i)) s.emulator.machine.bus =
    ram.byte (stackPaddr (before.sp - 4 + i)) pushed.emulator.machine.bus
  atFrame : s.cpu.sp = before.sp - 4
  is : block.insn.mnemonic = .reti
  runs : block.skip = true → s.cpu.skipReq = 0
  segment : StackSegment block.ctx s.cpu

theorem Returns.resumes {region : Nat → Prop} {ram : Ram B region} {before after : Cpu}
    {vector acknowledged : Nat} {s₁ s₂ s₃ s₄ : System σ} {event : Chaining.Event σ}
    {block : Block} {seen : List Occurrence} (coherent : Coherent s₃.emulator)
    (accepts : processInterrupt B s₁ = some (s₂, [.accepted before after vector acknowledged]))
    (returns : Returns ram before s₂ s₃ block) (isBlock : event.block s₃.emulator = some block)
    (step : (Event.guest event).apply B s₃ = some (s₄, seen)) :
    s₄.emulator.key = { pc := before.pc, skip := false } ∧ s₄.emulator.control = .loop none := by
  obtain ⟨guest, applied, _⟩ := guest_applied step
  rcases guest_cases coherent guest applied with ⟨idle, _⟩ | ⟨block', isBlock', ran⟩
  · rw [isBlock] at idle
    cases idle
  rw [isBlock] at isBlock'
  cases isBlock'
  obtain ⟨skipEn, control⟩ := reti_left coherent ran returns.is returns.runs
  have room : before.sp - 4 + 4 < 2 ^ 16 := by
    have less := returns.sp_lt
    omega
  rcases processInterrupt_cases accepts with ⟨none, _⟩ | ⟨_, index, _, _, _, taken, isSeen⟩
  · cases none
  obtain ⟨rfl, rfl, rfl, rfl⟩ := Occurrence.accepted.inj (singleton_inj.mp isSeen)
  obtain ⟨mem', holds, pushed⟩ := doInterrupt_pushed acknowledged room returns.inside returns.pc_lt
    s₁.emulator.machine (holds_self ram s₁.emulator.machine returns.sp_ge)
  have frame : Frame (fun a => ram.byte a s₃.emulator.machine.bus) (s₁.cpu.sp - 4) s₁.cpu.pc
      (savedPsw true s₁.cpu.psw) := by
    refine pushed.frame.congr fun i small => ?_
    rw [returns.undisturbed i small, taken]
    exact holds.mem_eq _ (returns.inside i small)
  have start : Holds ram s₃.cpu (s₁.cpu.sp - 4) (fun a => ram.byte a s₃.emulator.machine.bus)
      s₃.emulator.machine := by
    refine ⟨?_, fun a _ => rfl⟩
    rw [← returns.atFrame]
    rfl
  have isReturn : block.insn.mnemonic.returns = true := by
    rw [returns.is]
    rfl
  have returned := block_returned room returns.segment returns.inside frame returns.pc_lt isReturn
    returns.runs s₃.emulator.machine start
  refine ⟨?_, control⟩
  unfold Emulator.key cpuGetTbCpuState
  rw [skipEn, ran.machine, returned.pc_eq]
  rfl

/-- In every run from reset whose steps all meet the condition: what holds of each acceptance;
the priorities that are accepted, from any state of the run on, while no block writes `isp`; and
what is run behind the return from an acceptance. -/
theorem interrupts_of_run {m : Machine σ} {s₁ : System σ} {trace : List Occurrence}
    (run : Run B (System.start B m) trace s₁) :
    (∀ earlier later before after vector acknowledged,
      trace = earlier ++ .accepted before after vector acknowledged :: later →
        Accepted earlier before after vector acknowledged) ∧
      (∀ nested s', Run B s₁ nested s' → KeepsIsp nested →
        (priorities nested).Pairwise fun outer inner => inner ≤ outer) ∧
      ∀ before after vector acknowledged s₂ handler s₃ event seen s₄ block,
        processInterrupt B s₁ = some (s₂, [.accepted before after vector acknowledged]) →
        Run B s₂ handler s₃ → event.block s₃.emulator = some block →
        (Event.guest event).apply B s₃ = some (s₄, seen) →
        ∀ (region : Nat → Prop) (ram : Ram B region), Returns ram before s₂ s₃ block →
          s₄.emulator.key = { pc := before.pc, skip := false } ∧
            s₄.emulator.control = .loop none := by
  have coherent := run.coherent (.start m)
  refine ⟨fun _ _ _ _ _ _ split => run.accepted split,
    fun nested s' later keeps => (later.nested coherent keeps).1, ?_⟩
  intro before after vector acknowledged s₂ handler s₃ event seen s₄ block accepts later isBlock
    step region ram returns
  have coherent₂ : Coherent s₂.emulator :=
    @Event.coherent σ B s₁ s₂ .process _ coherent trivial accepts
  exact returns.resumes (later.coherent coherent₂) accepts isBlock step

/-! ### A handler that skips a skip -/

def runs (B : Bus σ) : List (Event σ) → System σ → Option (System σ × List Occurrence)
  | [], s => some (s, [])
  | event :: rest, s => do
    let (next, seen) ← event.apply B s
    let (last, trace) ← runs B rest next
    return (last, seen ++ trace)

def runsMeet (B : Bus σ) : List (Event σ) → System σ → Bool
  | [], _ => true
  | event :: rest, s =>
    (match event with
      | .guest event => (event.block s.emulator).all fun block => !block.joinsSkips
      | _ => true) &&
    (event.apply B s).all fun next => runsMeet B rest next.1

theorem run_of_runs {events : List (Event σ)} {s s₁ s₂ : System σ} {trace seen : List Occurrence}
    (run : Run B s trace s₁) (found : runs B events s₁ = some (s₂, seen))
    (meet : runsMeet B events s₁ = true) : Run B s (trace ++ seen) s₂ := by
  induction events generalizing s₁ trace seen with
  | nil =>
    cases found
    rw [append_nil]
    exact run
  | cons event rest ih =>
    unfold runs at found
    unfold runsMeet at meet
    rw [bind_eq_bind, bind_eq_some_iff] at found
    obtain ⟨⟨next, first⟩, step, found⟩ := found
    rw [bind_eq_some_iff] at found
    obtain ⟨⟨last, later⟩, found, result⟩ := found
    cases result
    rw [step, all_some, Bool.and_eq_true] at meet
    rw [← append_assoc]
    refine ih (.step event run ?_ step) found meet.2
    cases event with
    | guest event =>
      intro block isBlock
      have single := meet.1
      dsimp only at single
      rw [isBlock, all_some] at single
      simpa using single
    | setIrq index priority enable => trivial
    | process => trivial

/-- `MOVW SP, #0FE00H`; `SET1 CY`; `EI`; `NOT1 CY`; `INC A`; the handler skips and returns. The
vector of the reset is at 0, that of interrupt 1 at 6. -/
def handlerCode (address : Nat) : Nat :=
  if 0x100 ≤ address then [0x61, 0xC8, 0x61, 0xD8, 0x61, 0xFC].getD (address - 0x100) 0
  else if 0x10 ≤ address then
    [0xCB, 0xF8, 0x00, 0xFE, 0x71, 0x80, 0x71, 0x7A, 0xFA, 0x71, 0xC0, 0x81].getD (address - 0x10) 0
  else [0x10, 0x00, 0, 0, 0, 0, 0x00, 0x01].getD address 0

def vectorMachine : Machine (Nat → Nat) :=
  { cpu := anyMachine.cpu
    bus := handlerCode
    update := false }

def first (tb : Nat) (chain : Bool) : List (Event (Nat → Nat)) :=
  [.guest (.generate handlerCode tb), .guest (.execute tb chain)]

def again (tb : Nat) : List (Event (Nat → Nat)) := [.guest (.execute tb false)]

def follow : List (Event (Nat → Nat)) := [.guest .follow]

def raise : List (Event (Nat → Nat)) := [.setIrq 1 0 true, .process]

/-- To the first acceptance. -/
def upToRaise : List (Event (Nat → Nat)) :=
  first 0 false ++ follow ++ first 1 false ++ follow ++ first 2 false ++ raise

def throughHandler : List (Event (Nat → Nat)) :=
  upToRaise ++ first 3 false ++ follow ++ first 4 false ++ follow ++ first 5 true ++
    first 6 false ++ follow ++ raise ++ again 3 ++ follow ++ again 4 ++ follow ++ first 7 false

def pushedPcs (trace : List Occurrence) : List Nat :=
  trace.filterMap fun occurrence =>
    match occurrence with
    | .accepted before _ _ _ => some before.pc
    | _ => none

/-- The last two blocks that were run, by mnemonic and address, with `A` after them. -/
def ranLast (trace : List Occurrence) : List (Mnemonic × Nat × Nat) :=
  (trace.drop (trace.length - 2)).filterMap fun occurrence =>
    match occurrence with
    | .ran block before after =>
      some (block.insn.mnemonic, before.pc, after.regs 1)
    | _ => none

/-- The first time, `SKC` skips `SKNC`, and the slot behind it is patched to `RETI`. -/
theorem resumed_skipped : ∃ s trace,
    runs flatBus throughHandler (System.start flatBus vectorMachine) = some (s, trace) ∧
      pushedPcs trace = [0x19, 0x1B] ∧
      ranLast trace = [(.reti, 0x104, 0), (.inc, 0x1B, 0)] := by
  have probe : (runs flatBus throughHandler (System.start flatBus vectorMachine)).map (fun result =>
      (pushedPcs result.2, ranLast result.2)) =
        some ([0x19, 0x1B], [(.reti, 0x104, 0), (.inc, 0x1B, 0)]) := by
    decide +kernel
  obtain ⟨⟨s, trace⟩, run, result⟩ := map_eq_some_iff.mp probe
  obtain ⟨pushed, ran⟩ := Prod.mk.inj result
  exact ⟨s, trace, run, pushed, ran⟩

/-- The first acceptance. -/
theorem interrupts_of_run_first : ∃ s trace,
    Run flatBus (System.start flatBus vectorMachine) trace s ∧ pushedPcs trace = [0x19] ∧
      ∀ earlier later before after vector acknowledged,
        trace = earlier ++ .accepted before after vector acknowledged :: later →
          Accepted earlier before after vector acknowledged := by
  have probe : (runs flatBus upToRaise (System.start flatBus vectorMachine)).map (fun result =>
      pushedPcs result.2) = some [0x19] := by
    decide +kernel
  have meet : runsMeet flatBus upToRaise (System.start flatBus vectorMachine) = true := by
    decide +kernel
  obtain ⟨⟨s, trace⟩, found, pushed⟩ := map_eq_some_iff.mp probe
  have run := run_of_runs .start found meet
  exact ⟨s, trace, run, pushed, (interrupts_of_run run).1⟩

end Tlib.Rl78.Acceptance
