import Tlib.CortexM.LazyStacking
import Tlib.CortexM.ProgramStatus

/-!
Contract: what the return from an exception restores.

Owns: the way of every register through the frame and back, and the handlers, nested to any depth,
that keep the frame.
-/

namespace Tlib.CortexM

open Tlib.Library.WordStack List
open BitVec hiding not_not

variable {cpu cpu' : Cpu} {F : Features} {E : Environment}

/-! ### The program status on the stack -/

theorem stackedXpsr_getLsbD (cpu : Cpu) (i : Nat) (inside : i < 32) : cpu.stackedXpsr.getLsbD i =
      ((cpu.n && decide (i = 31)) || (cpu.z && decide (i = 30)) || (cpu.c && decide (i = 29)) ||
        (cpu.v && decide (i = 28)) || (cpu.q && decide (i = 27)) ||
        (cpu.thumb && decide (i = 24)) ||
        (decide (25 ≤ i) && decide (i < 27) && cpu.condexecBits.getLsbD (i - 25)) ||
        (decide (10 ≤ i) && decide (i < 16) && cpu.condexecBits.getLsbD (i - 8)) ||
        cpu.exception.getLsbD i || (cpu.misaligned && decide (i = 9)) ||
        (cpu.sfpa && decide (i = 20))) := by
  unfold Cpu.stackedXpsr
  rw [getLsbD_or, getLsbD_or, xpsrRead_getLsbD cpu i inside,
    bitIf_getLsbD _ _ _ inside, bitIf_getLsbD _ _ _ inside]

section

variable (narrow : cpu.exception.toNat < 512)

include narrow

theorem exception_high {i : Nat} (high : 9 ≤ i) : cpu.exception.getLsbD i = false := by
  unfold getLsbD
  apply Nat.testBit_lt_two_pow
  exact Nat.lt_of_lt_of_le narrow (Nat.pow_le_pow_right Nat.two_pos high)

theorem stackedXpsr_exception : cpu.stackedXpsr &&& 0x1ff#32 = cpu.exception := by
  have field : ∀ j : Fin 32, (0x1ff#32).getLsbD j = decide (j.val < 9) := by decide
  apply eq_of_getLsbD_eq
  intro i inside
  rw [getLsbD_and, field ⟨i, inside⟩, stackedXpsr_getLsbD cpu i inside]
  rcases Nat.lt_or_ge i 9 with low | high
  · have place (k : Nat) (above : 9 ≤ k) : decide (i = k) = false := decide_eq_false (by omega)
    have below (k : Nat) (above : 9 ≤ k) : decide (k ≤ i) = false := decide_eq_false (by omega)
    simp [place, below, low]
  · rw [exception_high narrow high, decide_eq_false (by omega : ¬ i < 9), Bool.and_false]

theorem xpsrWrite_stacked (other : Cpu) : other.xpsrWrite cpu.stackedXpsr 0xfffffdff#32 =
      { other with
        n := cpu.n
        z := cpu.z
        c := cpu.c
        v := cpu.v
        q := cpu.q
        thumb := cpu.thumb
        condexecBits := cpu.condexecBits
        exception := cpu.exception } := by
  have bit := stackedXpsr_getLsbD cpu
  have high {i : Nat} (above : 9 ≤ i) := exception_high narrow above
  have n : cpu.stackedXpsr.getLsbD 31 = cpu.n := by
    rw [bit 31 (by decide), high (by decide)]
    simp
  have z : cpu.stackedXpsr.getLsbD 30 = cpu.z := by
    rw [bit 30 (by decide), high (by decide)]
    simp
  have c : cpu.stackedXpsr.getLsbD 29 = cpu.c := by
    rw [bit 29 (by decide), high (by decide)]
    simp
  have v : cpu.stackedXpsr.getLsbD 28 = cpu.v := by
    rw [bit 28 (by decide), high (by decide)]
    simp
  have q : cpu.stackedXpsr.getLsbD 27 = cpu.q := by
    rw [bit 27 (by decide), high (by decide)]
    simp
  have thumb : cpu.stackedXpsr.getLsbD 24 = cpu.thumb := by
    rw [bit 24 (by decide), high (by decide)]
    simp
  have condexec (bits : BitVec 8) :
      writeCondexecHigh (writeCondexecLow bits cpu.stackedXpsr 0xfffffdff#32) cpu.stackedXpsr
        0xfffffdff#32 = cpu.condexecBits := by
    apply eq_of_getLsbD_eq
    intro i inside
    rw [writeCondexec_getLsbD bits (by decide) (by decide) inside]
    by_cases first : i < 2
    · rw [if_pos first, bit _ (by omega), high (by omega), Nat.add_sub_cancel_left]
      have apart (k : Nat) (other : k < 25 ∨ 26 < k) : decide (25 + i = k) = false :=
        decide_eq_false (by omega)
      have below : decide (25 + i < 27) = true := decide_eq_true (by omega)
      have outside : decide (25 + i < 16) = false := decide_eq_false (by omega)
      simp [apart, below, outside]
    · rw [if_neg first, bit _ (by omega), high (by omega), Nat.add_sub_cancel_left]
      have apart (k : Nat) (other : k < 10 ∨ 15 < k) : decide (8 + i = k) = false :=
        decide_eq_false (by omega)
      have outside : decide (25 ≤ 8 + i) = false := decide_eq_false (by omega)
      have above : decide (10 ≤ 8 + i) = true := decide_eq_true (by omega)
      have below : decide (8 + i < 16) = true := decide_eq_true (by omega)
      simp [apart, outside, above, below]
  unfold Cpu.xpsrWrite
  rw [n, z, c, v, q, thumb, condexec, stackedXpsr_exception narrow]
  rfl

theorem stackedXpsr_alignment : cpu.stackedXpsr.getLsbD 9 = cpu.misaligned := by
  rw [stackedXpsr_getLsbD cpu 9 (by decide), exception_high narrow (Nat.le_refl 9)]
  simp

theorem stackedXpsr_sfpa : cpu.stackedXpsr.getLsbD 20 = cpu.sfpa := by
  rw [stackedXpsr_getLsbD cpu 20 (by decide), exception_high narrow (by decide)]
  simp

end

/-! ### The stack pointer -/

theorem or_four {a : Word} (odd : a.getLsbD 2 = true) : (a - 4#32) ||| 4#32 = a := by
  have value : a.toNat / 4 % 2 = 1 := by
    unfold getLsbD at odd
    rw [Nat.testBit_eq_decide_div_mod_eq, decide_eq_true_iff] at odd
    exact odd
  have even : (a - 4#32).toNat / 4 % 2 = 0 := by
    rw [toNat_sub]
    have bound := a.isLt
    simp only [toNat_ofNat]
    omega
  have apart : (a - 4#32) &&& 4#32 = 0#32 := by
    apply eq_of_getLsbD_eq
    intro i inside
    have single : ∀ j : Fin 32, (4#32).getLsbD j = decide (j.val = 2) := by decide
    rw [getLsbD_and, single ⟨i, inside⟩]
    by_cases two : i = 2
    · have clear : (a - 4#32).getLsbD 2 = false := by
        unfold getLsbD
        rw [Nat.testBit_eq_decide_div_mod_eq, show 2 ^ 2 = 4 from rfl, even]
        rfl
      subst two
      rw [clear]
      rfl
    · simp [two]
  rw [← add_eq_or_of_and_eq_zero _ _ apart, sub_add_cancel]

theorem frameTop_undone (cpu : Cpu) :
    (if cpu.misaligned then cpu.frameTop ||| 4#32 else cpu.frameTop) = cpu.sp := by
  unfold Cpu.frameTop
  cases odd : cpu.misaligned with
  | false => rfl
  | true => exact or_four odd

/-! ### The frame that a return finds -/

/-- The return finds the frame of the entry. -/
structure Awaited (F : Features) (cpu : Cpu) (lr : Word) (handled : Cpu) : Prop where
  pc : handled.pc = lr
  valid : handled.invalidReturn F = false
  clear : (handled.fpca && handled.clronret && (handled.fpccr true).lspact) = false
  stack : handled.returnStack F lr = cpu.active
  base : handled.pointer cpu.active = cpu.frameBase F lr
  core : Holds handled.memory (cpu.frameBase F lr) (cpu.coreFrame F cpu.stackedXpsr lr)
  additional : hasAdditional F lr = cpu.leavesSecure F lr

variable {handled : Cpu} {lr : Word}

section

variable (awaited : Awaited F cpu lr handled)

include awaited

theorem Awaited.returnSp : handled.returnSp F = cpu.frameBase F lr := by
  unfold Cpu.returnSp
  rw [awaited.pc, awaited.stack]
  exact awaited.base

theorem Awaited.framed : handled.failsBeforeFrame F = false := by
  have core := awaited.core
  unfold Cpu.failsBeforeFrame
  rw [awaited.clear, awaited.pc, awaited.returnSp, Bool.false_or, Bool.and_eq_false_iff,
    decide_eq_false_iff_not, not_not]
  cases additional : hasAdditional F lr with
  | false => exact .inl rfl
  | true =>
    apply Or.inr
    unfold Cpu.coreFrame at core
    rw [← awaited.additional, additional, if_pos rfl] at core
    exact core.1

theorem Awaited.coreCount : cpu.coreWords F lr = 8 + additionalCount F lr := by
  unfold Cpu.coreWords additionalCount
  rw [awaited.additional]

theorem Awaited.basic : Holds (handled.beforeRest F E).memory (handled.beforeRest F E).sp
      (cpu.basicWords cpu.stackedXpsr) := by
  have memory : (handled.beforeRest F E).memory = handled.memory :=
    beforeRest_part awaited.framed Cpu.memory
  have core := awaited.core
  unfold Cpu.coreFrame at core
  rw [holds_append] at core
  rw [memory, beforeRest_sp, awaited.returnSp, awaited.pc]
  unfold additionalCount
  rw [awaited.additional]
  cases leaves : cpu.leavesSecure F lr with
  | false =>
    rw [leaves] at core
    exact core.2
  | true =>
    rw [leaves] at core
    exact core.2

end

theorem popped_of_holds {words : List Word} (holds : Holds cpu.memory cpu.sp words) (i : Nat)
    (inside : i < words.length) : cpu.popped i = words[i] := holds.load_eq i inside

/-- The state after the basic frame, with the registers of the interrupted code. -/
def Cpu.resumed (next cpu : Cpu) : Cpu :=
  { next.afterPops 8 with
    r := fun i => if i.val < 4 then cpu.r i else if i.val = 12 then cpu.r 12 else next.r i
    lr := cpu.lr
    pc := cpu.pc
    sfpa := next.sfpa || cpu.sfpa
    n := cpu.n
    z := cpu.z
    c := cpu.c
    v := cpu.v
    q := cpu.q
    thumb := cpu.thumb
    condexecBits := cpu.condexecBits
    exception := cpu.exception }

theorem popBasic_resumed {next : Cpu} (narrow : cpu.exception.toNat < 512)
    (even : cpu.pc &&& ~~~1#32 = cpu.pc)
    (holds : Holds next.memory next.sp (cpu.basicWords cpu.stackedXpsr)) :
    next.popBasic = next.resumed cpu := by
  have word (i : Nat) (inside : i < 8) :
      next.popped i = (cpu.basicWords cpu.stackedXpsr)[i] := popped_of_holds holds i inside
  have r : next.restoreBasic.r = (next.resumed cpu).r := by
    funext i
    show (if i.val < 4 then next.popped i.val else if i.val = 12 then next.popped 4
      else next.r i) = if i.val < 4 then cpu.r i else if i.val = 12 then cpu.r 12 else next.r i
    by_cases low : i.val < 4
    · rw [if_pos low, if_pos low, word _ (by omega)]
      rcases i with ⟨_ | _ | _ | _ | i, inside⟩ <;> first | rfl | (simp only at low; omega)
    · rw [if_neg low, if_neg low, word 4 (by decide)]
      rfl
  have lr : next.popped 5 = cpu.lr := word 5 (by decide)
  have pc : next.popped 6 = cpu.pc := word 6 (by decide)
  have xpsr : next.popped 7 = cpu.stackedXpsr := word 7 (by decide)
  unfold Cpu.popBasic
  rw [xpsr, xpsrWrite_stacked narrow]
  unfold Cpu.resumed Cpu.restoreBasic
  rw [lr, pc, xpsr, even, stackedXpsr_sfpa narrow]
  have same : (fun i : Fin 13 => if i.val < 4 then next.popped i.val
      else if i.val = 12 then next.popped 4 else next.r i) =
        fun i => if i.val < 4 then cpu.r i else if i.val = 12 then cpu.r 12 else next.r i := r
  rw [same]

/-! ### The extended frame -/

/-- The parts that an extended frame changes, taken from another state. -/
def Cpu.withContext (cpu other : Cpu) : Cpu :=
  { cpu with
    sp := other.sp
    s := other.s
    fpscr := other.fpscr
    vpr := other.vpr
    fpccr := other.fpccr }

/-- The floating-point context that an extended frame keeps. -/
structure SameContext (F : Features) (cpu last : Cpu) : Prop where
  low : last.lowWords = cpu.lowWords
  fpscr : last.fpscr = cpu.fpscr
  callee : (F.v8 && cpu.secure && cpu.ts) = true → last.calleeWords = cpu.calleeWords

/-- Where the return finds the floating-point context of the interrupted code. -/
inductive FpAwaited (F : Features) (cpu handled : Cpu) : Prop
  | basic (basic : cpu.fpca = false)
  | pending (extended : cpu.fpca = true)
      (active : (handled.fpccr cpu.secure).lspact = true)
      (only : (handled.fpccr (!cpu.secure)).lspact = false) (unused : handled.fpca = false)
      (same : SameContext F cpu handled)
  | stored (extended : cpu.fpca = true) (quiet : handled.Quiet)
      (enabled : handled.fpuEnabled = true)
      (low : Holds handled.memory (cpu.fpBase F) (cpu.lowWords ++ [cpu.fpscr]))
      (callee : (F.v8 && cpu.secure && cpu.ts) = true →
        Holds handled.memory (cpu.fpBase F + BitVec.ofNat 32 (4 * 18)) cpu.calleeWords)

/-- What an extended frame makes of the state after the basic frame. -/
structure ContextPopped (F : Features) (cpu before after : Cpu) : Prop where
  same : after = before.withContext after
  sp : after.sp = before.sp + BitVec.ofNat 32 (4 * cpu.fpWords F)
  context : cpu.fpca = true → SameContext F cpu after
  upper : (F.v8 && cpu.secure && cpu.ts) = false → ∀ i : Fin 32, 16 ≤ i.val → after.s i = before.s i

theorem ofFn_popped {n : Nat} {words : List Word} {get : Fin n → Word} (first : Nat)
    (listed : words = ofFn get)
    (holds : Holds cpu.memory (cpu.sp + BitVec.ofNat 32 (4 * first)) words) (i : Fin n) :
    cpu.popped (first + i) = get i := by
  have inside : i.val < words.length := by
    rw [listed, length_ofFn]
    exact i.isLt
  have word := holds.load_eq i inside
  rw [add_add_ofNat, show 4 * first + 4 * i.val = 4 * (first + i) by omega] at word
  unfold Cpu.popped
  rw [word]
  simp [listed]

theorem popFpRegisters_popped {before : Cpu}
    (size : cpu.fpWords F = cpu.fpReservationWords) (ts : before.ts = cpu.ts)
    (secure : before.secure = cpu.secure) (v8 : cpu.ts = true → F.v8 = true)
    (low : Holds before.memory before.sp (cpu.lowWords ++ [cpu.fpscr]))
    (callee : (F.v8 && cpu.secure && cpu.ts) = true →
      Holds before.memory (before.sp + BitVec.ofNat 32 (4 * 18)) cpu.calleeWords) :
    ContextPopped F cpu before (before.popFpRegisters F) := by
  have pops : before.popsCallee F = (F.v8 && cpu.secure && cpu.ts) := by
    unfold Cpu.popsCallee
    rw [secure, ts]
  have lowHolds : Holds before.memory (before.sp + BitVec.ofNat 32 (4 * 0)) cpu.lowWords := by
    rw [Nat.mul_zero, show BitVec.ofNat 32 0 = 0 from rfl, add_zero]
    exact (holds_append.mp low).1
  constructor
  · rfl
  · show before.sp + BitVec.ofNat 32 (4 * (18 + if before.popsCallee F then 16 else 0)) = _
    rw [size, pops]
    unfold Cpu.fpReservationWords
    cases stack : cpu.ts with
    | false => simp
    | true => rw [v8 stack, Bool.true_and]
  · intro _
    apply SameContext.mk
    · unfold Cpu.lowWords
      congr 1
      funext i
      have word := ofFn_popped 0 rfl lowHolds i
      rw [Nat.zero_add] at word
      show (if i.val < 16 then before.popped i.val else _) = _
      rw [if_pos i.isLt]
      exact word
    · have word := popped_of_holds low 16 (by unfold Cpu.lowWords; simp)
      show before.popped 16 = cpu.fpscr
      rw [word]
      unfold Cpu.lowWords
      simp
    · intro wide
      unfold Cpu.calleeWords
      congr 1
      funext i
      have word := ofFn_popped 18 rfl (callee wide) i
      show (if 16 + i.val < 16 then _ else if before.popsCallee F then
        before.popped (16 + i.val + 2) else _) = _
      rw [if_neg (by omega), pops, if_pos wide, show 16 + i.val + 2 = 18 + i.val by omega]
      exact word
  · intro narrow i high
    show (if i.val < 16 then _ else if before.popsCallee F then _ else before.s i) = before.s i
    rw [if_neg (by omega), pops, narrow]
    rfl

/-- What a return leaves of the state of the handler and of the interrupted code. -/
structure Resumes (F : Features) (cpu : Cpu) (type : Word) (handled last : Cpu) : Prop where
  r : ∀ i : Fin 13, i.val < 4 ∨ i.val = 12 → last.r i = cpu.r i
  callee : cpu.leavesSecure F type = true → ∀ i : Fin 13, 4 ≤ i.val → i.val < 12 →
    last.r i = cpu.r i
  lr : last.lr = cpu.lr
  pc : last.pc = cpu.pc
  n : last.n = cpu.n
  z : last.z = cpu.z
  c : last.c = cpu.c
  v : last.v = cpu.v
  q : last.q = cpu.q
  thumb : last.thumb = cpu.thumb
  condexecBits : last.condexecBits = cpu.condexecBits
  exception : last.exception = cpu.exception
  fpca : last.fpca = cpu.fpca
  active : last.active = cpu.active
  sp : last.sp = cpu.sp
  others : ∀ p, p ≠ cpu.active → last.pointer p = handled.pointer p
  control : last.control = (handled.restoreSpsel F type).control
  ge : last.ge = handled.ge
  sfpa : last.sfpa = (handled.sfpa || cpu.sfpa)
  context : cpu.fpca = true → SameContext F cpu last
  upper : (F.v8 && cpu.secure && cpu.ts) = false → ∀ i : Fin 32, 16 ≤ i.val → last.s i = handled.s i

theorem Awaited.sp (awaited : Awaited F cpu lr handled) :
    (handled.beforeRest F E).sp + BitVec.ofNat 32 (4 * 8) = cpu.fpBase F := by
  rw [beforeRest_sp, awaited.returnSp, awaited.pc, add_add_ofNat,
    ← frameBase_add_core F cpu lr, awaited.coreCount]
  rw [show 4 * additionalCount F lr + 4 * 8 = 4 * (8 + additionalCount F lr) by omega]

theorem fpBase_add_fp (F : Features) (cpu : Cpu) :
    cpu.fpBase F + BitVec.ofNat 32 (4 * cpu.fpWords F) = cpu.frameTop := by
  unfold Cpu.fpBase
  rw [sub_add_cancel]

theorem Awaited.callee (awaited : Awaited F cpu lr handled)
    (leaves : cpu.leavesSecure F lr = true) (i : Fin 13) (low : 4 ≤ i.val) (high : i.val < 12) :
    (handled.beforeRest F E).r i = cpu.r i := by
  have core := awaited.core
  have additional : hasAdditional F handled.pc = true := by
    rw [awaited.pc, awaited.additional, leaves]
  obtain ⟨-, -, sp, memory⟩ := clearOnReturn_keepsStacks (handled.returning F E)
  rw [returning_sp, awaited.returnSp] at sp
  rw [(returning_same F E handled).2.1] at memory
  unfold Cpu.coreFrame at core
  rw [leaves, if_pos rfl, holds_append] at core
  have word (k : Nat) (inside : k < 10) :
      (handled.returning F E).clearOnReturn.cpu.popped k = (cpu.additionalWords lr)[k] := by
    have holds : Holds (handled.returning F E).clearOnReturn.cpu.memory
        (handled.returning F E).clearOnReturn.cpu.sp (cpu.additionalWords lr) := by
      rw [sp, memory]
      exact core.1
    exact popped_of_holds holds k inside
  unfold Cpu.beforeRest
  rw [if_pos additional]
  show (if 4 ≤ i.val ∧ i.val < 12 then
    (handled.returning F E).clearOnReturn.cpu.popped (i.val - 2) else _) = _
  rw [if_pos ⟨low, high⟩, word _ (by omega)]
  rcases i with ⟨i, inside⟩
  have cases : i = 4 ∨ i = 5 ∨ i = 6 ∨ i = 7 ∨ i = 8 ∨ i = 9 ∨ i = 10 ∨ i = 11 := by
    simp only at low high
    omega
  rcases cases with rfl | rfl | rfl | rfl | rfl | rfl | rfl | rfl <;> rfl

theorem Awaited.finish (awaited : Awaited F cpu lr handled) {after : Cpu}
    (nfpca : excReturnNfpca lr = !cpu.fpca)
    (popped : ContextPopped F cpu ((handled.beforeRest F E).resumed cpu) after)
    (narrow : cpu.exception.toNat < 512) :
    Resumes F cpu lr handled (after.finishExit lr cpu.stackedXpsr) := by
  have part {α : Type} (part : Cpu → α) :
      part after = part (((handled.beforeRest F E).resumed cpu).withContext after) :=
    congrArg part popped.same
  have before {α : Type} (part : Cpu → α) := beforeRest_part (E := E) awaited.framed part
  have keeps := beforeRest_keepsStacks F E handled
  have returning := returning_active F E handled
  have secure : after.secure = (handled.beforeRest F E).secure := part Cpu.secure
  have processSp : after.processSp = (handled.beforeRest F E).processSp := part Cpu.processSp
  have sameStacks : KeepsStacks (handled.beforeRest F E)
      (after.finishExit lr cpu.stackedXpsr) :=
    ⟨secure, processSp, part Cpu.otherSp, part Cpu.otherSsMsp, part Cpu.otherSsPsp,
      part Cpu.control⟩
  have allStacks := keeps.trans sameStacks
  have active : (after.finishExit lr cpu.stackedXpsr).active = cpu.active := by
    rw [allStacks.active, returning, awaited.pc]
    exact awaited.stack
  have r (i : Fin 13) : (after.finishExit lr cpu.stackedXpsr).r i =
      if i.val < 4 then cpu.r i else if i.val = 12 then cpu.r 12
        else (handled.beforeRest F E).r i := congrFun (part Cpu.r) i
  constructor
  · rintro i (low | last)
    · rw [r, if_pos low]
    · rw [r, if_neg (by omega), if_pos last]
      rw [show i = 12 from Fin.ext last]
  · intro leaves i low high
    rw [r, if_neg (by omega), if_neg (by omega)]
    exact awaited.callee leaves i low high
  · exact part Cpu.lr
  · exact part Cpu.pc
  · exact part Cpu.n
  · exact part Cpu.z
  · exact part Cpu.c
  · exact part Cpu.v
  · exact part Cpu.q
  · exact part Cpu.thumb
  · exact part Cpu.condexecBits
  · exact part Cpu.exception
  · show (!excReturnNfpca lr) = cpu.fpca
    rw [nfpca, Bool.not_not]
  · exact active
  · have sp : after.sp = cpu.frameTop := by
      rw [popped.sp]
      show (handled.beforeRest F E).sp + BitVec.ofNat 32 (4 * 8) + _ = _
      rw [awaited.sp, fpBase_add_fp]
    show (if cpu.stackedXpsr.getLsbD 9 then after.sp ||| 4#32 else after.sp) = cpu.sp
    rw [stackedXpsr_alignment narrow, sp]
    exact frameTop_undone cpu
  · intro p other
    apply ((returning_movesNone F E handled).then allStacks.onlyMoves)
    rw [returning, awaited.pc, awaited.stack]
    exact other
  · have selected := @selectReturnStack_control F
      (handled.clearFaultmask.completeIrq F E) handled.pc
    have masked := ((clearFaultmask_keepsStacks handled).trans
      (@completeIrq_keepsStacks F E handled.clearFaultmask)).control
    rw [allStacks.control]
    rw [awaited.pc] at selected
    unfold Cpu.returning
    rw [awaited.pc, selected]
    unfold Cpu.restoreSpsel
    rw [masked]
  · exact (part Cpu.ge).trans (before Cpu.ge)
  · exact (part Cpu.sfpa).trans (congrArg (· || cpu.sfpa) (before Cpu.sfpa))
  · exact fun extended =>
      ⟨(popped.context extended).low, (popped.context extended).fpscr,
        (popped.context extended).callee⟩
  · intro narrow i high
    exact (popped.upper narrow i high).trans (beforeRest_upper F E handled i high)

/-- What is known of the interrupted code and of the return besides the frame. -/
structure Matched (F : Features) (cpu : Cpu) (lr : Word) (handled : Cpu) : Prop where
  awaited : Awaited F cpu lr handled
  nfpca : excReturnNfpca lr = !cpu.fpca
  narrow : cpu.exception.toNat < 512
  even : cpu.pc &&& ~~~1#32 = cpu.pc
  ts : handled.ts = cpu.ts
  v8 : cpu.ts = true → F.v8 = true
  size : cpu.fpca = true → cpu.fpWords F = cpu.fpReservationWords
  context : FpAwaited F cpu handled

theorem Matched.popExtended (matched : Matched F cpu lr handled) : ∃ after,
      ((handled.beforeRest F E).resumed cpu).popExtended F lr = .done after ∧
        ContextPopped F cpu ((handled.beforeRest F E).resumed cpu) after := by
  have awaited := matched.awaited
  have part {α : Type} (part : Cpu → α) := beforeRest_part (E := E) awaited.framed part
  have secure : ((handled.beforeRest F E).resumed cpu).secure = cpu.secure := by
    show (handled.beforeRest F E).secure = _
    rw [beforeRest_secure, awaited.pc]
    exact congrArg StackPointer.secure awaited.stack
  have fpccr : ((handled.beforeRest F E).resumed cpu).fpccr = handled.fpccr := part Cpu.fpccr
  have ts : ((handled.beforeRest F E).resumed cpu).ts = cpu.ts := (part Cpu.ts).trans matched.ts
  have size := matched.size
  have nfpca := matched.nfpca
  unfold Cpu.popExtended
  rw [nfpca, secure, fpccr]
  cases matched.context with
  | basic basic =>
    rw [basic]
    refine ⟨_, rfl, rfl, ?_, ?_, fun _ _ _ => rfl⟩
    · unfold Cpu.fpWords
      rw [basic]
      exact (add_zero _).symm
    · intro extended
      rw [basic] at extended
      cases extended
  | pending extended active only unused same =>
    have noFault : (!cpu.secure && (handled.fpccr true).lspact) = false := by
      cases state : cpu.secure with
      | true => rfl
      | false =>
        rw [state] at only
        exact only
    have kept : (handled.fpca && handled.clronret) = false := by
      rw [unused]
      rfl
    obtain ⟨s, fpscr, -⟩ := beforeRest_fp F E kept
    rw [extended, noFault, active]
    refine ⟨_, rfl, rfl, ?_, ?_, fun _ _ _ => rfl⟩
    · have words : ((handled.beforeRest F E).resumed cpu).fpReservationWords = cpu.fpWords F := by
        rw [size extended]
        unfold Cpu.fpReservationWords
        rw [secure, ts]
      show _ + BitVec.ofNat 32 (4 * ((handled.beforeRest F E).resumed cpu).fpReservationWords) = _
      rw [words]
    · intro _
      apply SameContext.mk
      · rw [← same.low]
        unfold Cpu.lowWords
        rw [← s]
        rfl
      · exact fpscr.trans same.fpscr
      · intro wide
        rw [← same.callee wide]
        unfold Cpu.calleeWords
        rw [← s]
        rfl
  | stored extended quiet enabled low callee =>
    have unit : ((handled.beforeRest F E).resumed cpu).fpuEnabled = true :=
      (part Cpu.fpuEnabled).trans enabled
    have memory : ((handled.beforeRest F E).resumed cpu).memory = handled.memory :=
      part Cpu.memory
    have sp : ((handled.beforeRest F E).resumed cpu).sp = cpu.fpBase F := awaited.sp
    rw [extended, quiet, quiet, Bool.and_false, unit]
    refine ⟨_, rfl, ?_⟩
    apply popFpRegisters_popped (size extended) ts secure matched.v8
    · rw [memory, sp]
      exact low
    · rw [memory, sp]
      exact callee

theorem Matched.resumes (matched : Matched F cpu lr handled) :
    ∃ last, handled.doV7mExceptionExit F E = .done last ∧ Resumes F cpu lr handled last := by
  have awaited := matched.awaited
  obtain ⟨after, popped, context⟩ := matched.popExtended (E := E)
  have basic : (handled.beforeRest F E).popBasic = (handled.beforeRest F E).resumed cpu :=
    popBasic_resumed matched.narrow matched.even awaited.basic
  have xpsr : (handled.beforeRest F E).popped 7 = cpu.stackedXpsr :=
    popped_of_holds awaited.basic 7 (by show 7 < 8; decide)
  refine ⟨after.finishExit lr cpu.stackedXpsr, ?_, ?_⟩
  · rw [exit_framed awaited.valid awaited.framed, awaited.pc]
    unfold Cpu.popRest
    rw [basic, popped, xpsr]
    rfl
  · exact awaited.finish matched.nfpca context matched.narrow

/-! ### From an entry to its return -/

def Cpu.pendingFrame (F : Features) (cpu : Cpu) : FpFrame :=
  { bank := cpu.fpccrS
    base := cpu.fpcar cpu.fpccrS &&& 0xfffffff8#32
    words := cpu.lazyWords F cpu.fpccrS
    small := lazyWords_length_le cpu cpu.fpccrS }

/-- Lazy preservation is pending in one Security state at most, and only while `FPCA` is clear. -/
structure Cpu.FpConsistent (cpu : Cpu) : Prop where
  owner : ∀ bank, (cpu.fpccr bank).lspact = true → cpu.fpccrS = bank
  unused : ∀ bank, (cpu.fpccr bank).lspact = true → cpu.fpca = false

def Cpu.level (F : Features) (cpu : Cpu) : Option FpFrame :=
  if (cpu.fpccr cpu.fpccrS).lspact then some (cpu.pendingFrame F) else none

theorem Cpu.FpConsistent.preserved (consistent : cpu.FpConsistent) :
    Preserved F (cpu.level F) False cpu := by
  have other (bank : Bool) (different : bank ≠ cpu.fpccrS) : (cpu.fpccr bank).lspact = false := by
    cases lspact : (cpu.fpccr bank).lspact with
    | false => rfl
    | true => exact absurd (consistent.owner bank lspact).symm different
  unfold Cpu.level
  cases active : (cpu.fpccr cpu.fpccrS).lspact with
  | false =>
    rw [if_neg Bool.false_ne_true]
    intro bank
    by_cases same : bank = cpu.fpccrS
    · rw [same]
      exact active
    · exact other bank same
  | true =>
    rw [if_pos rfl]
    apply Or.inl
    refine ⟨active, ?_, consistent.unused _ active, rfl, rfl, rfl⟩
    apply other
    show (!cpu.fpccrS) ≠ cpu.fpccrS
    cases cpu.fpccrS <;> decide

def Cpu.handlerSecure (F : Features) (E : Environment) (cpu : Cpu) (acknowledged : Word) : Bool :=
  (secureTarget F E cpu.secure acknowledged).1

/-- A matching return, for a frame that nothing else writes. -/
structure Balanced (F : Features) (E : Environment) (cpu : Cpu) (acknowledged : Word)
    (handled : Cpu) : Prop where
  handler : ∃ frames : Word → Prop,
    (∀ b, cpu.InFrame F (cpu.handlerLr F E acknowledged) b → frames b) ∧
      Activity F E frames (cpu.takeIrq F E acknowledged).cpu handled
  apart : (cpu.fpccr cpu.fpccrS).lspact = true →
    ∀ b, (cpu.pendingFrame F).Contains b → ¬ cpu.InFrame F (cpu.handlerLr F E acknowledged) b
  returning : Returning (cpu.handlerLr F E acknowledged)
    (cpu.takeIrq F E acknowledged).cpu handled
  pointers : ∀ process, handled.pointer ⟨cpu.secure, process⟩ =
    (cpu.takeIrq F E acknowledged).cpu.pointer ⟨cpu.secure, process⟩
  spsel : cpu.handlerSecure F E acknowledged ≠ cpu.secure →
    (handled.control cpu.secure).spsel = (cpu.control cpu.secure).spsel
  enabled : cpu.fpca = true → handled.fpuEnabled = true

/-- What the interrupted code was like. -/
structure Cpu.Consistent (F : Features) (cpu : Cpu) : Prop where
  selected : cpu.StackSelected
  narrow : cpu.exception.toNat < 512
  even : cpu.pc &&& ~~~1#32 = cpu.pc
  single : F.hasTrustzone = false → cpu.secure = false ∧ cpu.ts = false
  fp : cpu.FpConsistent

theorem Cpu.Consistent.v8 (consistent : cpu.Consistent F) (stack : cpu.ts = true) :
    F.v8 = true := by
  apply F.v8_of_trustzone
  cases trustzone : F.hasTrustzone with
  | true => rfl
  | false =>
    rw [(consistent.single trustzone).2] at stack
    cases stack

theorem sameContext_of_lazyWords (ts : cpu'.ts = cpu.ts)
    (same : cpu'.lazyWords F cpu.secure = cpu.lazyWords F cpu.secure) :
    SameContext F cpu cpu' := by
  have lowLength : cpu'.lowWords.length = cpu.lowWords.length := by
    unfold Cpu.lowWords
    rw [length_ofFn, length_ofFn]
  unfold Cpu.lazyWords at same
  rw [ts, List.append_assoc, List.append_assoc] at same
  obtain ⟨low, rest⟩ := append_inj same lowLength
  obtain ⟨fpscr, above⟩ := List.cons.inj rest
  refine ⟨low, fpscr, ?_⟩
  intro wide
  simp only [Bool.and_eq_true] at wide
  obtain ⟨⟨v8, secure⟩, stack⟩ := wide
  rw [v8, secure, stack] at above
  exact (List.cons.inj above).2

variable {acknowledged : Word}

theorem Balanced.valid (takes : cpu.Takes F E acknowledged)
    (balanced : Balanced F E cpu acknowledged handled) : handled.invalidReturn F = false := by
  have secure := balanced.returning.secure
  rw [takes.entered, Outcome.done_cpu] at secure
  unfold Cpu.invalidReturn
  rw [balanced.returning.pc]
  cases trustzone : F.hasTrustzone with
  | false => rfl
  | true =>
    rw [secure, entered_secure _ _ trustzone]
    cases excReturnEs (cpu.handlerLr F E acknowledged) <;> rfl

theorem Balanced.returnSecure (takes : cpu.Takes F E acknowledged)
    (balanced : Balanced F E cpu acknowledged handled) :
    handled.returnSecure F (cpu.handlerLr F E acknowledged) = cpu.secure := by
  have returning := balanced.returning
  rw [takes.entered, Outcome.done_cpu] at returning
  have secure := returning_secure returning
  rw [returning.pc] at secure
  exact secure

theorem returnStack_interrupted (selected : cpu.StackSelected)
    (single : F.hasTrustzone = false → cpu.secure = false)
    (secure : handled.returnSecure F (cpu.handlerLr F E acknowledged) = cpu.secure)
    (spsel : cpu.handlerSecure F E acknowledged ≠ cpu.secure →
      (handled.control cpu.secure).spsel = (cpu.control cpu.secure).spsel) :
    handled.returnStack F (cpu.handlerLr F E acknowledged) = cpu.active := by
  unfold Cpu.StackSelected Cpu.isUsingProcessSpCurrent Cpu.isUsingProcessSp at selected
  unfold Cpu.returnStack Cpu.active
  rw [secure, selected]
  congr 1
  have mode : excReturnMode (cpu.handlerLr F E acknowledged) = !cpu.inHandlerMode :=
    excReturnMode_bits _ _ _ _ _ _ _ _
  rw [mode]
  cases handler : cpu.inHandlerMode with
  | true => rfl
  | false =>
    have bit : excReturnSpsel (cpu.handlerLr F E acknowledged) =
        (cpu.control (if F.v8 then cpu.handlerSecure F E acknowledged else false)).spsel := by
      unfold Cpu.handlerLr Cpu.handlerSecure
      rw [excReturn_spsel, handler]
      split <;> rfl
    unfold Cpu.returnSpsel
    rw [secure]
    cases trustzone : F.hasTrustzone with
    | true =>
      have es : excReturnEs (cpu.handlerLr F E acknowledged) =
          cpu.handlerSecure F E acknowledged := excReturn_es cpu _ trustzone
      rw [es, Bool.true_and]
      split
      · rename_i same
        rw [bit, F.v8_of_trustzone trustzone, if_pos rfl, same]
      · rename_i other
        exact spsel fun same => other same.symm
    | false =>
      have state := single trustzone
      have target : cpu.handlerSecure F E acknowledged = false := by
        unfold Cpu.handlerSecure secureTarget
        rw [trustzone, if_neg Bool.false_ne_true]
        exact state
      rw [Bool.false_and, if_pos state, bit, target, ite_self, state]

theorem Balanced.stack (takes : cpu.Takes F E acknowledged)
    (consistent : cpu.Consistent F) (balanced : Balanced F E cpu acknowledged handled) :
    handled.returnStack F (cpu.handlerLr F E acknowledged) = cpu.active :=
  returnStack_interrupted consistent.selected (fun plain => (consistent.single plain).1)
    (balanced.returnSecure takes) balanced.spsel

/-- The bytes of a frame that the lazy store does not write. -/
def Cpu.Fixed (F : Features) (cpu : Cpu) (lr b : Word) : Prop :=
  cpu.InFrame F lr b ∧ ∀ frame, cpu.handlerLevel F (cpu.level F) = some frame → ¬ frame.Contains b

theorem pendingFrame_of_level {frame : FpFrame} (same : cpu.level F = some frame) :
    (cpu.fpccr cpu.fpccrS).lspact = true ∧ frame = cpu.pendingFrame F := by
  unfold Cpu.level at same
  split at same
  · rename_i active
    cases same
    exact ⟨active, rfl⟩
  · cases same

theorem handlerLevel_cases {frame : FpFrame}
    (same : cpu.handlerLevel F (cpu.level F) = some frame) :
    (cpu.fpca = false ∧ (cpu.fpccr cpu.fpccrS).lspact = true ∧ frame = cpu.pendingFrame F) ∨
      (cpu.fpca = true ∧ cpu.lspen = true ∧ frame = cpu.lazyFrame F) := by
  unfold Cpu.handlerLevel at same
  cases extended : cpu.fpca with
  | false =>
    rw [extended, if_neg Bool.false_ne_true] at same
    exact .inl ⟨rfl, pendingFrame_of_level same⟩
  | true =>
    rw [extended, if_pos rfl] at same
    split at same
    · rename_i lazy
      cases same
      exact .inr ⟨rfl, lazy, rfl⟩
    · cases same

theorem Activity.kept {frames : Word → Prop} {now : Cpu}
    (takes : cpu.Takes F E acknowledged) (fp : cpu.FpConsistent)
    (inside : ∀ b, cpu.InFrame F (cpu.handlerLr F E acknowledged) b → frames b)
    (run : Activity F E frames (cpu.takeIrq F E acknowledged).cpu now) :
    Agree (cpu.Fixed F (cpu.handlerLr F E acknowledged))
        (cpu.entered F (secureTarget F E cpu.secure acknowledged).2
          (cpu.handlerLr F E acknowledged)).memory now.memory ∧
      Preserved F (cpu.handlerLevel F (cpu.level F)) (cpu.fpca = true) now := by
  rw [takes.entered, Outcome.done_cpu] at run
  apply run.preserved
  · exact fun b fixed => inside b fixed.1
  · exact fun frame same b contains fixed => fixed.2 frame same contains
  · intro extended frame same b contains
    rcases handlerLevel_cases same with ⟨basic, -⟩ | ⟨-, lazy, rfl⟩
    · rw [extended] at basic
      cases basic
    · exact inside b (lazyFrame_inFrame extended lazy contains)
  · have before := fp.preserved (F := F)
    cases extended : cpu.fpca with
    | true =>
      exact entered_extended _ _ extended takes.aligned (before.quiet extended) _ _
    | false =>
      unfold Cpu.handlerLevel
      rw [extended, if_neg Bool.false_ne_true]
      have start := before.congr (entered_plain (F := F)
        (secureTarget F E cpu.secure acknowledged).2 (cpu.handlerLr F E acknowledged) extended)
        False.elim
      apply start.weaken
      exact fun other => Bool.false_ne_true other

theorem Balanced.kept (takes : cpu.Takes F E acknowledged)
    (consistent : cpu.Consistent F) (balanced : Balanced F E cpu acknowledged handled) :
    Agree (cpu.Fixed F (cpu.handlerLr F E acknowledged))
        (cpu.entered F (secureTarget F E cpu.secure acknowledged).2
          (cpu.handlerLr F E acknowledged)).memory handled.memory ∧
      Preserved F (cpu.handlerLevel F (cpu.level F)) (cpu.fpca = true) handled := by
  obtain ⟨frames, inside, run⟩ := balanced.handler
  exact run.kept takes consistent.fp inside

theorem Balanced.core (takes : cpu.Takes F E acknowledged)
    (consistent : cpu.Consistent F) (balanced : Balanced F E cpu acknowledged handled) :
    Holds handled.memory (cpu.frameBase F (cpu.handlerLr F E acknowledged))
      (cpu.coreFrame F cpu.stackedXpsr (cpu.handlerLr F E acknowledged)) := by
  have few := coreWords_le F cpu (cpu.handlerLr F E acknowledged)
  have count := coreFrame_length F cpu cpu.stackedXpsr (cpu.handlerLr F E acknowledged)
  apply (entered_core F cpu (secureTarget F E cpu.secure acknowledged).2 _).of_agree _
    (by omega) (by decide)
  intro b within
  rw [count] at within
  apply (balanced.kept takes consistent).1
  apply And.intro (inFrame_of_core within)
  intro frame same contains
  rcases handlerLevel_cases same with ⟨-, active, rfl⟩ | ⟨extended, lazy, rfl⟩
  · exact balanced.apart active b contains (inFrame_of_core within)
  · apply core_apart_fp within
    have size : (cpu.lazyWords F cpu.secure).length ≤ cpu.fpWords F :=
      lazyWords_length_le_fpWords extended lazy
    exact contains.mono (Nat.mul_le_mul_left 4 size)

structure FrameHolds (F : Features) (cpu : Cpu) (m : Memory 32) (base : Word) : Prop where
  low : Holds m base (cpu.lowWords ++ [cpu.fpscr])
  vpr : F.v8 = true → load m (base + BitVec.ofNat 32 (4 * 17)) = cpu.vprWord F
  callee : (F.v8 && cpu.secure && cpu.ts) = true →
    Holds m (base + BitVec.ofNat 32 (4 * 18)) cpu.calleeWords

theorem context_of_holds {m : Memory 32} {base word : Word} {rest : List Word}
    (holds : Holds m base (cpu.lowWords ++ [cpu.fpscr] ++ ([word] ++ rest))) :
    Holds m base (cpu.lowWords ++ [cpu.fpscr]) ∧ load m (base + BitVec.ofNat 32 (4 * 17)) = word ∧
      Holds m (base + BitVec.ofNat 32 (4 * 18)) rest := by
  have count : (cpu.lowWords ++ [cpu.fpscr]).length = 17 := by
    unfold Cpu.lowWords
    simp
  obtain ⟨low, above⟩ := holds_append.mp holds
  obtain ⟨vpr, above⟩ := holds_append.mp above
  rw [count] at vpr
  rw [count, length_singleton, add_add_ofNat] at above
  exact ⟨low, vpr.1, above⟩

theorem frameHolds_lazy {m : Memory 32} {base : Word}
    (holds : Holds m base (cpu.lazyWords F cpu.secure)) : FrameHolds F cpu m base := by
  unfold Cpu.lazyWords at holds
  have low := (holds_append.mp holds).1
  cases v8 : F.v8 with
  | false =>
    apply FrameHolds.mk low
    · intro other
      rw [v8] at other
      cases other
    · intro wide
      rw [v8] at wide
      cases wide
  | true =>
    rw [v8, if_pos rfl] at holds
    obtain ⟨-, vpr, above⟩ := context_of_holds holds
    apply FrameHolds.mk low (fun _ => vpr)
    intro wide
    rw [v8, Bool.true_and] at wide
    rw [if_pos wide] at above
    exact above

theorem frameHolds_eager {m : Memory 32} {base : Word}
    (holds : Holds m base (cpu.extendedPushes F).reverse) : FrameHolds F cpu m base := by
  have listed : (cpu.extendedPushes F).reverse = cpu.lowWords ++ [cpu.fpscr] ++
      ([cpu.vprWord F] ++ if F.v8 && cpu.ts then cpu.calleeWords else []) := by
    unfold Cpu.extendedPushes
    cases F.v8 && cpu.ts <;> simp
  rw [listed] at holds
  obtain ⟨low, vpr, above⟩ := context_of_holds holds
  apply FrameHolds.mk low (fun _ => vpr)
  intro wide
  simp only [Bool.and_eq_true] at wide
  rw [wide.1.1, wide.2] at above
  exact above

theorem Activity.context {frames : Word → Prop} {now : Cpu}
    (takes : cpu.Takes F E acknowledged) (fp : cpu.FpConsistent) (extended : cpu.fpca = true)
    (inside : ∀ b, cpu.InFrame F (cpu.handlerLr F E acknowledged) b → frames b)
    (run : Activity F E frames (cpu.takeIrq F E acknowledged).cpu now) :
    (cpu.lspen = true ∧ (cpu.lazyFrame F).Pending F now) ∨
      (now.Quiet ∧ FrameHolds F cpu now.memory (cpu.fpBase F)) := by
  obtain ⟨agree, preserved⟩ := run.kept takes fp inside
  unfold Cpu.Fixed at agree
  unfold Cpu.handlerLevel at agree preserved
  rw [if_pos extended] at agree preserved
  cases lazy : cpu.lspen with
  | false =>
    rw [lazy, if_neg Bool.false_ne_true] at agree preserved
    have few := fpWords_le F cpu
    have count : cpu.fpWords F = (cpu.extendedPushes F).length := by
      unfold Cpu.fpWords
      rw [extended, lazy, extendedPushes_length]
      rfl
    have pushed : Holds
        (cpu.entered F (secureTarget F E cpu.secure acknowledged).2
          (cpu.handlerLr F E acknowledged)).memory
        (cpu.fpBase F) (cpu.extendedPushes F).reverse := entered_fp _ extended lazy
    have held : Holds now.memory (cpu.fpBase F) (cpu.extendedPushes F).reverse := by
      apply pushed.of_agree _ (by rw [length_reverse]; omega) (by decide)
      intro b within
      rw [length_reverse, ← count] at within
      apply agree
      apply And.intro (inFrame_of_fp within)
      intro frame none
      cases none
    exact .inr ⟨preserved, frameHolds_eager held⟩
  | true =>
    rw [lazy, if_pos rfl] at preserved
    rcases preserved with pending | ⟨quiet, stored⟩
    · exact .inl ⟨rfl, pending⟩
    · exact .inr ⟨quiet, frameHolds_lazy (stored extended)⟩

theorem Balanced.context (takes : cpu.Takes F E acknowledged)
    (consistent : cpu.Consistent F) (balanced : Balanced F E cpu acknowledged handled)
    (ts : handled.ts = cpu.ts) : FpAwaited F cpu handled := by
  obtain ⟨frames, inside, run⟩ := balanced.handler
  cases extended : cpu.fpca with
  | false => exact .basic extended
  | true =>
    rcases run.context takes consistent.fp extended inside with
      ⟨-, pending⟩ | ⟨quiet, holds⟩
    · exact .pending extended pending.active pending.only pending.fpca
        (sameContext_of_lazyWords ts pending.words)
    · exact .stored extended quiet (balanced.enabled extended) holds.low holds.callee

theorem Balanced.matched (takes : cpu.Takes F E acknowledged)
    (consistent : cpu.Consistent F) (balanced : Balanced F E cpu acknowledged handled)
    (size : cpu.fpca = true → cpu.fpWords F = cpu.fpReservationWords) :
    Matched F cpu (cpu.handlerLr F E acknowledged) handled := by
  have ts : handled.ts = cpu.ts := by
    obtain ⟨frames, inside, handler⟩ := balanced.handler
    have run := handler.ts
    rw [takes.entered, Outcome.done_cpu, entered_ts] at run
    exact run
  have context := balanced.context takes consistent ts
  have base : handled.pointer cpu.active = cpu.frameBase F (cpu.handlerLr F E acknowledged) := by
    have kept := balanced.pointers cpu.processSp
    rw [takes.entered, Outcome.done_cpu] at kept
    exact kept.trans (entered_base F cpu _ _)
  have additional : hasAdditional F (cpu.handlerLr F E acknowledged) =
      cpu.leavesSecure F (cpu.handlerLr F E acknowledged) := by
    unfold hasAdditional Cpu.leavesSecure shouldPopAdditionalRegisters
    cases trustzone : F.hasTrustzone with
    | false => rfl
    | true =>
      have secure : excReturnS (cpu.handlerLr F E acknowledged) = cpu.secure :=
        excReturn_s cpu _ trustzone
      rw [secure, Bool.true_and, Bool.true_and, Bool.and_comm]
  have clear : (handled.fpca && handled.clronret && (handled.fpccr true).lspact) = false := by
    have preserved := (balanced.kept takes consistent).2
    cases level : cpu.handlerLevel F (cpu.level F) with
    | none =>
      rw [level] at preserved
      rw [preserved true, Bool.and_false]
    | some frame =>
      rw [level] at preserved
      rcases preserved with pending | ⟨quiet, -⟩
      · rw [pending.fpca]
        rfl
      · rw [quiet true, Bool.and_false]
  exact
    { awaited :=
        { pc := balanced.returning.pc
          valid := balanced.valid takes
          clear := clear
          stack := balanced.stack takes consistent
          base := base
          core := balanced.core takes consistent
          additional := additional }
      nfpca := excReturn_nfpca F cpu _
      narrow := consistent.narrow
      even := consistent.even
      ts := ts
      v8 := consistent.v8
      size := size
      context := context }

end Tlib.CortexM
