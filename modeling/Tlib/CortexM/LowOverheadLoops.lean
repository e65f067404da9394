import Tlib.CortexM.SecureFpContext

/-!
Contract: low-overhead loops of an 8.1-M core.

Owns: the encodings and the translated `WLS`, `DLS` and `LE`, the element mask of the tail, and how
often a body runs. Does not own: the instructions of the body.
-/

namespace Tlib.CortexM

open BitVec Bool List Nat

variable {F : Features} {cpu next : Cpu}

/-! ### Encodings -/

def extract32 (value : Word) (start length : Nat) : Word :=
  value >>> start &&& BitVec.ofNat 32 (2 ^ length - 1)

def lobIsLsTp (insn : Word) : Bool := insn &&& 0x00400000#32 == 0#32

def lobIsLeTp (insn : Word) : Bool := insn &&& 0x00100000#32 == 0x00100000#32

def lobExtractRn (insn : Word) : Word := extract32 insn 16 4

def lobExtractImm (insn : Word) : Word :=
  (extract32 insn 1 10 <<< 2) + (extract32 insn 11 1 <<< 1)

def lobExtractLeInf (insn : Word) : Word := extract32 insn 21 1

def lobExtractSize (insn : Word) : Word := extract32 insn 20 2

def isInsnWls (insn : Word) : Bool :=
  !(lobIsLsTp insn && lobExtractRn insn == 15#32) && insn &&& 0xFF80F001#32 == 0xF000C001#32

def isInsnDls (insn : Word) : Bool :=
  !(lobIsLsTp insn && lobExtractRn insn == 15#32) && insn &&& 0xFF80FFFF#32 == 0xF000E001#32

def isInsnLe (insn : Word) : Bool := insn &&& 0xFFCFF001#32 == 0xF00FC001#32

/-! ### Registers -/

def ltpsizePredicationDisabled : Word := 4#32

/-- `v7m.ltpsize`, which is a field of the `FPSCR`. -/
def Cpu.ltpsize (cpu : Cpu) : Word := cpu.fpscr >>> 16 &&& 7#32

def Cpu.goTo (cpu : Cpu) (pc : Word) : Cpu := { cpu with pc := pc }

/-- `LOB_COUNTER_REG` -/
def Cpu.setCounter (cpu : Cpu) (counter : Word) : Cpu := { cpu with lr := counter }

def Cpu.setLtpsize (cpu : Cpu) (size : Word) : Cpu :=
  { cpu with fpscr := cpu.fpscr &&& 0xfff8ffff#32 ||| (size &&& 7#32) <<< 16 }

/-- `cpu_R` -/
def Cpu.coreReg (cpu : Cpu) (rn : Word) : Word :=
  if low : rn.toNat < 13 then cpu.r ⟨rn.toNat, low⟩
  else if rn = 13#32 then cpu.sp else if rn = 14#32 then cpu.lr else cpu.pc

def Cpu.isFpuContextActive (cpu : Cpu) : Bool :=
  !cpu.needFpLazyStatePreservation && !cpu.needFpContext

theorem ltpsize_setLtpsize (cpu : Cpu) {size : Word} (small : size ≤ 7#32) :
    (cpu.setLtpsize size).ltpsize = size := by
  have low : size &&& 7#32 = size := by
    apply eq_of_toNat_eq
    rw [toNat_and]
    exact (and_two_pow_sub_one_eq_mod _ 3).trans
      (mod_eq_of_lt (lt_succ_of_le (le_def.mp small)))
  have shifted : size <<< 16 >>> 16 = size := by
    apply eq_of_toNat_eq
    have bound := le_def.mp small
    rw [toNat_ushiftRight, toNat_shiftLeft, shiftRight_eq_div_pow,
      Nat.shiftLeft_eq]
    simp only [toNat_ofNat] at bound
    omega
  have cleared : cpu.fpscr >>> 16 &&& 0xfff8ffff#32 >>> 16 &&& 7#32 = 0#32 := by
    rw [BitVec.and_assoc]
    exact BitVec.and_zero
  show (cpu.fpscr &&& 0xfff8ffff#32 ||| (size &&& 7#32) <<< 16) >>> 16 &&& 7#32 = size
  rw [ushiftRight_or_distrib, ushiftRight_and_distrib, low, shifted,
    BitVec.and_or_distrib_right, cleared, low, BitVec.zero_or]

/-! ### The translated instructions -/

/-- Where the code of an instruction goes on. -/
inductive Flow where
  | illegal
  /-- At the next instruction: a conditional branch takes the second exit of its block to it. -/
  | onward (cpu : Cpu)
  /-- `gen_jmp` -/
  | branch (cpu : Cpu)
  | loopExit (cpu : Cpu)

def Outcome.flow : Outcome → (Cpu → Flow) → Flow
  | .done cpu, rest => rest cpu
  | .loopExit cpu, _ => .loopExit cpu

/-- What the translation of an instruction knows; `pc` is past the instruction. -/
structure DisasContext where
  pc : Word
  vfpEnabled : Bool
  condexecMask : BitVec 5

def DisasContext.genExceptionInsn (s : DisasContext) (excp : ExceptionIndex) (cpu : Cpu) : Flow :=
  .loopExit { cpu with pc := s.pc - 4#32, exceptionIndex := excp }

def lobIsLsConstraintUnpredictable (s : DisasContext) (isTp : Bool) (rn : Word) : Bool :=
  rn == 13#32 || (!isTp && rn == 15#32) || s.condexecMask != 0#5

def lobIsLeConstraintUnpredictable (s : DisasContext) : Bool := s.condexecMask != 0#5

def lobGenWlsIr (F : Features) (s : DisasContext) (rn imm size : Word) (cpu : Cpu) : Flow :=
  if cpu.coreReg rn = 0#32 then .branch (cpu.goTo (s.pc + imm))
  else
    let counting := cpu.setCounter (cpu.coreReg rn)
    if size ≠ ltpsizePredicationDisabled then
      (counting.fpLsp F).flow fun cpu => .onward ((cpu.setLtpsize size).goTo s.pc)
    else .onward (counting.goTo s.pc)

def lobGenDlsIr (s : DisasContext) (rn size : Word) (cpu : Cpu) : Flow :=
  let counting := cpu.setCounter (cpu.coreReg rn)
  if size ≠ ltpsizePredicationDisabled then .onward ((counting.setLtpsize size).goTo s.pc)
  else .onward (counting.goTo s.pc)

def lobGenLeIr (s : DisasContext) (isInfLoop : Bool) (imm : Word) (isTp : Bool) (cpu : Cpu) :
    Flow :=
  if isInfLoop then .branch (cpu.goTo (s.pc - imm))
  else if isTp then
    let decr := 1#32 <<< (4#32 - cpu.ltpsize)
    if cpu.lr ≤ decr then .onward ((cpu.setLtpsize ltpsizePredicationDisabled).goTo s.pc)
    else .branch ((cpu.setCounter (cpu.lr - decr)).goTo (s.pc - imm))
  else if cpu.lr ≤ 1#32 then .onward (cpu.goTo s.pc)
  else .branch ((cpu.setCounter (cpu.lr - 1#32)).goTo (s.pc - imm))

def transWls (F : Features) (s : DisasContext) (insn : Word) (cpu : Cpu) : Flow :=
  let isTp := lobIsLsTp insn
  let rn := lobExtractRn insn
  let imm := lobExtractImm insn
  if lobIsLsConstraintUnpredictable s isTp rn then .illegal
  else if isTp then
    if !F.mve then .illegal
    else if !s.vfpEnabled then s.genExceptionInsn .nocp cpu
    else lobGenWlsIr F s rn imm (lobExtractSize insn) cpu
  else lobGenWlsIr F s rn imm ltpsizePredicationDisabled cpu

def transDls (F : Features) (s : DisasContext) (insn : Word) (cpu : Cpu) : Flow :=
  let isTp := lobIsLsTp insn
  let rn := lobExtractRn insn
  if lobIsLsConstraintUnpredictable s isTp rn then .illegal
  else if isTp then
    if !F.mve then .illegal
    else if !s.vfpEnabled then s.genExceptionInsn .nocp cpu
    else (cpu.fpLsp F).flow (lobGenDlsIr s rn (lobExtractSize insn))
  else lobGenDlsIr s rn ltpsizePredicationDisabled cpu

def transLe (F : Features) (s : DisasContext) (insn : Word) (cpu : Cpu) : Flow :=
  let isTp := lobIsLeTp insn
  let gen := lobGenLeIr s (lobExtractLeInf insn != 0#32) (lobExtractImm insn) isTp
  if lobIsLeConstraintUnpredictable s then .illegal
  else if isTp then
    if !F.mve then .illegal
    else if !s.vfpEnabled then s.genExceptionInsn .nocp cpu
    else (cpu.fpLsp F).flow gen
  else if F.mve && s.vfpEnabled && cpu.ltpsize != 4#32 && cpu.isFpuContextActive then
    s.genExceptionInsn .invstate cpu
  else gen cpu

/-! ### The element mask -/

def make64bitMask (shift length : Nat) : BitVec 64 := (allOnes 64 >>> (64 - length)) <<< shift

def Cpu.mveEciMask (cpu : Cpu) : Option (BitVec 16) :=
  if cpu.condexecBits &&& 0xf#8 ≠ 0#8 then some 0xffff#16
  else match (cpu.condexecBits >>> 4).toNat with
    | 0 => some 0xffff#16
    | 1 => some 0xfff0#16
    | 2 => some 0xff00#16
    | 4 | 5 => some 0xf000#16
    | _ => none

/-- Whether `VPT` predication is off: both mask fields of the `VPR` are zero. -/
def Cpu.NoVpt (cpu : Cpu) : Prop := cpu.vpr &&& 0x000f0000#32 = 0 ∧ cpu.vpr &&& 0x00f00000#32 = 0

/-- The predicate of the `VPR` with the lanes that tail predication retains. -/
def tailMask (ltpsize counter : Word) (mask : BitVec 16) : Option (BitVec 16) :=
  if ltpsize < 4#32 ∧ counter ≤ 1#32 <<< (4#32 - ltpsize) then
    let masklen := counter <<< ltpsize
    if masklen.toInt ≤ 16 then
      some (mask &&& if masklen ≠ 0#32 then (make64bitMask 0 masklen.toNat).setWidth 16 else 0#16)
    else none
  else some mask

def Cpu.mveElementMask (cpu : Cpu) : Option (BitVec 16) := do
  let p0 := cpu.vpr.setWidth 16
  let low := if cpu.vpr &&& 0x000f0000#32 = 0 then p0 ||| 0xff#16 else p0
  let mask := if cpu.vpr &&& 0x00f00000#32 = 0 then low ||| 0xff00#16 else low
  let tail ← tailMask cpu.ltpsize cpu.lr mask
  let eci ← cpu.mveEciMask
  return tail &&& eci

/-- The elements of `2 ^ size` bytes below the `count`-th, and no others, are active. -/
def ActivatesPrefix (size count : Nat) (mask : BitVec 16) : Prop :=
  ∀ i : Fin 16, mask.getLsbD i = decide (i.val / 2 ^ size < count)

instance (size count : Nat) (mask : BitVec 16) : Decidable (ActivatesPrefix size count mask) :=
  inferInstanceAs (Decidable (∀ _, _))

theorem tailMask_small : ∀ (size : Fin 4) (count : Fin 17), count.val ≤ 2 ^ (4 - size.val) →
    (tailMask (BitVec.ofNat 32 size) (BitVec.ofNat 32 count) 0xffff#16).any
      (fun mask => decide (ActivatesPrefix size count mask)) = true := by
  decide +kernel

theorem tailMask_prefix (size : Fin 4) (counter : Word) :
    ∃ mask, tailMask (BitVec.ofNat 32 size) counter 0xffff#16 = some mask ∧
      ActivatesPrefix size (min (2 ^ (4 - size.val)) counter.toNat) mask := by
  have amount : (1#32 <<< (4#32 - BitVec.ofNat 32 size.val)).toNat = 2 ^ (4 - size.val) := by
    revert size
    decide
  rcases Nat.lt_or_ge (2 ^ (4 - size.val)) counter.toNat with more | last
  · rw [Nat.min_eq_left more.le]
    refine ⟨0xffff#16, ?_, ?_⟩
    · unfold tailMask
      rw [if_neg]
      rintro ⟨-, few⟩
      rw [le_def, amount] at few
      omega
    · have all : ∀ size : Fin 4,
          ActivatesPrefix size (2 ^ (4 - size.val)) 0xffff#16 := by decide
      exact all size
  · rw [Nat.min_eq_right last]
    have small : counter.toNat < 17 :=
      lt_succ_of_le (last.trans (Nat.pow_le_pow_right (by decide) (sub_le 4 size)))
    have same : BitVec.ofNat 32 counter.toNat = counter := by
      rw [BitVec.ofNat_toNat, setWidth_eq]
    have known := tailMask_small size ⟨counter.toNat, small⟩ last
    obtain ⟨mask, found, holds⟩ := (Option.any_eq_true _ _).mp known
    exact ⟨mask, same ▸ found, of_decide_eq_true holds⟩

theorem mveElementMask_eq (vpt : cpu.NoVpt) (eci : cpu.mveEciMask = some 0xffff#16) :
    cpu.mveElementMask = tailMask cpu.ltpsize cpu.lr 0xffff#16 := by
  have all : ∀ p0 : BitVec 16, p0 ||| 0xff#16 ||| 0xff00#16 = 0xffff#16 := by
    intro p0
    rw [BitVec.or_assoc]
    exact or_allOnes
  have whole : ∀ mask : BitVec 16, mask &&& 0xffff#16 = mask := fun _ => and_allOnes
  unfold Cpu.mveElementMask
  simp only [vpt.1, vpt.2, if_true, all, eci, Option.bind_eq_bind, Option.bind_some, whole,
    Option.pure_def, Option.bind_fun_some]

/-! ### The context that the helpers need -/

/-- `fp_lsp` has nothing left to do. -/
structure Cpu.FpSettled (cpu : Cpu) : Prop where
  active : cpu.isFpuContextActive = true
  owner : cpu.fpccrS = cpu.secure

theorem fpLsp_settled (settled : cpu.FpSettled) : cpu.fpLsp F = .done cpu := by
  obtain ⟨saved, created⟩ := and_eq_true_iff.mp settled.active
  rw [not_eq_true'] at saved created
  have same : { cpu with fpccrS := cpu.secure } = cpu :=
    congrArg (fun bank => { cpu with fpccrS := bank }) settled.owner.symm
  have kept : cpu.fpLspSaveToStack F = .done cpu := by
    unfold Cpu.fpLspSaveToStack
    rw [saved, if_neg Bool.false_ne_true]
  have context : cpu.fpLspCreateContext = cpu := by
    unfold Cpu.fpLspCreateContext
    rw [created, if_neg Bool.false_ne_true, same]
  unfold Cpu.fpLsp
  rw [kept, Outcome.done_bind, context]

theorem save_done (saved : cpu.fpLspSaveToStack F = .done next) :
    (cpu.needFpLazyStatePreservation = false ∧ next = cpu) ∨
      ∃ memory, next = { cpu.clearLspact with memory := memory }.invalidateVfpRegs
        (cpu.fpccrS && cpu.ts) := by
  unfold Cpu.fpLspSaveToStack at saved
  split at saved
  · split at saved
    · cases saved
    · rename_i fine
      cases saved
      unfold Cpu.lazyStores at fine ⊢
      rw [lspStoreAll_done (eq_false_iff.mpr fine)]
      exact .inr ⟨_, rfl⟩
  · rename_i clear
    cases saved
    exact .inl ⟨eq_false_iff.mpr clear, rfl⟩

theorem fpLsp_done (owner : cpu.OwnerPends) (done : cpu.fpLsp F = .done next) :
    next.FpSettled ∧ next.lr = cpu.lr ∧ next.coreReg = cpu.coreReg := by
  unfold Cpu.fpLsp at done
  cases saved : cpu.fpLspSaveToStack F with
  | loopExit stopped =>
    rw [saved] at done
    cases done
  | done middle =>
    rw [saved] at done
    have kept : middle.Quiet ∧ middle.lr = cpu.lr ∧ middle.coreReg = cpu.coreReg := by
      rcases save_done saved with ⟨clear, rfl⟩ | ⟨memory, rfl⟩
      · exact ⟨owner.quiet clear, rfl, rfl⟩
      · unfold Cpu.invalidateVfpRegs
        split <;> exact ⟨fun _ => rfl, rfl, rfl⟩
    have created : next = middle.fpLspCreateContext := by
      cases done
      rfl
    obtain ⟨quiet, lr, regs⟩ := kept
    rw [created, ← lr, ← regs]
    unfold Cpu.fpLspCreateContext
    split
    · refine ⟨⟨?_, rfl⟩, rfl, rfl⟩
      show (!(middle.fpccr middle.secure).lspact && !((middle.fpccr middle.secure).aspen &&
        (!true || (middle.secure && !(middle.sfpa || middle.secure))))) = true
      rw [quiet]
      cases middle.secure <;> simp
    · rename_i active
      refine ⟨⟨?_, rfl⟩, rfl, rfl⟩
      show (!(middle.fpccr middle.secure).lspact && !middle.needFpContext) = true
      rw [quiet, eq_false_iff.mpr active]
      rfl

/-! ### Loops -/

/-- A loop whose two instructions are defined and have the access they need where they stand. -/
structure Lob (F : Features) where
  (first last : DisasContext)
  (start finish : Word)
  /-- From the instruction after `start` up to `finish`. -/
  body : Cpu → Cpu
  starts : isInsnWls start = true ∨ isInsnDls start = true
  ends : isInsnLe finish = true
  counted : lobExtractLeInf finish = 0#32
  paired : lobIsLeTp finish = lobIsLsTp start
  defined : lobIsLsConstraintUnpredictable first (lobIsLsTp start) (lobExtractRn start) = false
  unconditional : lobIsLeConstraintUnpredictable last = false
  access : lobIsLsTp start = true →
    F.mve = true ∧ first.vfpEnabled = true ∧ last.vfpEnabled = true
  keeps : ∀ cpu, (body cpu).lr = cpu.lr ∧ (body cpu).ltpsize = cpu.ltpsize ∧
    (body cpu).vpr = cpu.vpr

def Features.v81m : Features :=
  { v8 := true, mve := true, hasTrustzone := false, v8_of_trustzone := fun _ => rfl }

namespace Lob

variable (l : Lob F)

def isTp : Bool := lobIsLsTp l.start

def isWls : Bool := isInsnWls l.start

def size : Word := if l.isTp then lobExtractSize l.start else ltpsizePredicationDisabled

/-- How many elements a round takes from the counter: one where the tail is not predicated. -/
def lanes : Nat := 2 ^ (4 - l.size.toNat)

/-- The count that the loop is given. -/
def count (cpu : Cpu) : Word := cpu.coreReg (lobExtractRn l.start)

def enter (cpu : Cpu) : Flow :=
  if l.isWls then transWls F l.first l.start cpu else transDls F l.first l.start cpu

/-- The states in which the body is entered, and how the loop is left. -/
def rounds : Nat → Cpu → List Cpu × Flow
  | 0, cpu => ([], .branch cpu)
  | fuel + 1, cpu =>
    match transLe F l.last l.finish (l.body cpu) with
    | .branch next => (cpu :: (rounds fuel next).1, (rounds fuel next).2)
    | out => ([cpu], out)

def run (fuel : Nat) (cpu : Cpu) : List Cpu × Flow :=
  match l.enter cpu with
  | .onward next => l.rounds fuel next
  | out => ([], out)

/-- The elements that are active in the round that `cpu` enters. -/
def active (cpu : Cpu) : Nat := min l.lanes cpu.lr.toNat

/-- How often the body runs: rounded up, and once for nothing unless the loop is a `WLS`. -/
def trips (count : Nat) : Nat :=
  if count = 0 ∧ l.isWls = false then 1 else (count + l.lanes - 1) / l.lanes

/-- The loop is given exactly the rounds and the elements it asks for. -/
structure Exact (cpu : Cpu) (visits : List Cpu) (out : Flow) : Prop where
  length : visits.length = l.trips (l.count cpu).toNat
  entered : ∀ visit ∈ visits.head?, visit.pc = l.first.pc
  repeated : ∀ visit ∈ visits.tail, visit.pc = l.last.pc - lobExtractImm l.finish
  skipped : l.isWls = true → l.count cpu = 0#32 →
    out = .branch (cpu.goTo (l.first.pc + lobExtractImm l.start))
  left : ¬ (l.isWls = true ∧ l.count cpu = 0#32) →
    ∃ after, out = .onward after ∧ after.ltpsize = 4#32 ∧ after.pc = l.last.pc
  elements : (visits.map l.active).sum = (l.count cpu).toNat
  mask : l.isTp = true → ∀ visit ∈ visits, visit.NoVpt → visit.mveEciMask = some 0xffff#16 →
    ∃ mask, visit.mveElementMask = some mask ∧
      ActivatesPrefix l.size.toNat (l.active visit) mask

/-- The state at the start of a round. -/
structure Ready (cpu : Cpu) : Prop where
  size : cpu.ltpsize = l.size
  settled : l.isTp = true → cpu.FpSettled

theorem size_cases :
    ∃ size : Fin 5, l.size = BitVec.ofNat 32 size ∧ (l.isTp = true ↔ size.val < 4) := by
  unfold size
  cases l.isTp with
  | false => exact ⟨4, rfl, by decide⟩
  | true =>
    have low : (lobExtractSize l.start).toNat < 4 := by
      unfold lobExtractSize extract32
      rw [toNat_and]
      exact lt_succ_of_le Nat.and_le_right
    refine ⟨⟨_, low.trans (by decide)⟩, ?_, fun _ => low, fun _ => rfl⟩
    rw [if_pos rfl, BitVec.ofNat_toNat, setWidth_eq]

theorem decr_eq : (1#32 <<< (4#32 - l.size)).toNat = l.lanes := by
  have all : ∀ size : Fin 5, (1#32 <<< (4#32 - BitVec.ofNat 32 size.val)).toNat =
      2 ^ (4 - (BitVec.ofNat 32 size.val).toNat) := by decide
  obtain ⟨size, same, -⟩ := l.size_cases
  unfold lanes
  rw [same]
  exact all size

theorem lanes_pos : 0 < l.lanes := Nat.two_pow_pos _

theorem transLe_eq (ready : l.Ready cpu) :
    transLe F l.last l.finish cpu =
      if cpu.lr.toNat ≤ l.lanes then
        .onward ((if l.isTp then cpu.setLtpsize ltpsizePredicationDisabled else cpu).goTo l.last.pc)
      else .branch ((cpu.setCounter (cpu.lr - 1#32 <<< (4#32 - l.size))).goTo
        (l.last.pc - lobExtractImm l.finish)) := by
  have bound : cpu.lr.toNat ≤ l.lanes ↔ cpu.lr ≤ 1#32 <<< (4#32 - l.size) := by
    rw [le_def, l.decr_eq]
  have counted : (lobExtractLeInf l.finish != 0#32) = false := by
    rw [l.counted]
    rfl
  have size := ready.size
  simp only [bound]
  unfold transLe lobGenLeIr
  rw [l.unconditional, l.paired, counted]
  cases tp : l.isTp with
  | true =>
    have tail : lobIsLsTp l.start = true := tp
    obtain ⟨mve, -, enabled⟩ := l.access tail
    simp only [tail, mve, enabled, fpLsp_settled (ready.settled tp), Outcome.flow, size,
      false_eq_true, Bool.not_true, if_false, if_true]
  | false =>
    have plain : lobIsLsTp l.start = false := tp
    have four : l.size = 4#32 := by
      unfold Lob.size
      rw [tp]
      rfl
    rw [four] at size ⊢
    simp only [plain, size, bne_self_eq_false, Bool.and_false, Bool.false_and, false_eq_true,
      if_false, BitVec.sub_self, shiftLeft_zero']

theorem enter_gen (cpu : Cpu) :
    l.enter cpu =
      if l.isWls then
        lobGenWlsIr F l.first (lobExtractRn l.start) (lobExtractImm l.start) l.size cpu
      else if l.isTp then
        (cpu.fpLsp F).flow (lobGenDlsIr l.first (lobExtractRn l.start) l.size)
      else lobGenDlsIr l.first (lobExtractRn l.start) l.size cpu := by
  have passed := l.defined
  unfold enter transWls transDls size
  cases tp : l.isTp with
  | true =>
    have tail : lobIsLsTp l.start = true := tp
    obtain ⟨mve, enabled, -⟩ := l.access tail
    rw [tail] at passed
    simp only [tail, passed, mve, enabled, false_eq_true, Bool.not_true, if_false, if_true]
  | false =>
    have plain : lobIsLsTp l.start = false := tp
    rw [plain] at passed
    simp only [plain, passed, false_eq_true, if_false]

theorem predicated_iff : l.size ≠ ltpsizePredicationDisabled ↔ l.isTp = true := by
  have all : ∀ size : Fin 5,
      BitVec.ofNat 32 size.val ≠ ltpsizePredicationDisabled ↔ size.val < 4 := by decide
  obtain ⟨size, same, tail⟩ := l.size_cases
  rw [same, tail]
  exact all size

theorem size_small : l.size ≤ 7#32 := by
  have all : ∀ size : Fin 5, BitVec.ofNat 32 size.val ≤ 7#32 := by decide
  obtain ⟨size, same, -⟩ := l.size_cases
  rw [same]
  exact all size

theorem Ready.setCounter (ready : l.Ready cpu) (counter : Word) :
    l.Ready (cpu.setCounter counter) :=
  ⟨ready.size, fun tp => ⟨(ready.settled tp).active, (ready.settled tp).owner⟩⟩

theorem Ready.goTo (ready : l.Ready cpu) (pc : Word) : l.Ready (cpu.goTo pc) :=
  ⟨ready.size, fun tp => ⟨(ready.settled tp).active, (ready.settled tp).owner⟩⟩

theorem ready_tail {saved : Cpu} (settled : saved.FpSettled) : l.Ready (saved.setLtpsize l.size) :=
  ⟨ltpsize_setLtpsize saved l.size_small, fun _ => ⟨settled.active, settled.owner⟩⟩

theorem ready_plain (plain : ¬ l.isTp = true) (fresh : cpu.ltpsize = ltpsizePredicationDisabled) :
    l.Ready cpu := by
  refine ⟨?_, fun tp => absurd tp plain⟩
  unfold size
  rw [if_neg plain]
  exact fresh

/-- The loop is entered in a state that is ready for its first round. -/
def Enters (cpu : Cpu) : Prop :=
  ∃ next, l.enter cpu = .onward next ∧ l.Ready next ∧ next.lr = l.count cpu ∧ next.pc = l.first.pc

theorem enters_wls (wls : l.isWls = true) (some : l.count cpu ≠ 0#32)
    (fresh : cpu.ltpsize = ltpsizePredicationDisabled) (owner : l.isTp = true → cpu.OwnerPends)
    (fine : ∀ out, l.enter cpu ≠ .loopExit out) : l.Enters cpu := by
  have gen := l.enter_gen cpu
  unfold count at some
  rw [if_pos wls, lobGenWlsIr, if_neg some] at gen
  by_cases tp : l.isTp = true
  · rw [if_pos (l.predicated_iff.mpr tp)] at gen
    cases done : (cpu.setCounter (cpu.coreReg (lobExtractRn l.start))).fpLsp F with
    | loopExit out =>
      rw [done] at gen
      exact absurd gen (fine out)
    | done saved =>
      rw [done, Outcome.flow] at gen
      have pends : (cpu.setCounter (cpu.coreReg (lobExtractRn l.start))).OwnerPends := owner tp
      obtain ⟨settled, lr, -⟩ := fpLsp_done pends done
      exact ⟨_, gen, (l.ready_tail settled).goTo l _, lr, rfl⟩
  · rw [if_neg (mt l.predicated_iff.mp tp)] at gen
    exact ⟨_, gen, ((l.ready_plain tp fresh).setCounter l _).goTo l _, rfl, rfl⟩

theorem enters_dls (dls : ¬ l.isWls = true)
    (fresh : cpu.ltpsize = ltpsizePredicationDisabled) (owner : l.isTp = true → cpu.OwnerPends)
    (fine : ∀ out, l.enter cpu ≠ .loopExit out) : l.Enters cpu := by
  have gen := l.enter_gen cpu
  rw [if_neg dls] at gen
  by_cases tp : l.isTp = true
  · rw [if_pos tp] at gen
    cases done : cpu.fpLsp F with
    | loopExit out =>
      rw [done] at gen
      exact absurd gen (fine out)
    | done saved =>
      rw [done, Outcome.flow, lobGenDlsIr, if_pos (l.predicated_iff.mpr tp)] at gen
      obtain ⟨settled, -, regs⟩ := fpLsp_done (owner tp) done
      have ready := (l.ready_tail settled).setCounter l (saved.coreReg (lobExtractRn l.start))
      exact ⟨_, gen, ready.goTo l _, congrFun regs _, rfl⟩
  · rw [if_neg tp, lobGenDlsIr, if_neg (mt l.predicated_iff.mp tp)] at gen
    exact ⟨_, gen, ((l.ready_plain tp fresh).setCounter l _).goTo l _, rfl, rfl⟩

theorem enter_skips (wls : l.isWls = true) (none : l.count cpu = 0#32) :
    l.enter cpu = .branch (cpu.goTo (l.first.pc + lobExtractImm l.start)) := by
  unfold count at none
  rw [l.enter_gen, if_pos wls, lobGenWlsIr, if_pos none]

/-- The body leaves nothing for `fp_lsp` to do where there was nothing. -/
def KeepsContext : Prop := ∀ cpu : Cpu, cpu.FpSettled → (l.body cpu).FpSettled

theorem Ready.body (ready : l.Ready cpu) (settles : l.isTp = true → l.KeepsContext) :
    l.Ready (l.body cpu) :=
  ⟨(l.keeps cpu).2.1.trans ready.size, fun tp => settles tp cpu (ready.settled tp)⟩

/-- The state past a loop whose last round ends in `cpu`. -/
def after (cpu : Cpu) : Cpu :=
  (if l.isTp then cpu.setLtpsize ltpsizePredicationDisabled else cpu).goTo l.last.pc

theorem after_ltpsize (ready : l.Ready cpu) : (l.after cpu).ltpsize = 4#32 := by
  have size := ready.size
  unfold Lob.size at size
  unfold after
  cases tp : l.isTp with
  | true => exact ltpsize_setLtpsize cpu (by decide)
  | false =>
    rw [tp] at size
    exact size

theorem rounds_last (ready : l.Ready (l.body cpu)) (few : cpu.lr.toNat ≤ l.lanes) (fuel : Nat) :
    l.rounds (fuel + 1) cpu = ([cpu], .onward (l.after (l.body cpu))) := by
  have step := l.transLe_eq ready
  rw [(l.keeps cpu).1, if_pos few] at step
  rw [rounds, step]
  rfl

theorem rounds_more (ready : l.Ready (l.body cpu)) (more : l.lanes < cpu.lr.toNat) :
    ∃ next, l.Ready next ∧ next.lr.toNat = cpu.lr.toNat - l.lanes ∧
      next.pc = l.last.pc - lobExtractImm l.finish ∧
      ∀ fuel, l.rounds (fuel + 1) cpu = (cpu :: (l.rounds fuel next).1, (l.rounds fuel next).2) := by
  have step := l.transLe_eq ready
  rw [(l.keeps cpu).1, if_neg (Nat.not_le.mpr more)] at step
  refine ⟨_, (ready.setCounter l (cpu.lr - 1#32 <<< (4#32 - l.size))).goTo l _, ?_, rfl, ?_⟩
  · show (cpu.lr - 1#32 <<< (4#32 - l.size)).toNat = _
    have small : 1#32 <<< (4#32 - l.size) ≤ cpu.lr := by
      rw [le_def, l.decr_eq]
      exact more.le
    rw [toNat_sub_of_le small, l.decr_eq]
  · intro fuel
    rw [rounds, step]

/-- What `count` elements take from the start of a round. -/
structure Counted (cpu : Cpu) (visits : List Cpu) (out : Cpu) : Prop where
  length : visits.length + 1 = max 1 ((cpu.lr.toNat + l.lanes - 1) / l.lanes)
  repeated : ∀ visit ∈ visits, visit.pc = l.last.pc - lobExtractImm l.finish
  ready : ∀ visit ∈ cpu :: visits, l.Ready visit
  elements : ((cpu :: visits).map l.active).sum = cpu.lr.toNat
  left : out.ltpsize = 4#32 ∧ out.pc = l.last.pc

theorem rounds_exact (settles : l.isTp = true → l.KeepsContext) :
    ∀ (counter : Nat) (cpu : Cpu), cpu.lr.toNat = counter → l.Ready cpu →
      ∃ visits out, l.Counted cpu visits out ∧
        ∀ fuel, visits.length + 1 ≤ fuel → l.rounds fuel cpu = (cpu :: visits, .onward out) := by
  intro counter
  induction counter using Nat.strong_induction_on with
  | _ counter ih =>
    intro cpu value ready
    have ends := ready.body l settles
    have positive := l.lanes_pos
    rcases Nat.lt_or_ge l.lanes cpu.lr.toNat with more | few
    · obtain ⟨next, again, less, place, unfolds⟩ := l.rounds_more ends more
      obtain ⟨visits, out, counts, runs⟩ := ih _ (by omega) next rfl again
      refine ⟨next :: visits, out, ⟨?_, ?_, ?_, ?_, counts.left⟩, ?_⟩
      · have shift : cpu.lr.toNat + l.lanes - 1 = next.lr.toNat + l.lanes - 1 + l.lanes := by omega
        have one : 1 ≤ (next.lr.toNat + l.lanes - 1) / l.lanes :=
          (Nat.one_le_div_iff positive).mpr (by omega)
        rw [shift, add_div_right _ positive, length_cons, counts.length]
        omega
      · intro visit visited
        rcases mem_cons.mp visited with rfl | later
        · exact place
        · exact counts.repeated visit later
      · intro visit visited
        rcases mem_cons.mp visited with rfl | later
        · exact ready
        · exact counts.ready visit later
      · rw [map_cons, sum_cons, counts.elements, less, active, Nat.min_eq_left more.le]
        omega
      · intro fuel enough
        obtain ⟨rest, rfl⟩ : ∃ rest, fuel = rest + 1 := ⟨fuel - 1, by omega⟩
        rw [unfolds, runs rest (le_of_succ_le_succ enough)]
    · refine ⟨[], l.after (l.body cpu), ⟨?_, ?_, ?_, ?_, l.after_ltpsize ends, rfl⟩, ?_⟩
      · have last : (cpu.lr.toNat + l.lanes - 1) / l.lanes < 2 :=
          (Nat.div_lt_iff_lt_mul positive).mpr (by omega)
        rw [length_nil]
        omega
      · intro visit visited
        cases visited
      · intro visit visited
        rcases mem_singleton.mp visited with rfl
        exact ready
      · rw [map_singleton, sum_singleton, active, Nat.min_eq_right few]
      · intro fuel enough
        obtain ⟨rest, rfl⟩ : ∃ rest, fuel = rest + 1 := ⟨fuel - 1, by omega⟩
        exact l.rounds_last ends few rest

theorem mask_exact (tp : l.isTp = true) (ready : l.Ready cpu) (vpt : cpu.NoVpt)
    (eci : cpu.mveEciMask = some 0xffff#16) :
    ∃ mask, cpu.mveElementMask = some mask ∧
      ActivatesPrefix l.size.toNat (l.active cpu) mask := by
  obtain ⟨size, same, tail⟩ := l.size_cases
  have small := tail.mp tp
  have value : l.size.toNat = size.val := by
    rw [same, toNat_ofNat, mod_eq_of_lt (by omega)]
  have known := tailMask_prefix ⟨size.val, small⟩ cpu.lr
  rw [mveElementMask_eq vpt eci, ready.size, active, lanes, value, same]
  exact known

theorem trips_entered {count : Nat} (some : ¬ (l.isWls = true ∧ count = 0)) :
    l.trips count = max 1 ((count + l.lanes - 1) / l.lanes) := by
  have positive := l.lanes_pos
  unfold trips
  split
  · rename_i none
    rw [none.1, Nat.zero_add, div_eq_of_lt (sub_lt positive Nat.one_pos)]
    rfl
  · rename_i counts
    have nonzero : count ≠ 0 := fun zero =>
      some ⟨(not_eq_false _).mp fun dls => counts ⟨zero, dls⟩, zero⟩
    have one : 1 ≤ (count + l.lanes - 1) / l.lanes := (Nat.one_le_div_iff positive).mpr (by omega)
    exact (Nat.max_eq_right one).symm

theorem exact_of_enters (some : ¬ (l.isWls = true ∧ l.count cpu = 0#32)) (enters : l.Enters cpu)
    (settles : l.isTp = true → l.KeepsContext) :
    ∃ visits out, l.Exact cpu visits out ∧
      ∀ fuel, l.trips (l.count cpu).toNat ≤ fuel → l.run fuel cpu = (visits, out) := by
  obtain ⟨next, entered, ready, counter, place⟩ := enters
  obtain ⟨visits, out, counts, runs⟩ := l.rounds_exact settles _ next rfl ready
  have nonzero : ¬ (l.isWls = true ∧ (l.count cpu).toNat = 0) := fun both =>
    some ⟨both.1, eq_of_toNat_eq both.2⟩
  have length : (next :: visits).length = l.trips (l.count cpu).toNat := by
    rw [length_cons, counts.length, counter, l.trips_entered nonzero]
  refine ⟨next :: visits, .onward out, ⟨length, ?_, counts.repeated, ?_, ?_, ?_, ?_⟩, ?_⟩
  · intro visit first
    cases first
    exact place
  · exact fun wls none => absurd ⟨wls, none⟩ some
  · exact fun _ => ⟨out, rfl, counts.left⟩
  · exact counts.elements.trans (congrArg BitVec.toNat counter)
  · exact fun tp visit visited => l.mask_exact tp (counts.ready visit visited)
  · intro fuel enough
    rw [← length] at enough
    rw [run, entered]
    exact runs fuel enough

theorem exact_of_skips (wls : l.isWls = true) (none : l.count cpu = 0#32) :
    l.Exact cpu [] (.branch (cpu.goTo (l.first.pc + lobExtractImm l.start))) := by
  have trips : l.trips (l.count cpu).toNat = 0 := by
    rw [none, trips, wls, if_neg fun both => Bool.false_ne_true both.2.symm]
    exact div_eq_of_lt (by have := l.lanes_pos; simp only [toNat_zero]; omega)
  refine ⟨trips.symm, ?_, ?_, fun _ _ => rfl, fun some => absurd ⟨wls, none⟩ some, ?_, ?_⟩
  · intro visit visited
    cases visited
  · intro visit visited
    cases visited
  · rw [none]
    rfl
  · intro _ visit visited
    cases visited

/-- From a state whose tail is not predicated, and with a body that keeps the floating-point
context where the loop needs it, a loop is exact, however large the count. -/
theorem lowOverheadLoop_exact (fresh : cpu.ltpsize = ltpsizePredicationDisabled)
    (owner : l.isTp = true → cpu.OwnerPends) (fine : ∀ out, l.enter cpu ≠ .loopExit out)
    (settles : l.isTp = true → l.KeepsContext) :
    ∃ visits out, l.Exact cpu visits out ∧
      ∀ fuel, l.trips (l.count cpu).toNat ≤ fuel → l.run fuel cpu = (visits, out) := by
  by_cases wls : l.isWls = true
  · by_cases none : l.count cpu = 0#32
    · refine ⟨[], _, l.exact_of_skips wls none, fun fuel _ => ?_⟩
      rw [run, l.enter_skips wls none]
    · exact l.exact_of_enters (fun both => none both.2) (l.enters_wls wls none fresh owner fine)
        settles
  · exact l.exact_of_enters (fun both => wls both.1) (l.enters_dls wls fresh owner fine) settles

/-- `WLS` and `LE`, or `WLSTP.32` and `LETP`, eight bytes apart around `body`. -/
def paced (isTp : Bool) (body : Cpu → Cpu) (keeps : ∀ cpu, (body cpu).lr = cpu.lr ∧
    (body cpu).ltpsize = cpu.ltpsize ∧ (body cpu).vpr = cpu.vpr) : Lob .v81m where
  first := { pc := 0x104#32, vfpEnabled := true, condexecMask := 0#5 }
  last := { pc := 0x10c#32, vfpEnabled := true, condexecMask := 0#5 }
  start := if isTp then 0xf020c005#32 else 0xf040c005#32
  finish := if isTp then 0xf01fc005#32 else 0xf00fc005#32
  body := body
  starts := by cases isTp <;> exact .inl rfl
  ends := by cases isTp <;> rfl
  counted := by cases isTp <;> rfl
  paired := by cases isTp <;> rfl
  defined := by cases isTp <;> rfl
  unconditional := rfl
  access := fun _ => ⟨rfl, rfl, rfl⟩
  keeps := keeps

end Lob

/-- A core whose floating-point context is active and whose other registers hold `count`. -/
def Cpu.looping (ltpsize count : Word) : Cpu :=
  { (Cpu.atRest false) with
    r := fun _ => count, fpca := true, fpscr := ltpsize <<< 16, fpdscr := fun _ => 4#32 <<< 16 }

def idle : Lob .v81m := Lob.paced false id fun _ => ⟨rfl, rfl, rfl⟩

def dropping : Lob .v81m :=
  Lob.paced true (fun cpu => { cpu with fpca := false }) fun _ => ⟨rfl, rfl, rfl⟩

/-- With a predicated tail left over, `LE` raises `INVSTATE` in the first of two rounds; and where
the body gives up the context, `LETP` makes a new one and counts by ones. -/
theorem loop_miscounts :
    (∀ fuel, (idle.run fuel (Cpu.looping 2#32 2#32)).1.length <
      (idle.count (Cpu.looping 2#32 2#32)).toNat) ∧
    dropping.trips (dropping.count (Cpu.looping 4#32 2#32)).toNat = 1 ∧
      (dropping.run 2 (Cpu.looping 4#32 2#32)).1.length = 2 := by
  refine ⟨fun fuel => ?_, by decide, by decide⟩
  cases fuel with
  | zero => decide
  | succ fuel => exact lt_succ_self 1

/-- Six elements by fours take two rounds. -/
theorem lowOverheadLoop_exact_sample :
    ∃ visits out, (Lob.paced true id fun _ => ⟨rfl, rfl, rfl⟩).Exact (Cpu.looping 4#32 6#32)
        visits out ∧
      ∀ fuel, 2 ≤ fuel → (Lob.paced true id fun _ => ⟨rfl, rfl, rfl⟩).run fuel
        (Cpu.looping 4#32 6#32) = (visits, out) := by
  refine (Lob.paced true id fun _ => ⟨rfl, rfl, rfl⟩).lowOverheadLoop_exact rfl ?_ ?_ ?_
  · intro _ bank active
    cases active
  · intro out stops
    cases stops
  · exact fun _ cpu settled => settled

end Tlib.CortexM
