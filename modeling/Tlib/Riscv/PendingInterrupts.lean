import Mathlib.Data.List.Permutation

/-!
Contract: the pending word `mip`, written by the guest and from other threads.

Owns: the atomic steps of `csrrw`.
-/

namespace Tlib.Riscv.Pending

open BitVec List Option

variable {xlen : Nat}

/-- What decides the masks of the two registers. -/
structure Hart (xlen : Nat) where
  xlen_eq : xlen = 32 ∨ xlen = 64
  (mideleg customInterrupts mipTriggeredCustomInterrupts sipTriggeredCustomInterrupts : BitVec xlen)
  cpuInClicMode : Bool

inductive PendingCsr where
  | mip
  | sip
  deriving DecidableEq, Repr

inductive CsrOp where
  /-- `csrrw` with `x0` as its destination. -/
  | csrrwNoRead
  | csrrw
  | csrrs (rs1Pass : Bool)
  | csrrc (rs1Pass : Bool)
  deriving DecidableEq, Repr

structure Instruction (xlen : Nat) where
  op : CsrOp
  csr : PendingCsr
  src : BitVec xlen
  deriving DecidableEq, Repr

/-! ### The code -/

/-- `IRQ_SS | IRQ_ST | IRQ_SE` -/
def supervisorInts : BitVec xlen := BitVec.ofNat xlen 0x222

/-- `IRQ_US | IRQ_SS | IRQ_UT | IRQ_ST | IRQ_UE | IRQ_SE` -/
def userAndSupervisorInts : BitVec xlen := BitVec.ofNat xlen 0x333

def Hart.mask (H : Hart xlen) : PendingCsr → BitVec xlen
  | .mip => supervisorInts ||| (H.customInterrupts &&& H.mipTriggeredCustomInterrupts)
  | .sip => userAndSupervisorInts ||| (H.customInterrupts &&& H.sipTriggeredCustomInterrupts)

def csrReadHelper (H : Hart xlen) (mip : BitVec xlen) : PendingCsr → BitVec xlen
  | .mip => if H.cpuInClicMode then 0 else mip
  | .sip =>
    if H.cpuInClicMode then 0
    else mip &&& H.mideleg &&& (userAndSupervisorInts ||| H.customInterrupts)

def Instruction.reads (i : Instruction xlen) : Bool := i.op ≠ .csrrwNoRead

/-- What the instruction passes to `csr_write_helper`, if it writes. -/
def Instruction.valToWrite (i : Instruction xlen) (csrBackup : BitVec xlen) :
    Option (BitVec xlen) :=
  match i.op with
  | .csrrwNoRead | .csrrw => some i.src
  | .csrrs rs1Pass => if rs1Pass then some (i.src ||| csrBackup) else none
  | .csrrc rs1Pass => if rs1Pass then some (~~~i.src &&& csrBackup) else none

/-- The locked section of the write of `mip`. -/
def writeMip (H : Hart xlen) (mip valToWrite : BitVec xlen) : BitVec xlen :=
  (mip &&& ~~~H.mask .mip) ||| (valToWrite &&& H.mask .mip)

/-- The locked section of the write of `sip`; `s` has been read before it. -/
def writeSip (H : Hart xlen) (s valToWrite : BitVec xlen) : BitVec xlen :=
  (s &&& ~~~H.mask .sip) ||| ((valToWrite &&& H.mideleg) &&& H.mask .sip)

def bit (position : Nat) : BitVec xlen := BitVec.ofNat xlen 1 <<< (position % xlen)

def tlibSetMipBit (mip : BitVec xlen) (position : Nat) (value : Bool) : BitVec xlen :=
  if value then mip ||| bit position else mip &&& ~~~bit position

/-! ### Interleavings -/

inductive Guest (xlen : Nat) where
  | idle
  | writing (i : Instruction xlen) (csrBackup : BitVec xlen)
  /-- The writer of `sip` has read `mip`, and its locked section is next. -/
  | storing (i : Instruction xlen) (csrBackup s valToWrite : BitVec xlen)
  deriving DecidableEq, Repr

structure State (xlen : Nat) where
  mip : BitVec xlen
  guest : Guest xlen
  deriving DecidableEq, Repr

inductive Label (xlen : Nat) where
  /-- A call of `tlib_set_mip_bit` by another thread. -/
  | external (position : Nat) (value : Bool)
  | start (i : Instruction xlen)
  | advance
  deriving DecidableEq, Repr

inductive Operation (xlen : Nat) where
  | external (position : Nat) (value : Bool)
  | instruction (i : Instruction xlen)
  deriving DecidableEq, Repr

def step (H : Hart xlen) (s : State xlen) : Label xlen →
    Option (State xlen × Option (Operation xlen))
  | .external position value =>
    some ({ s with mip := tlibSetMipBit s.mip position value }, some (.external position value))
  | .start i =>
    match s.guest with
    | .idle =>
      some ({ s with guest := .writing i (if i.reads then csrReadHelper H s.mip i.csr else 0) },
        none)
    | _ => none
  | .advance =>
    match s.guest with
    | .idle => none
    | .writing i csrBackup =>
      match i.valToWrite csrBackup with
      | none => some ({ s with guest := .idle }, some (.instruction i))
      | some valToWrite =>
        if H.cpuInClicMode then some ({ s with guest := .idle }, some (.instruction i))
        else
          match i.csr with
          | .mip =>
            some ({ mip := writeMip H s.mip valToWrite, guest := .idle }, some (.instruction i))
          | .sip => some ({ s with guest := .storing i csrBackup s.mip valToWrite }, none)
    | .storing i _ before valToWrite =>
      some ({ mip := writeSip H before valToWrite, guest := .idle }, some (.instruction i))

/-- Interleavings of allowed steps, in the order in which operations are completed. -/
inductive Run (H : Hart xlen) (Allowed : State xlen → Label xlen → Prop) (start : BitVec xlen) :
    List (Operation xlen) → State xlen → Prop
  | start : Run H Allowed start [] { mip := start, guest := .idle }
  | step {operations : List (Operation xlen)} {s s' : State xlen} {l : Label xlen}
      {done : Option (Operation xlen)} (run : Run H Allowed start operations s)
      (allowed : Allowed s l) (steps : step H s l = some (s', done)) :
      Run H Allowed start (operations ++ done.toList) s'

/-! ### Operations that are executed at once -/

def Instruction.execute (H : Hart xlen) (mip : BitVec xlen) (i : Instruction xlen) : BitVec xlen :=
  match i.valToWrite (if i.reads then csrReadHelper H mip i.csr else 0) with
  | none => mip
  | some valToWrite =>
    if H.cpuInClicMode then mip
    else
      match i.csr with
      | .mip => writeMip H mip valToWrite
      | .sip => writeSip H mip valToWrite

def Operation.execute (H : Hart xlen) (mip : BitVec xlen) : Operation xlen → BitVec xlen
  | .external position value => tlibSetMipBit mip position value
  | .instruction i => i.execute H mip

def sequential (H : Hart xlen) (start : BitVec xlen) (operations : List (Operation xlen)) :
    BitVec xlen :=
  operations.foldl (Operation.execute H) start

def Instruction.reused (H : Hart xlen) (i : Instruction xlen) : BitVec xlen :=
  match i.op with
  | .csrrs true | .csrrc true =>
    match i.csr with
    | .mip => H.mask .mip &&& ~~~i.src
    | .sip => H.mask .sip &&& H.mideleg &&& ~~~i.src
  | _ => 0

/-- What the next locked section takes from earlier reads is still what `mip` holds. -/
def Fresh (H : Hart xlen) (s : State xlen) : Label xlen → Prop
  | .advance =>
    match s.guest with
    | .idle => True
    | .writing i csrBackup =>
      H.cpuInClicMode = false → i.csr = .mip → csrBackup &&& i.reused H = s.mip &&& i.reused H
    | .storing i csrBackup before _ =>
      csrBackup &&& i.reused H = s.mip &&& i.reused H ∧
        before &&& ~~~H.mask .sip = s.mip &&& ~~~H.mask .sip
  | _ => True

/-! ### One section -/

variable {H : Hart xlen} {mip csrBackup valToWrite : BitVec xlen} {i : Instruction xlen}

theorem eq_iff_getLsbD {x y : BitVec xlen} : x = y ↔ ∀ n < xlen, x.getLsbD n = y.getLsbD n :=
  ⟨fun same _ _ => by rw [same], fun bits => eq_of_getLsbD_eq bits⟩

theorem valToWrite_and_iff {other valToWrite' : BitVec xlen}
    (writes : i.valToWrite csrBackup = some valToWrite)
    (writes' : i.valToWrite other = some valToWrite') (kept : BitVec xlen)
    (reused : i.op = .csrrs true ∨ i.op = .csrrc true → i.reused H = kept &&& ~~~i.src) :
    valToWrite &&& kept = valToWrite' &&& kept ↔
      csrBackup &&& i.reused H = other &&& i.reused H := by
  have none_ (zero : i.reused H = 0) (same : valToWrite = valToWrite') :
      valToWrite &&& kept = valToWrite' &&& kept ↔
        csrBackup &&& i.reused H = other &&& i.reused H := by
    rw [zero, same]
    simp
  unfold Instruction.valToWrite at writes writes'
  cases op : i.op with
  | csrrwNoRead =>
    rw [op] at writes writes'
    exact none_ (by simp [Instruction.reused, op])
      (some.inj (writes.symm.trans writes'))
  | csrrw =>
    rw [op] at writes writes'
    exact none_ (by simp [Instruction.reused, op])
      (some.inj (writes.symm.trans writes'))
  | csrrs rs1Pass =>
    cases rs1Pass with
    | false => simp [op] at writes
    | true =>
      simp only [op, if_true, some.injEq] at writes writes'
      rw [reused (Or.inl op), ← writes, ← writes', eq_iff_getLsbD, eq_iff_getLsbD]
      refine forall₂_congr fun n less => ?_
      simp only [getLsbD_and, getLsbD_or, getLsbD_not, less,
        decide_true, Bool.true_and]
      cases kept.getLsbD n <;> cases i.src.getLsbD n <;> simp
  | csrrc rs1Pass =>
    cases rs1Pass with
    | false => simp [op] at writes
    | true =>
      simp only [op, if_true, some.injEq] at writes writes'
      rw [reused (Or.inr op), ← writes, ← writes', eq_iff_getLsbD, eq_iff_getLsbD]
      refine forall₂_congr fun n less => ?_
      simp only [getLsbD_and, getLsbD_not, less, decide_true, Bool.true_and]
      cases kept.getLsbD n <;> cases i.src.getLsbD n <;> simp

theorem writeMip_eq_iff {valToWrite' : BitVec xlen} :
    writeMip H mip valToWrite = writeMip H mip valToWrite' ↔
      valToWrite &&& H.mask .mip = valToWrite' &&& H.mask .mip := by
  unfold writeMip
  rw [eq_iff_getLsbD, eq_iff_getLsbD]
  refine forall₂_congr fun n less => ?_
  simp only [getLsbD_and, getLsbD_or, getLsbD_not, less, decide_true,
    Bool.true_and]
  cases (H.mask .mip).getLsbD n <;> simp

theorem writeSip_eq_iff {before valToWrite' : BitVec xlen} :
    writeSip H before valToWrite = writeSip H mip valToWrite' ↔
      valToWrite &&& (H.mask .sip &&& H.mideleg) = valToWrite' &&& (H.mask .sip &&& H.mideleg) ∧
        before &&& ~~~H.mask .sip = mip &&& ~~~H.mask .sip := by
  unfold writeSip
  rw [eq_iff_getLsbD, eq_iff_getLsbD, eq_iff_getLsbD, ← forall₂_and]
  refine forall₂_congr fun n less => ?_
  simp only [getLsbD_and, getLsbD_or, getLsbD_not, less, decide_true,
    Bool.true_and]
  cases (H.mask .sip).getLsbD n <;> cases H.mideleg.getLsbD n <;> simp

theorem exists_valToWrite (writes : i.valToWrite csrBackup = some valToWrite)
    (other : BitVec xlen) : ∃ valToWrite', i.valToWrite other = some valToWrite' := by
  unfold Instruction.valToWrite at *
  cases op : i.op with
  | csrrwNoRead => exact ⟨_, rfl⟩
  | csrrw => exact ⟨_, rfl⟩
  | csrrs rs1Pass =>
    cases rs1Pass with
    | false => simp [op] at writes
    | true => exact ⟨_, rfl⟩
  | csrrc rs1Pass =>
    cases rs1Pass with
    | false => simp [op] at writes
    | true => exact ⟨_, rfl⟩

theorem reused_of_not_reads (quiet : i.reads = false) : i.reused H = 0 := by
  have op : i.op = .csrrwNoRead := by simpa [Instruction.reads] using quiet
  unfold Instruction.reused
  rw [op]

theorem csrReadHelper_and_reused (direct : H.cpuInClicMode = false) :
    csrReadHelper H mip i.csr &&& i.reused H = mip &&& i.reused H := by
  have shown : i.csr = .sip → csrReadHelper H mip .sip &&& (H.mask .sip &&& H.mideleg &&& ~~~i.src) =
      mip &&& (H.mask .sip &&& H.mideleg &&& ~~~i.src) := by
    intro _
    unfold csrReadHelper Hart.mask
    simp only [direct, Bool.false_eq_true, if_false]
    rw [eq_iff_getLsbD]
    intro n less
    simp only [getLsbD_and, getLsbD_or, getLsbD_not, less, decide_true,
      Bool.true_and]
    cases mip.getLsbD n <;> cases H.mideleg.getLsbD n <;> cases H.customInterrupts.getLsbD n <;>
      simp
  unfold Instruction.reused
  cases csr : i.csr with
  | mip => simp [csrReadHelper, direct]
  | sip =>
    split
    · exact shown csr
    · exact shown csr
    · simp

theorem read_and_reused (direct : H.cpuInClicMode = false) :
    (if i.reads then csrReadHelper H mip i.csr else 0) &&& i.reused H = mip &&& i.reused H := by
  cases quiet : i.reads with
  | true => exact csrReadHelper_and_reused direct
  | false =>
    rw [reused_of_not_reads quiet]
    simp

theorem execute_eq (writes : i.valToWrite (if i.reads then csrReadHelper H mip i.csr else 0) =
      some valToWrite) (direct : H.cpuInClicMode = false) :
    i.execute H mip = match i.csr with
      | .mip => writeMip H mip valToWrite
      | .sip => writeSip H mip valToWrite := by
  unfold Instruction.execute
  rw [writes, direct]
  rfl

theorem execute_of_clic (clic : H.cpuInClicMode = true) : i.execute H mip = mip := by
  unfold Instruction.execute
  rw [clic]
  split <;> rfl

theorem writeMip_execute_iff (writes : i.valToWrite csrBackup = some valToWrite)
    (csr : i.csr = .mip) (direct : H.cpuInClicMode = false) :
    writeMip H mip valToWrite = i.execute H mip ↔
      csrBackup &&& i.reused H = mip &&& i.reused H := by
  obtain ⟨value, writes'⟩ :=
    exists_valToWrite writes (if i.reads then csrReadHelper H mip i.csr else 0)
  have same : i.execute H mip = writeMip H mip value := by
    rw [execute_eq writes' direct, csr]
  rw [same, writeMip_eq_iff, valToWrite_and_iff (H := H) writes writes', read_and_reused direct]
  rintro (op | op)
  · simp [Instruction.reused, op, csr]
  · simp [Instruction.reused, op, csr]

theorem writeSip_execute_iff {before : BitVec xlen}
    (writes : i.valToWrite csrBackup = some valToWrite) (csr : i.csr = .sip)
    (direct : H.cpuInClicMode = false) :
    writeSip H before valToWrite = i.execute H mip ↔ csrBackup &&& i.reused H = mip &&& i.reused H ∧
        before &&& ~~~H.mask .sip = mip &&& ~~~H.mask .sip := by
  obtain ⟨value, writes'⟩ :=
    exists_valToWrite writes (if i.reads then csrReadHelper H mip i.csr else 0)
  have same : i.execute H mip = writeSip H mip value := by
    rw [execute_eq writes' direct, csr]
  rw [same, writeSip_eq_iff, valToWrite_and_iff (H := H) writes writes', read_and_reused direct]
  rintro (op | op)
  · simp [Instruction.reused, op, csr]
  · simp [Instruction.reused, op, csr]

/-! ### One step -/

variable {s s' : State xlen} {l : Label xlen} {done : Option (Operation xlen)}

def Coherent (H : Hart xlen) (s : State xlen) : Prop :=
  ∀ i csrBackup before valToWrite, s.guest = .storing i csrBackup before valToWrite →
    i.csr = .sip ∧ H.cpuInClicMode = false ∧ i.valToWrite csrBackup = some valToWrite

theorem coherent_of_ne (other : ∀ i csrBackup before valToWrite,
    s.guest ≠ .storing i csrBackup before valToWrite) : Coherent H s :=
  fun i csrBackup before valToWrite storing => absurd storing (other i csrBackup before valToWrite)

theorem Coherent.step (coherent : Coherent H s) (steps : step H s l = some (s', done)) :
    Coherent H s' := by
  cases l with
  | external position value =>
    cases steps
    exact coherent
  | start i =>
    simp only [Pending.step] at steps
    split at steps
    · cases steps
      exact coherent_of_ne (by simp)
    · cases steps
  | advance =>
    simp only [Pending.step] at steps
    split at steps
    · cases steps
    next i csrBackup _ =>
      split at steps
      · cases steps
        exact coherent_of_ne (by simp)
      next valToWrite writes =>
        split at steps
        · cases steps
          exact coherent_of_ne (by simp)
        next direct =>
          split at steps
          · cases steps
            exact coherent_of_ne (by simp)
          next csr =>
            cases steps
            intro _ _ _ _ storing
            cases storing
            exact ⟨csr, by simpa using direct, writes⟩
    · cases steps
      exact coherent_of_ne (by simp)

def completed (H : Hart xlen) (mip : BitVec xlen) : Option (Operation xlen) → BitVec xlen
  | none => mip
  | some operation => operation.execute H mip

theorem step_mip_iff (coherent : Coherent H s) (steps : step H s l = some (s', done)) :
    s'.mip = completed H s.mip done ↔ Fresh H s l := by
  cases l with
  | external position value =>
    cases steps
    exact iff_of_true rfl trivial
  | start i =>
    simp only [step] at steps
    split at steps
    · cases steps
      exact iff_of_true rfl trivial
    · cases steps
  | advance =>
    simp only [step] at steps
    unfold Fresh
    split at steps
    · cases steps
    next i csrBackup writing =>
      split at steps
      next quiet =>
        cases steps
        -- an instruction that does not write reuses nothing
        have unused : i.reused H = 0 := by
          cases op : i.op with
          | csrrwNoRead => simp [Instruction.valToWrite, op] at quiet
          | csrrw => simp [Instruction.valToWrite, op] at quiet
          | csrrs rs1Pass =>
            cases rs1Pass with
            | false => simp [Instruction.reused, op]
            | true => simp [Instruction.valToWrite, op] at quiet
          | csrrc rs1Pass =>
            cases rs1Pass with
            | false => simp [Instruction.reused, op]
            | true => simp [Instruction.valToWrite, op] at quiet
        have still : i.execute H s.mip = s.mip := by
          unfold Instruction.execute
          split
          · rfl
          next writes =>
            obtain ⟨_, writes'⟩ := exists_valToWrite writes csrBackup
            rw [quiet] at writes'
            cases writes'
        refine iff_of_true still.symm fun _ _ => ?_
        rw [unused]
        simp
      next valToWrite writes =>
        split at steps
        next clic =>
          cases steps
          refine iff_of_true ?_ fun direct => ?_
          · exact (execute_of_clic clic).symm
          · rw [clic] at direct
            cases direct
        next clic =>
          have direct : H.cpuInClicMode = false := by simpa using clic
          split at steps
          next csr =>
            cases steps
            simp only [direct, csr, forall_const]
            exact writeMip_execute_iff writes csr direct
          next csr =>
            cases steps
            refine iff_of_true rfl fun _ other => ?_
            rw [csr] at other
            cases other
    next i csrBackup before valToWrite storing =>
      cases steps
      obtain ⟨csr, direct, writes⟩ := coherent i csrBackup before valToWrite storing
      exact writeSip_execute_iff writes csr direct

/-! ### Every interleaving -/

variable {start : BitVec xlen} {operations : List (Operation xlen)}
  {Allowed : State xlen → Label xlen → Prop}

theorem Run.coherent (run : Run H Allowed start operations s) : Coherent H s := by
  induction run with
  | start => exact coherent_of_ne (by simp)
  | step _ _ steps coherent => exact coherent.step steps

theorem sequential_concat (operation : Option (Operation xlen)) :
    sequential H start (operations ++ operation.toList) =
      completed H (sequential H start operations) operation := by
  unfold sequential
  rw [foldl_append]
  cases operation <;> rfl

theorem Run.mip_eq (run : Run H (Fresh H) start operations s) :
    s.mip = sequential H start operations := by
  induction run with
  | start => rfl
  | step run fresh steps before =>
    rw [sequential_concat, ← before]
    exact (step_mip_iff run.coherent steps).mpr fresh

def Instruction.writesBit (H : Hart xlen) (i : Instruction xlen) (n : Nat) : Prop :=
  (i.valToWrite 0).isSome = true ∧ H.cpuInClicMode = false ∧
    (H.mask i.csr).getLsbD n = true ∧ (i.reused H).getLsbD n = false

def Operation.writesBit (H : Hart xlen) (n : Nat) : Operation xlen → Prop
  | .external position _ => position % xlen = n
  | .instruction i => i.writesBit H n

theorem getLsbD_bit {position n : Nat} (less : n < xlen) :
    (bit position : BitVec xlen).getLsbD n = decide (position % xlen = n) := by
  have pos : 0 < xlen := by omega
  have inside := Nat.mod_lt position pos
  unfold bit
  rw [getLsbD_shiftLeft, getLsbD_one]
  by_cases same : position % xlen = n
  · subst same
    simp [inside, pos]
  · by_cases below : n < position % xlen
    · simp [below, same]
    · have : n - position % xlen ≠ 0 := by omega
      simp [this, same]

theorem getLsbD_tlibSetMipBit {position n : Nat} {value : Bool} (less : n < xlen) :
    (tlibSetMipBit mip position value).getLsbD n =
      if position % xlen = n then value else mip.getLsbD n := by
  unfold tlibSetMipBit
  cases value with
  | true =>
    rw [if_pos rfl, getLsbD_or, getLsbD_bit less]
    split <;> simp [*]
  | false =>
    rw [if_neg (by decide), getLsbD_and, getLsbD_not, getLsbD_bit less]
    split <;> simp [*]

theorem valToWrite_and_reused (writes : i.valToWrite csrBackup = some valToWrite) :
    valToWrite &&& i.reused H = csrBackup &&& i.reused H := by
  have keeps (kept : BitVec xlen) (value : BitVec xlen)
      (kind : value = i.src ||| csrBackup ∨ value = ~~~i.src &&& csrBackup) :
      value &&& (kept &&& ~~~i.src) = csrBackup &&& (kept &&& ~~~i.src) := by
    rw [eq_iff_getLsbD]
    intro n less
    rcases kind with rfl | rfl
    · simp only [getLsbD_and, getLsbD_or, getLsbD_not]
      cases i.src.getLsbD n <;> simp
    · simp only [getLsbD_and, getLsbD_not]
      cases i.src.getLsbD n <;> simp [less]
  unfold Instruction.valToWrite at writes
  cases op : i.op with
  | csrrwNoRead => simp [Instruction.reused, op]
  | csrrw => simp [Instruction.reused, op]
  | csrrs rs1Pass =>
    cases rs1Pass with
    | false => simp [op] at writes
    | true =>
      simp only [op, if_true, some.injEq] at writes
      simp only [Instruction.reused, op]
      split <;> exact keeps _ _ (Or.inl writes.symm)
  | csrrc rs1Pass =>
    cases rs1Pass with
    | false => simp [op] at writes
    | true =>
      simp only [op, if_true, some.injEq] at writes
      simp only [Instruction.reused, op]
      split <;> exact keeps _ _ (Or.inr writes.symm)

theorem reused_delegated {n : Nat} (csr : i.csr = .sip) (used : (i.reused H).getLsbD n = true) :
    H.mideleg.getLsbD n = true := by
  unfold Instruction.reused at used
  rw [csr] at used
  split at used
  · simp only [getLsbD_and, Bool.and_eq_true] at used
    exact used.1.2
  · simp only [getLsbD_and, Bool.and_eq_true] at used
    exact used.1.2
  · simp at used

theorem getLsbD_execute {n : Nat} (less : n < xlen) (kept : ¬i.writesBit H n) :
    (i.execute H mip).getLsbD n = mip.getLsbD n := by
  by_cases clic : H.cpuInClicMode = true
  · rw [execute_of_clic clic]
  have direct : H.cpuInClicMode = false := by simpa using clic
  cases writes : i.valToWrite (if i.reads then csrReadHelper H mip i.csr else 0) with
  | none =>
    unfold Instruction.execute
    rw [writes]
  | some valToWrite =>
    obtain ⟨_, writes'⟩ := exists_valToWrite writes 0
    rw [execute_eq writes direct]
    by_cases masked : (H.mask i.csr).getLsbD n = true
    · have used : (i.reused H).getLsbD n = true := by
        by_contra unused
        exact kept ⟨by rw [writes']; rfl, direct, masked, by simpa using unused⟩
      have value : valToWrite.getLsbD n = mip.getLsbD n := by
        have same := (valToWrite_and_reused (H := H) writes).trans (read_and_reused direct)
        have bits := congrArg (fun x => x.getLsbD n) same
        simpa [used] using bits
      cases csr : i.csr with
      | mip =>
        rw [csr] at masked
        simp [writeMip, masked, value]
      | sip =>
        rw [csr] at masked
        simp [writeSip, masked, value, reused_delegated csr used]
    · cases csr : i.csr with
      | mip =>
        rw [csr] at masked
        simp only [writeMip, getLsbD_or, getLsbD_and, getLsbD_not, masked]
        simp [less]
      | sip =>
        rw [csr] at masked
        simp only [writeSip, getLsbD_or, getLsbD_and, getLsbD_not, masked]
        simp [less]

theorem Operation.getLsbD_execute {operation : Operation xlen} {n : Nat} (less : n < xlen)
    (kept : ¬operation.writesBit H n) :
    (operation.execute H mip).getLsbD n = mip.getLsbD n := by
  cases operation with
  | external position value =>
    unfold Operation.execute
    have other : ¬position % xlen = n := kept
    rw [getLsbD_tlibSetMipBit less, if_neg other]
  | instruction i => exact Pending.getLsbD_execute less kept

theorem getLsbD_sequential {n : Nat} (less : n < xlen)
    (kept : ∀ operation ∈ operations, ¬operation.writesBit H n) :
    (sequential H start operations).getLsbD n = start.getLsbD n := by
  unfold sequential
  induction operations generalizing start with
  | nil => rfl
  | cons operation rest ih =>
    rw [foldl_cons, ih fun later member => kept later (mem_cons_of_mem _ member),
      Operation.getLsbD_execute less (kept operation mem_cons_self)]

/-- An interleaving in which every locked section is fresh leaves `mip` as the same
operations do one after the other, and the last external value of a bit that is not written
afterwards stays. -/
theorem mip_of_run (run : Run H (Fresh H) start operations s) :
    (∃ order, order.Perm operations ∧ s.mip = sequential H start order) ∧
      ∀ before position value after, operations = before ++ .external position value :: after →
        (∀ operation ∈ after, ¬operation.writesBit H (position % xlen)) →
        s.mip.getLsbD (position % xlen) = value := by
  refine ⟨⟨operations, List.Perm.refl _, run.mip_eq⟩, ?_⟩
  intro before position value after cut kept
  have inside : position % xlen < xlen := by
    refine Nat.mod_lt position ?_
    rcases H.xlen_eq with width | width <;> omega
  rw [run.mip_eq, cut]
  unfold sequential
  rw [foldl_append, foldl_cons]
  change (sequential H _ after).getLsbD _ = value
  rw [getLsbD_sequential inside kept]
  unfold Operation.execute
  rw [getLsbD_tlibSetMipBit inside, if_pos rfl]

theorem xlen_64 : 64 = 32 ∨ 64 = 64 := .inr rfl

def sampleHart : Hart 64 where
  xlen_eq := xlen_64
  mideleg := 0
  customInterrupts := 0
  mipTriggeredCustomInterrupts := 0
  sipTriggeredCustomInterrupts := 0
  cpuInClicMode := false

/-- `csrrs` sets the pending bit of the supervisor's software interrupt. -/
def setSoft : Instruction 64 := { op := .csrrs true, csr := .mip, src := 0x2 }

/-- Another bit is set from outside between the two steps of the `csrrs`. -/
theorem mip_of_run_other_bit : ∃ order, order.Perm [.external 3 true, .instruction setSoft] ∧
      (0x2A : BitVec 64) = sequential sampleHart 0x20 order := by
  have first : Run sampleHart (Fresh sampleHart) 0x20 [] _ :=
    Run.start.step (l := .start setSoft) trivial rfl
  have second := first.step (l := .external 3 true) trivial rfl
  have third := second.step (l := .advance) (fun _ _ => by decide) rfl
  exact (mip_of_run third).1

/-! ### Runs on given labels -/

def replay (H : Hart xlen) : List (Label xlen) → State xlen →
    Option (List (Operation xlen) × State xlen)
  | [], s => some ([], s)
  | l :: rest, s => do
    let (s', done) ← step H s l
    let (operations, last) ← replay H rest s'
    pure (done.toList ++ operations, last)

theorem Run.replay {operations' : List (Operation xlen)} {last : State xlen}
    (run : Run H Allowed start operations s) {labels : List (Label xlen)}
    (allowed : ∀ t, ∀ l ∈ labels, Allowed t l)
    (replayed : Pending.replay H labels s = some (operations', last)) :
    Run H Allowed start (operations ++ operations') last := by
  induction labels generalizing s operations operations' with
  | nil =>
    cases replayed
    simpa using run
  | cons l rest ih =>
    simp only [Pending.replay, bind_eq_bind, bind_eq_some_iff, Prod.exists] at replayed
    obtain ⟨s', done, steps, more, last', later, same⟩ := replayed
    cases same
    rw [← List.append_assoc]
    exact ih (run.step (allowed s l mem_cons_self) steps)
      (fun t l member => allowed t l (mem_cons_of_mem _ member)) later

/-- The timer interrupt is cleared from outside between the two steps of the `csrrs`. -/
theorem cleared_timer_returns :
    ¬∀ (H : Hart 64) (start : BitVec 64) (operations : List (Operation 64)) (s : State 64),
      Run H (fun _ _ => True) start operations s → s.guest = .idle →
        ∃ order, order.Perm operations ∧ s.mip = sequential H start order := by
  intro sequentialEver
  have replayed : replay sampleHart [.start setSoft, .external 5 false, .advance]
      { mip := 0x20, guest := .idle } =
        some ([.external 5 false, .instruction setSoft], { mip := 0x22, guest := .idle }) := by
    decide
  obtain ⟨order, perm, same⟩ :=
    sequentialEver sampleHart 0x20 _ _ (Run.start.replay (fun _ _ _ => trivial) replayed) rfl
  have lost : ∀ order ∈ permutations' [.external 5 false, .instruction setSoft],
      (0x22 : BitVec 64) ≠ sequential sampleHart 0x20 order := by
    decide
  exact lost order (mem_permutations'.mpr perm) same

end Tlib.Riscv.Pending
