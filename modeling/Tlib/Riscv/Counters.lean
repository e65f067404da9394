import Tlib.Library.BinaryFloats
import Tlib.Riscv.TrapState

/-!
Contract: the cycle and instruction counters of a RISC-V hart that runs blocks.

Owns: `get_minstret_current` and `get_mcycles_current`, and when the instructions of a block are
counted. Does not own: exits that count a block wrongly.
-/

namespace Tlib.Riscv.Counting

open Tlib.Library.BinaryFloats BitVec Bool
open Tlib.Riscv.Trap (PrivilegeArchitecture)

variable {xlen : Nat}

/-! ### The code -/

/-- `privilege_architecture >= RISCV_PRIV1_11` -/
def since111 : PrivilegeArchitecture → Bool
  | .priv109 | .priv110 => false
  | _ => true

structure Config (xlen : Nat) where
  xlen_eq : xlen = 32 ∨ xlen = 64
  privilegeArchitecture : PrivilegeArchitecture
  millicyclesPerInstruction : BitVec 32
  /-- What the host makes of a `double` that is too large for an `uint64_t`. -/
  outOfRange : ℚ → BitVec 64

structure Counters where
  mcountinhibit : BitVec 32
  (mcycleSnapshotOffset mcycleSnapshot minstretSnapshotOffset minstretSnapshot : BitVec 64)
  /-- `instructions_count_total_value` -/
  instret : BitVec 64
  deriving DecidableEq, Repr

variable (C : Config xlen)

/-- `1000` is `CPI` 1. -/
def Config.millicycles : Nat := C.millicyclesPerInstruction.toNat

def toDouble (x : ℚ) : ℚ := nearest 53 x

def instructionsToCycles (instructions : BitVec 64) : BitVec 64 :=
  let cyclesPerInstruction := toDouble (C.millicycles / 1000)
  let product := toDouble (toDouble instructions.toNat * cyclesPerInstruction)
  if ⌊product⌋₊ < 2 ^ 64 then BitVec.ofNat 64 ⌊product⌋₊ else C.outOfRange product

def mcountinhibitCy : BitVec 32 := 1
def mcountinhibitIr : BitVec 32 := 4

def inhibits (mcountinhibit bit : BitVec 32) : Bool :=
  since111 C.privilegeArchitecture && mcountinhibit &&& bit ≠ 0

def getMinstretCurrent (s : Counters) : BitVec 64 :=
  if inhibits C s.mcountinhibit mcountinhibitIr then s.minstretSnapshotOffset
  else s.instret - s.minstretSnapshot + s.minstretSnapshotOffset

def getMcyclesCurrent (s : Counters) : BitVec 64 :=
  if inhibits C s.mcountinhibit mcountinhibitCy then s.mcycleSnapshotOffset
  else instructionsToCycles C (s.instret - s.mcycleSnapshot + s.mcycleSnapshotOffset)

inductive Csr where
  | mcountinhibit
  | mcycle
  | mcycleh
  | minstret
  | minstreth
  deriving DecidableEq, Repr

def withLow (current : BitVec 64) (valToWrite : BitVec xlen) : BitVec 64 :=
  (current &&& 0xFFFFFFFF00000000) ||| valToWrite.setWidth 64

def withHigh (current : BitVec 64) (valToWrite : BitVec xlen) : BitVec 64 :=
  (current &&& 0x00000000FFFFFFFF) ||| (valToWrite.setWidth 64 <<< 32)

def csrWriteHelper (s : Counters) (valToWrite : BitVec xlen) : Csr → Counters
  | .mcountinhibit =>
    if since111 C.privilegeArchitecture then
      { mcountinhibit := valToWrite.setWidth 32
        mcycleSnapshotOffset := getMcyclesCurrent C s
        mcycleSnapshot := s.instret
        minstretSnapshotOffset := getMinstretCurrent C s
        minstretSnapshot := s.instret
        instret := s.instret }
    else s
  | .mcycle =>
    { s with
      mcycleSnapshotOffset :=
        if xlen = 32 then withLow (getMcyclesCurrent C s) valToWrite else getMcyclesCurrent C s
      mcycleSnapshot := s.instret }
  | .mcycleh =>
    if xlen = 32 then
      { s with
        mcycleSnapshotOffset := withHigh (getMcyclesCurrent C s) valToWrite
        mcycleSnapshot := s.instret }
    else s
  | .minstret =>
    { s with
      minstretSnapshotOffset :=
        if xlen = 32 then withLow (getMinstretCurrent C s) valToWrite
        else getMinstretCurrent C s
      minstretSnapshot := s.instret }
  | .minstreth =>
    if xlen = 32 then
      { s with
        minstretSnapshotOffset := withHigh (getMinstretCurrent C s) valToWrite
        minstretSnapshot := s.instret }
    else s

/-- The counters; `none` stands for the registers that a hart of 64 bits does not have. -/
def csrReadHelper (s : Counters) : Csr → Option (BitVec xlen)
  | .mcountinhibit => some (s.mcountinhibit.setWidth xlen)
  | .mcycle => some ((getMcyclesCurrent C s).setWidth xlen)
  | .mcycleh => if xlen = 32 then some ((getMcyclesCurrent C s >>> 32).setWidth xlen) else none
  | .minstret => some ((getMinstretCurrent C s).setWidth xlen)
  | .minstreth =>
    if xlen = 32 then some ((getMinstretCurrent C s >>> 32).setWidth xlen) else none

/-- `memset` clears the counters at a reset. -/
def reset : Counters := ⟨0, 0, 0, 0, 0, 0⟩

/-! ### The counters that count -/

structure Counter where
  written : BitVec 64
  counted : Nat
  deriving DecidableEq, Repr

def Counter.value (scale : Nat → Nat) (c : Counter) : BitVec 64 :=
  c.written + BitVec.ofNat 64 (scale c.counted)

def Counter.execute (c : Counter) (inhibited : Bool) : Counter :=
  if inhibited then c else { c with counted := c.counted + 1 }

def Counter.write (scale : Nat → Nat) (c : Counter) (v : BitVec xlen) : Counter :=
  ⟨if xlen = 32 then withLow (c.value scale) v else v.setWidth 64, 0⟩

def Counter.writeHigh (scale : Nat → Nat) (c : Counter) (v : BitVec xlen) : Counter :=
  if xlen = 32 then ⟨withHigh (c.value scale) v, 0⟩ else c

def Config.cycles (instructions : Nat) : Nat := instructions * C.millicycles / 1000

/-- The hart, block by block, beside the counters that it has to show. -/
structure Machine where
  code : Counters
  /-- `instructions_count_declaration` -/
  declaration : BitVec 32
  /-- The instructions of the current block that are executed. -/
  executed : ℕ
  /-- As many of its block were executed when the offset of the counter was stored. -/
  (minstretAt mcycleAt : ℕ)
  (minstret mcycle : Counter)

inductive Action (xlen : Nat) where
  /-- `cpu_sync_instructions_count`, and the declaration in the header of the next block. -/
  | header (icount : BitVec 32)
  | execute
  /-- The block is left, and its executed instructions are counted. -/
  | leave
  /-- By an instruction, which is executed then. -/
  | csrWrite (csr : Csr) (valToWrite : BitVec xlen)

variable (M : Machine)

def Machine.cyInhibited : Bool := inhibits C M.code.mcountinhibit mcountinhibitCy

def Machine.irInhibited : Bool := inhibits C M.code.mcountinhibit mcountinhibitIr

/-- The next header comes at the end of a block. -/
def Machine.Fits : Action xlen → Prop
  | .header _ => M.executed = M.declaration.toNat
  | .execute => M.executed < M.declaration.toNat
  | .leave | .csrWrite _ _ => True

instance Machine.decidableFits : (a : Action xlen) → Decidable (M.Fits a)
  | .header _ => inferInstanceAs (Decidable (_ = _))
  | .execute => inferInstanceAs (Decidable (_ < _))
  | .leave | .csrWrite _ _ => .isTrue trivial

/-- The write takes a snapshot of the counter. -/
def stores (csr low high : Csr) : Bool :=
  csr = low || (csr = high && xlen = 32) ||
    (csr = .mcountinhibit && since111 C.privilegeArchitecture)

def Machine.step : Action xlen → Machine
  | .header icount =>
    { M with
      code := { M.code with instret := M.code.instret + M.declaration.setWidth 64 }
      declaration := icount
      executed := 0 }
  | .execute =>
    { M with
      executed := M.executed + 1
      minstret := M.minstret.execute (M.irInhibited C)
      mcycle := M.mcycle.execute (M.cyInhibited C) }
  | .leave =>
    { M with
      code := { M.code with instret := M.code.instret + BitVec.ofNat 64 M.executed }
      declaration := 0
      executed := 0 }
  | .csrWrite csr v =>
    { M with
      code := csrWriteHelper C M.code v csr
      minstretAt := if stores C csr .minstret .minstreth then M.executed else M.minstretAt
      mcycleAt := if stores C csr .mcycle .mcycleh then M.executed else M.mcycleAt
      minstret :=
        match csr with
        | .minstret => M.minstret.write id v
        | .minstreth => M.minstret.writeHigh id v
        | _ => M.minstret
      mcycle :=
        match csr with
        | .mcycle => M.mcycle.write C.cycles v
        | .mcycleh => M.mcycle.writeHigh C.cycles v
        | _ => M.mcycle }

def Machine.reset : Machine := ⟨Counting.reset, 0, 0, 0, 0, ⟨0, 0⟩, ⟨0, 0⟩⟩

/-- The steps from `M` are all permitted. -/
inductive Runs (permitted : Machine → Action xlen → Prop) (M : Machine) : Machine → Prop where
  | start : Runs permitted M M
  | step {M' : Machine} (before : Runs permitted M M') (a : Action xlen) (fits : M'.Fits a)
      (allowed : permitted M' a) : Runs permitted M (M'.step C a)

/-- The counters, if each instruction were counted when it is executed. -/
def Machine.exact : Counters :=
  { M.code with
    instret := M.code.instret + BitVec.ofNat 64 M.executed
    minstretSnapshot := M.code.minstretSnapshot + BitVec.ofNat 64 M.minstretAt
    mcycleSnapshot := M.code.mcycleSnapshot + BitVec.ofNat 64 M.mcycleAt }

/-- The registers `low` and `high` show the value. -/
def Shows (s : Counters) (low high : Csr) (value : BitVec 64) : Prop :=
  csrReadHelper C s low = some (value.setWidth xlen) ∧
    (xlen = 32 → csrReadHelper C s high = some ((value >>> 32).setWidth xlen))

def Machine.ShowsMinstret : Prop := Shows C M.code .minstret .minstreth (M.minstret.value id)

def Machine.ShowsMcycle : Prop := Shows C M.code .mcycle .mcycleh (M.mcycle.value C.cycles)

/-! ### The condition -/

/-- `instructions_to_cycles` loses nothing to rounding. -/
def Scales (instructions : Nat) : Prop :=
  instructionsToCycles C (BitVec.ofNat 64 instructions) = BitVec.ofNat 64 (C.cycles instructions) ∧
    (C.millicycles = 1000 ∨ instructions < 2 ^ 64)

/-- The counter is stored as cycles and then taken as instructions without harm. -/
def Storable (c : Counter) : Prop :=
  (C.millicycles = 1000 ∨ c.value C.cycles = 0 ∧ c.counted * C.millicycles % 1000 = 0) ∧
    Scales C (c.value C.cycles).toNat

/-- As many instructions of the block are executed as of that in which the counter was stored. -/
def Machine.MinstretOnTime : Prop :=
  M.irInhibited C = true ∨ BitVec.ofNat 64 M.executed = BitVec.ofNat 64 M.minstretAt

def Machine.McycleOnTime : Prop :=
  M.cyInhibited C = true ∨ BitVec.ofNat 64 M.executed = BitVec.ofNat 64 M.mcycleAt

/-- A write to one half keeps the other one as it is with the whole block counted. -/
def KeepsHalf (written : BitVec 64 → BitVec xlen → BitVec 64) (shown exact : BitVec 64)
    (v : BitVec xlen) : Prop :=
  written shown v = written exact v

/-- The steps after which `minstret` is right. -/
def KeepsMinstret : Action xlen → Prop
  | .csrWrite .mcountinhibit _ => since111 C.privilegeArchitecture = true → M.MinstretOnTime C
  | .csrWrite .minstret v =>
    if xlen = 32 then
      KeepsHalf withLow (getMinstretCurrent C M.code) (getMinstretCurrent C M.exact) v
    else v.setWidth 64 = getMinstretCurrent C M.code
  | .csrWrite .minstreth v =>
    xlen = 32 → KeepsHalf withHigh (getMinstretCurrent C M.code) (getMinstretCurrent C M.exact) v
  | _ => True

/-- The steps after which `mcycle` is right. -/
def KeepsMcycle : Action xlen → Prop
  | .execute =>
    M.cyInhibited C = false → Scales C (M.exact.mcycleSnapshotOffset.toNat +
        (M.exact.instret - M.exact.mcycleSnapshot).toNat + 1)
  | .csrWrite .mcountinhibit v =>
    since111 C.privilegeArchitecture = true → M.McycleOnTime C ∧
      (inhibits C (v.setWidth 32) mcountinhibitCy = false → Storable C M.mcycle)
  | .csrWrite .mcycle v =>
    (if xlen = 32 then
        KeepsHalf withLow (getMcyclesCurrent C M.code) (getMcyclesCurrent C M.exact) v
      else v.setWidth 64 = getMcyclesCurrent C M.code) ∧
      (M.cyInhibited C = false → Storable C (M.mcycle.write C.cycles v))
  | .csrWrite .mcycleh v =>
    xlen = 32 → KeepsHalf withHigh (getMcyclesCurrent C M.code) (getMcyclesCurrent C M.exact) v ∧
      (M.cyInhibited C = false → Storable C (M.mcycle.writeHigh C.cycles v))
  | .header _ | .leave | .csrWrite .minstret _ | .csrWrite .minstreth _ => True

variable {C M} {s : Counters} {c : Counter} {v : BitVec xlen}

/-! ### Reads -/

theorem halves_iff (C : Config xlen) (a b : BitVec 64) : (a.setWidth xlen = b.setWidth xlen ∧
        (xlen = 32 → (a >>> 32).setWidth xlen = (b >>> 32).setWidth xlen)) ↔ a = b := by
  constructor
  · intro halves
    apply eq_of_toNat_eq
    rcases C.xlen_eq with rfl | rfl
    · have low := congrArg BitVec.toNat halves.1
      have high := congrArg BitVec.toNat (halves.2 rfl)
      simp only [toNat_setWidth, toNat_ushiftRight, Nat.shiftRight_eq_div_pow]
        at low high
      omega
    · have whole := congrArg BitVec.toNat halves.1
      simp only [toNat_setWidth] at whole
      omega
  · rintro rfl
    exact ⟨rfl, fun _ => rfl⟩

theorem showsMinstret_iff (C : Config xlen) (M : Machine) :
    M.ShowsMinstret C ↔ getMinstretCurrent C M.code = M.minstret.value id := by
  rw [← halves_iff C]
  refine and_congr Option.some_inj (forall_congr' fun narrow => ?_)
  rw [show csrReadHelper C M.code .minstreth = some _ from if_pos narrow, Option.some_inj]

theorem showsMcycle_iff (C : Config xlen) (M : Machine) :
    M.ShowsMcycle C ↔ getMcyclesCurrent C M.code = M.mcycle.value C.cycles := by
  rw [← halves_iff C]
  refine and_congr Option.some_inj (forall_congr' fun narrow => ?_)
  rw [show csrReadHelper C M.code .mcycleh = some _ from if_pos narrow, Option.some_inj]

/-! ### `minstret` -/

theorem value_execute (scale : Nat → Nat) (unit : ∀ n, scale n = n) (c : Counter) :
    (c.execute false).value scale = c.value scale + 1 := by
  unfold Counter.value Counter.execute
  simp only [false_eq_true, if_false, unit]
  rw [ofNat_add, ← BitVec.add_assoc]
  rfl

theorem value_written (scale : Nat → Nat) (zero : scale 0 = 0) (w : BitVec 64) :
    (Counter.mk w 0).value scale = w := by
  unfold Counter.value
  simp [zero]

theorem getMinstretCurrent_stored (current : s.minstretSnapshot = s.instret) :
    getMinstretCurrent C s = s.minstretSnapshotOffset := by
  unfold getMinstretCurrent
  rw [current, BitVec.sub_self, BitVec.zero_add, ite_self]

theorem exact_header {icount : BitVec 32} (fits : M.Fits (.header icount : Action xlen)) :
    (M.step C (.header icount : Action xlen)).exact = M.exact := by
  have whole : M.declaration.setWidth 64 = BitVec.ofNat 64 M.executed := by
    rw [show M.executed = M.declaration.toNat from fits]
    exact eq_of_toNat_eq (by rw [toNat_setWidth, toNat_ofNat])
  unfold Machine.step Machine.exact
  dsimp only
  rw [whole, show BitVec.ofNat 64 0 = 0#64 from rfl, BitVec.add_zero]

theorem exact_leave (C : Config xlen) (M : Machine) :
    (M.step C (.leave : Action xlen)).exact = M.exact := by
  unfold Machine.step Machine.exact
  dsimp only
  rw [show BitVec.ofNat 64 0 = 0#64 from rfl, BitVec.add_zero]

theorem exact_execute (C : Config xlen) (M : Machine) :
    (M.step C (.execute : Action xlen)).exact =
      { M.exact with instret := M.exact.instret + 1 } := by
  unfold Machine.step Machine.exact
  dsimp only
  rw [ofNat_add, ← BitVec.add_assoc]
  rfl

theorem minstretOnTime_iff (C : Config xlen) (M : Machine) :
    getMinstretCurrent C M.code = getMinstretCurrent C M.exact ↔ M.MinstretOnTime C := by
  unfold getMinstretCurrent Machine.MinstretOnTime Machine.irInhibited
  rw [show M.exact.mcountinhibit = M.code.mcountinhibit from rfl]
  by_cases inhibited : inhibits C M.code.mcountinhibit mcountinhibitIr = true
  · rw [if_pos inhibited, if_pos inhibited]
    exact iff_of_true rfl (Or.inl inhibited)
  · rw [if_neg inhibited, if_neg inhibited, or_iff_right inhibited]
    unfold Machine.exact
    constructor
    · intro same
      bv_omega
    · intro same
      rw [← same]
      bv_omega

/-- `minstret` is right wherever a read of it is on time. -/
def MinstretInSync (C : Config xlen) (M : Machine) : Prop :=
  getMinstretCurrent C M.exact = M.minstret.value id

theorem minstret_execute (sync : MinstretInSync C M) :
    MinstretInSync C (M.step C (.execute : Action xlen)) := by
  unfold MinstretInSync at sync ⊢
  rw [exact_execute]
  cases inhibited : M.irInhibited C with
  | true =>
    have still : M.minstret.execute (M.irInhibited C) = M.minstret := if_pos inhibited
    have shown : getMinstretCurrent C { M.exact with instret := M.exact.instret + 1 } =
        getMinstretCurrent C M.exact := (if_pos inhibited).trans (if_pos inhibited).symm
    exact shown.trans (sync.trans (congrArg (Counter.value id) still).symm)
  | false =>
    have off : ¬inhibits C M.exact.mcountinhibit mcountinhibitIr = true :=
      eq_false_iff.mp inhibited
    have was : M.exact.instret - M.exact.minstretSnapshot + M.exact.minstretSnapshotOffset =
        M.minstret.value id := (if_neg off).symm.trans sync
    have shown : getMinstretCurrent C { M.exact with instret := M.exact.instret + 1 } =
        M.exact.instret + 1 - M.exact.minstretSnapshot + M.exact.minstretSnapshotOffset :=
      if_neg off
    have counts := value_execute id (fun _ => rfl) M.minstret
    rw [← inhibited] at counts
    refine shown.trans (Eq.trans ?_ counts.symm)
    bv_omega

theorem minstret_stored (csr : Csr) (v : BitVec xlen)
    (stored : stores C csr .minstret .minstreth = true) :
    getMinstretCurrent C (M.step C (.csrWrite csr v)).exact =
      (csrWriteHelper C M.code v csr).minstretSnapshotOffset := by
  have snapshot : (csrWriteHelper C M.code v csr).minstretSnapshot =
      (csrWriteHelper C M.code v csr).instret := by
    cases csr with
    | mcycle | mcycleh => exact absurd stored (by simp [stores])
    | minstret => rfl
    | mcountinhibit | minstreth => simp_all [stores, csrWriteHelper]
  apply getMinstretCurrent_stored
  unfold Machine.step Machine.exact
  dsimp only
  rw [if_pos stored, snapshot]

theorem minstret_write_iff (sync : MinstretInSync C M) (csr : Csr) (v : BitVec xlen) :
    MinstretInSync C (M.step C (.csrWrite csr v)) ↔ KeepsMinstret C M (.csrWrite csr v) := by
  unfold MinstretInSync at sync ⊢
  cases csr with
  | mcountinhibit =>
    by_cases since : since111 C.privilegeArchitecture = true
    · rw [minstret_stored .mcountinhibit v (by simp [stores, since])]
      have offset : (csrWriteHelper C M.code v .mcountinhibit).minstretSnapshotOffset =
          getMinstretCurrent C M.code := by
        simp [csrWriteHelper, since]
      rw [offset]
      refine (Eq.congr rfl sync.symm).trans ((minstretOnTime_iff C M).trans ?_)
      exact ⟨fun onTime _ => onTime, fun keeps => keeps since⟩
    · refine iff_of_true (Eq.trans ?_ sync) fun yes => absurd yes since
      unfold Machine.step Machine.exact csrWriteHelper
      simp [stores, since]
  | mcycle =>
    refine iff_of_true (Eq.trans ?_ sync) trivial
    rfl
  | mcycleh =>
    refine iff_of_true (Eq.trans ?_ sync) trivial
    unfold Machine.step csrWriteHelper
    dsimp only
    split <;> rfl
  | minstret =>
    rw [minstret_stored .minstret v rfl]
    have written := value_written id rfl
      (if xlen = 32 then withLow (M.minstret.value id) v else v.setWidth 64)
    refine (Eq.congr rfl written).trans ?_
    unfold csrWriteHelper KeepsMinstret KeepsHalf
    dsimp only
    rw [← sync]
    by_cases narrow : xlen = 32
    · simp [narrow]
    · simp [narrow, eq_comm]
  | minstreth =>
    by_cases narrow : xlen = 32
    · rw [minstret_stored .minstreth v (by simp [stores, narrow])]
      have written := value_written id rfl (withHigh (M.minstret.value id) v)
      have counter : M.minstret.writeHigh id v = ⟨withHigh (M.minstret.value id) v, 0⟩ :=
        if_pos narrow
      have offset : (csrWriteHelper C M.code v .minstreth).minstretSnapshotOffset =
          withHigh (getMinstretCurrent C M.code) v := by
        simp [csrWriteHelper, narrow]
      change _ = (M.minstret.writeHigh id v).value id ↔ _
      rw [counter, written, offset, ← sync]
      exact ⟨fun same _ => same, fun keeps => keeps narrow⟩
    · refine iff_of_true ?_ fun yes => absurd yes narrow
      change _ = (M.minstret.writeHigh id v).value id
      have counter : M.minstret.writeHigh id v = M.minstret := if_neg narrow
      rw [counter, ← sync]
      unfold Machine.step Machine.exact csrWriteHelper
      simp [stores, narrow]

/-! ### `mcycle` -/

theorem cycles_unit (unit : C.millicycles = 1000) (n : Nat) : C.cycles n = n := by
  unfold Config.cycles
  rw [unit, Nat.mul_div_cancel n (by decide)]

theorem cycles_zero (C : Config xlen) : C.cycles 0 = 0 := by
  unfold Config.cycles
  simp

theorem cycles_add {before : Nat} (whole : before * C.millicycles % 1000 = 0) (n : Nat) :
    C.cycles (before + n) = C.cycles before + C.cycles n := by
  unfold Config.cycles
  rw [Nat.add_mul]
  omega

/-- The instructions since the snapshot have an exact number of cycles, which is shown. -/
structure Counts (C : Config xlen) (s : Counters) (c : Counter) (k : Nat) : Prop where
  operand : BitVec.ofNat 64 k = s.instret - s.mcycleSnapshot + s.mcycleSnapshotOffset
  scales : Scales C k
  unit : C.millicycles = 1000 → BitVec.ofNat 64 k = c.value C.cycles
  scaled : C.millicycles ≠ 1000 → s.mcycleSnapshotOffset = 0 ∧
    ∃ before, c.counted = before + k ∧ before * C.millicycles % 1000 = 0 ∧
      c.written + BitVec.ofNat 64 (C.cycles before) = 0

def cyInhibits (C : Config xlen) (s : Counters) : Bool := inhibits C s.mcountinhibit mcountinhibitCy

/-- The invariant of the permitted runs, of the counters that count each instruction at once. -/
structure McycleInSync (C : Config xlen) (s : Counters) (c : Counter) : Prop where
  inhibited : cyInhibits C s = true → s.mcycleSnapshotOffset = c.value C.cycles
  counts : cyInhibits C s = false → ∃ k, Counts C s c k

theorem Counts.shows {k : Nat} (counts : Counts C s c k) :
    instructionsToCycles C (s.instret - s.mcycleSnapshot + s.mcycleSnapshotOffset) =
      c.value C.cycles := by
  rw [← counts.operand, counts.scales.1]
  by_cases unit : C.millicycles = 1000
  · rw [cycles_unit unit, counts.unit unit]
  · obtain ⟨_, before, counted, whole, start⟩ := counts.scaled unit
    unfold Counter.value
    rw [counted, cycles_add whole, ofNat_add, ← BitVec.add_assoc, start]
    exact (BitVec.zero_add _).symm

theorem McycleInSync.current (sync : McycleInSync C s c) :
    getMcyclesCurrent C s = c.value C.cycles := by
  unfold getMcyclesCurrent
  split
  next inhibited => exact sync.inhibited inhibited
  next running =>
    obtain ⟨k, counts⟩ := sync.counts (eq_false_iff.mpr running)
    exact counts.shows

/-- The snapshot of `mcycle` has just been taken, and it holds what has to be shown. -/
structure Stored (C : Config xlen) (s : Counters) (c : Counter) : Prop where
  snapshot : s.mcycleSnapshot = s.instret
  offset : s.mcycleSnapshotOffset = c.value C.cycles

theorem Stored.inSync (stored : Stored C s c)
    (storable : cyInhibits C s = false → Storable C c) : McycleInSync C s c := by
  refine ⟨fun _ => stored.offset, fun running => ?_⟩
  obtain ⟨nothing, scales⟩ := storable running
  refine ⟨(c.value C.cycles).toNat, ?_, scales, fun _ => by simp, fun scaled => ?_⟩
  · rw [stored.snapshot, stored.offset, BitVec.sub_self, BitVec.zero_add]
    simp
  · obtain ⟨zero, whole⟩ := nothing.resolve_left scaled
    refine ⟨stored.offset.trans zero, c.counted, ?_, whole, zero⟩
    rw [zero]
    rfl

theorem McycleInSync.execute (sync : McycleInSync C s c)
    (scales : cyInhibits C s = false → Scales C (s.mcycleSnapshotOffset.toNat +
        (s.instret - s.mcycleSnapshot).toNat + 1)) :
    McycleInSync C { s with instret := s.instret + 1 } (c.execute (cyInhibits C s)) := by
  constructor
  · intro inhibited
    have still : c.execute (cyInhibits C s) = c := if_pos inhibited
    exact (sync.inhibited inhibited).trans (congrArg (Counter.value C.cycles) still).symm
  · intro running
    obtain ⟨k, counts⟩ := sync.counts running
    have counted : c.execute (cyInhibits C s) = { c with counted := c.counted + 1 } :=
      if_neg (eq_false_iff.mp running)
    have operand : BitVec.ofNat 64 (s.mcycleSnapshotOffset.toNat +
        (s.instret - s.mcycleSnapshot).toNat + 1) =
          s.instret + 1 - s.mcycleSnapshot + s.mcycleSnapshotOffset := by
      bv_omega
    have next : BitVec.ofNat 64 (s.mcycleSnapshotOffset.toNat +
        (s.instret - s.mcycleSnapshot).toNat + 1) = BitVec.ofNat 64 k + 1 := by
      rw [operand, counts.operand]
      bv_omega
    refine ⟨_, operand, scales running, fun unit => ?_, fun scaled => ?_⟩
    · rw [next, counts.unit unit, counted]
      unfold Counter.value
      rw [cycles_unit unit, cycles_unit unit, ofNat_add, ← BitVec.add_assoc]
      rfl
    · obtain ⟨zero, before, total, whole, start⟩ := counts.scaled scaled
      refine ⟨zero, before, ?_, whole, by rw [counted]; exact start⟩
      have small := counts.scales.2.resolve_left scaled
      have elapsed := counts.operand
      rw [zero] at elapsed
      have count : k = (s.instret - s.mcycleSnapshot).toNat := by
        have sizes := congrArg BitVec.toNat elapsed
        rw [toNat_ofNat, Nat.mod_eq_of_lt small] at sizes
        rw [sizes]
        simp
      rw [counted, zero, ← count]
      simp only [total]
      simp [Nat.add_assoc]

theorem McycleInSync.of_frame {s' : Counters} (sync : McycleInSync C s c)
    (instret : s'.instret = s.instret) (mcountinhibit : s'.mcountinhibit = s.mcountinhibit)
    (snapshot : s'.mcycleSnapshot = s.mcycleSnapshot)
    (offset : s'.mcycleSnapshotOffset = s.mcycleSnapshotOffset) : McycleInSync C s' c := by
  have bit : cyInhibits C s' = cyInhibits C s := by
    unfold cyInhibits
    rw [mcountinhibit]
  constructor
  · intro inhibited
    rw [offset]
    exact sync.inhibited (bit.symm.trans inhibited)
  · intro running
    obtain ⟨k, counts⟩ := sync.counts (bit.symm.trans running)
    refine ⟨k, ?_, counts.scales, counts.unit, ?_⟩
    · rw [instret, snapshot, offset]
      exact counts.operand
    · rw [offset]
      exact counts.scaled

theorem getMcyclesCurrent_onTime (onTime : M.McycleOnTime C) :
    getMcyclesCurrent C M.code = getMcyclesCurrent C M.exact := by
  unfold Machine.McycleOnTime Machine.cyInhibited at onTime
  unfold getMcyclesCurrent
  rw [show M.exact.mcountinhibit = M.code.mcountinhibit from rfl]
  rcases onTime with inhibited | same
  · rw [if_pos inhibited, if_pos inhibited]
    rfl
  · unfold Machine.exact
    dsimp only
    rw [same, show M.code.instret + BitVec.ofNat 64 M.mcycleAt -
        (M.code.mcycleSnapshot + BitVec.ofNat 64 M.mcycleAt) =
          M.code.instret - M.code.mcycleSnapshot by bv_omega]

theorem mcycle_stored (csr : Csr) (v : BitVec xlen)
    (stored : stores C csr .mcycle .mcycleh = true) :
    (M.step C (.csrWrite csr v)).exact.mcycleSnapshot =
      (M.step C (.csrWrite csr v)).exact.instret := by
  have snapshot : (csrWriteHelper C M.code v csr).mcycleSnapshot =
      (csrWriteHelper C M.code v csr).instret := by
    cases csr with
    | minstret | minstreth => exact absurd stored (by simp [stores])
    | mcycle => rfl
    | mcountinhibit | mcycleh => simp_all [stores, csrWriteHelper]
  unfold Machine.step Machine.exact
  dsimp only
  rw [if_pos stored, snapshot]

theorem mcycle_write (sync : McycleInSync C M.exact M.mcycle) (csr : Csr) (v : BitVec xlen)
    (permitted : KeepsMcycle C M (.csrWrite csr v)) :
    McycleInSync C (M.step C (.csrWrite csr v)).exact (M.step C (.csrWrite csr v)).mcycle := by
  cases csr with
  | mcountinhibit =>
    by_cases since : since111 C.privilegeArchitecture = true
    · obtain ⟨onTime, storable⟩ := permitted since
      have code : csrWriteHelper C M.code v .mcountinhibit = _ := if_pos since
      refine Stored.inSync ⟨mcycle_stored .mcountinhibit v (by simp [stores, since]), ?_⟩ ?_
      · change (csrWriteHelper C M.code v .mcountinhibit).mcycleSnapshotOffset = _
        rw [code]
        exact (getMcyclesCurrent_onTime onTime).trans sync.current
      · intro running
        apply storable
        change inhibits C (csrWriteHelper C M.code v .mcountinhibit).mcountinhibit _ = _ at running
        rwa [code] at running
    · apply sync.of_frame <;> simp [Machine.step, Machine.exact, csrWriteHelper, stores, since]
  | mcycle =>
    obtain ⟨kept, storable⟩ := permitted
    refine Stored.inSync ⟨mcycle_stored .mcycle v rfl, ?_⟩ storable
    change (if xlen = 32 then _ else _) = (M.mcycle.write C.cycles v).value C.cycles
    unfold Counter.write
    rw [value_written C.cycles (cycles_zero C), ← sync.current]
    split at kept
    next narrow => rw [if_pos narrow, if_pos narrow, kept]
    next wide => rw [if_neg wide, if_neg wide, kept]
  | mcycleh =>
    by_cases narrow : xlen = 32
    · obtain ⟨kept, storable⟩ := permitted narrow
      have code : csrWriteHelper C M.code v .mcycleh = _ := if_pos narrow
      have counter : M.mcycle.writeHigh C.cycles v = _ := if_pos narrow
      refine Stored.inSync ⟨mcycle_stored .mcycleh v (by simp [stores, narrow]), ?_⟩ ?_
      · change (csrWriteHelper C M.code v .mcycleh).mcycleSnapshotOffset =
          (M.mcycle.writeHigh C.cycles v).value C.cycles
        rw [code, counter, value_written C.cycles (cycles_zero C), ← sync.current]
        exact kept
      · intro running
        apply storable
        change inhibits C (csrWriteHelper C M.code v .mcycleh).mcountinhibit _ = _ at running
        rwa [code] at running
    · have counter : M.mcycle.writeHigh C.cycles v = M.mcycle := if_neg narrow
      change McycleInSync C _ (M.mcycle.writeHigh C.cycles v)
      rw [counter]
      apply sync.of_frame <;> simp [Machine.step, Machine.exact, csrWriteHelper, stores, narrow]
  | minstret => exact sync.of_frame rfl rfl rfl rfl
  | minstreth =>
    apply sync.of_frame <;> simp [Machine.step, Machine.exact, csrWriteHelper, stores] <;> split <;> rfl

theorem mcycle_step (sync : McycleInSync C M.exact M.mcycle) (a : Action xlen) (fits : M.Fits a)
    (permitted : KeepsMcycle C M a) : McycleInSync C (M.step C a).exact (M.step C a).mcycle := by
  cases a with
  | header icount =>
    rw [exact_header fits]
    exact sync
  | leave =>
    rw [exact_leave C M]
    exact sync
  | execute =>
    rw [exact_execute]
    exact sync.execute permitted
  | csrWrite csr v => exact mcycle_write sync csr v permitted

/-! ### Runs -/

def KeepsCounters (C : Config xlen) (M : Machine) (a : Action xlen) : Prop :=
  KeepsMinstret C M a ∧ KeepsMcycle C M a

theorem minstret_step_iff (sync : MinstretInSync C M) (a : Action xlen) (fits : M.Fits a) :
    MinstretInSync C (M.step C a) ↔ KeepsMinstret C M a := by
  cases a with
  | header icount =>
    refine iff_of_true (Eq.trans ?_ sync) trivial
    rw [exact_header fits]
  | leave =>
    refine iff_of_true (Eq.trans ?_ sync) trivial
    rw [exact_leave C M]
  | execute => exact iff_of_true (minstret_execute sync) trivial
  | csrWrite csr v => exact minstret_write_iff sync csr v

theorem scales_zero (C : Config xlen) : Scales C 0 := by
  have zero : toDouble 0 = 0 := nearest_zero
  refine ⟨?_, Or.inr (by decide)⟩
  unfold instructionsToCycles
  simp [zero, cycles_zero]

theorem reset_inSync (C : Config xlen) :
    McycleInSync C Machine.reset.exact Machine.reset.mcycle := by
  have shown : (0 : BitVec 64) = Machine.reset.mcycle.value C.cycles :=
    (value_written C.cycles (cycles_zero C) 0).symm
  refine ⟨fun _ => shown, fun _ => ⟨0, rfl, scales_zero C, fun _ => shown, fun _ => ?_⟩⟩
  refine ⟨rfl, 0, rfl, by simp, ?_⟩
  rw [cycles_zero]
  rfl

theorem Runs.inSync (run : Runs C (KeepsCounters C) Machine.reset M) :
    MinstretInSync C M ∧ McycleInSync C M.exact M.mcycle := by
  induction run with
  | start => exact ⟨getMinstretCurrent_stored rfl, reset_inSync C⟩
  | step before a fits allowed ih =>
    obtain ⟨minstret, mcycle⟩ := ih
    exact ⟨(minstret_step_iff minstret a fits).mpr allowed.1, mcycle_step mcycle a fits allowed.2⟩

theorem MinstretInSync.shows_iff (sync : MinstretInSync C M) :
    M.ShowsMinstret C ↔ M.MinstretOnTime C := by
  rw [showsMinstret_iff, ← minstretOnTime_iff, show getMinstretCurrent C M.exact = _ from sync]

/-- In every run from a reset whose steps keep the counters, a read of `minstret` shows the counter
exactly if it is on time, and one of `mcycle` if it is; the condition is exact for `minstret`. -/
theorem counters_of_run (C : Config xlen) {M : Machine}
    (run : Runs C (KeepsCounters C) Machine.reset M) :
    (M.ShowsMinstret C ↔ M.MinstretOnTime C) ∧ (M.McycleOnTime C → M.ShowsMcycle C) ∧
      ∀ a : Action xlen, M.Fits a → (M.step C a).MinstretOnTime C →
        ((M.step C a).ShowsMinstret C ↔ KeepsMinstret C M a) := by
  obtain ⟨minstret, mcycle⟩ := run.inSync
  refine ⟨minstret.shows_iff, fun onTime => ?_, fun a fits onTime => ?_⟩
  · exact (showsMcycle_iff C M).mpr ((getMcyclesCurrent_onTime onTime).trans mcycle.current)
  · rw [← minstret_step_iff minstret a fits, showsMinstret_iff, (minstretOnTime_iff C _).mpr onTime]
    rfl

/-! ### What scales -/

theorem scales_of_small (C : Config xlen) {cycles instructions : Nat}
    (whole : C.millicycles = 1000 * cycles) (operand : instructions < 2 ^ 53)
    (product : instructions * cycles < 2 ^ 53) : Scales C instructions := by
  have total : C.cycles instructions = instructions * cycles := by
    unfold Config.cycles
    rw [whole, Nat.mul_left_comm, Nat.mul_div_cancel_left _ (by decide)]
  have few : cycles < 2 ^ 53 := by
    have bound : C.millicycles < 2 ^ 32 := C.millicyclesPerInstruction.isLt
    omega
  have quotient : (C.millicycles : ℚ) / 1000 = cycles := by
    rw [whole]
    push_cast
    exact mul_div_cancel_left₀ _ (by norm_num)
  have value : (BitVec.ofNat 64 instructions).toNat = instructions := by
    rw [toNat_ofNat, Nat.mod_eq_of_lt (by omega)]
  refine ⟨?_, Or.inr (by omega)⟩
  unfold instructionsToCycles toDouble
  simp only
  rw [quotient, value, nearest_natCast operand, nearest_natCast few, ← Nat.cast_mul,
    nearest_natCast product, Nat.floor_natCast, if_pos (by omega), total]

/-- A hart on which an instruction takes one cycle. -/
def unitConfig (xlen : Nat) (xlen_eq : xlen = 32 ∨ xlen = 64) : Config xlen where
  xlen_eq := xlen_eq
  privilegeArchitecture := .priv112
  millicyclesPerInstruction := 1000
  outOfRange := fun _ => 0

def unit32 : Config 32 := unitConfig 32 (.inl rfl)

/-- `mcycle` is written while it stands still, and is then let run. -/
def pausedWrite : Machine :=
  [.header 1, .csrWrite .mcountinhibit 5, .execute, .header 2, .execute, .csrWrite .mcycle 7,
    .execute, .header 1, .csrWrite .mcountinhibit 0, .execute, .header 1].foldl
      (Machine.step unit32) Machine.reset

theorem pausedWrite_shows : pausedWrite.ShowsMcycle unit32 ∧
    getMcyclesCurrent unit32 pausedWrite.exact = 8 := by
  have small (k : Nat) (less : k < 2 ^ 53) : Scales unit32 k :=
    @scales_of_small _ unit32 1 _ rfl less (by omega)
  have stopped : Runs unit32 (KeepsCounters unit32) Machine.reset _ :=
    ((Runs.start.step (.header 1) (by decide) ⟨trivial, trivial⟩).step
      (.csrWrite .mcountinhibit 5) trivial
      ⟨fun _ => .inr rfl, fun _ => ⟨.inr rfl, fun running => absurd running (by decide)⟩⟩).step
        .execute (by decide) ⟨trivial, fun running => absurd running (by decide)⟩
  have written := (((stopped.step (.header 2) (by decide) ⟨trivial, trivial⟩).step .execute (by decide)
    ⟨trivial, fun running => absurd running (by decide)⟩).step (.csrWrite .mcycle 7) trivial
      ⟨trivial, rfl, fun running => absurd running (by decide)⟩).step .execute (by decide)
        ⟨trivial, fun running => absurd running (by decide)⟩
  have running := ((written.step (.header 1) (by decide) ⟨trivial, trivial⟩).step
    (.csrWrite .mcountinhibit 0) trivial ⟨fun _ => .inl (by decide), fun _ => ⟨.inl (by decide),
      fun _ => ⟨.inl rfl, small 7 (by decide)⟩⟩⟩).step .execute (by decide)
        ⟨trivial, fun _ => small _ (by decide +kernel)⟩
  have shows := (counters_of_run unit32
    (running.step (.header 1) (by decide) ⟨trivial, trivial⟩)).2.1 (.inr rfl)
  refine ⟨shows, ?_⟩
  have value := (showsMcycle_iff unit32 pausedWrite).mp shows
  have exact_ : getMcyclesCurrent unit32 pausedWrite.code =
      getMcyclesCurrent unit32 pausedWrite.exact :=
    getMcyclesCurrent_onTime (.inr rfl)
  rw [← exact_, value]
  decide

/-- On a hart of 64 bits a write of `minstret` does not store what is written. On one of 32 bits
the instructions in front of the write in its block are counted behind it. -/
theorem minstret_ignores_write :
    (¬∀ (C : Config 64) (M : Machine), Runs C (fun _ _ => True) Machine.reset M →
      M.ShowsMinstret C ∧ M.ShowsMcycle C) ∧
    ¬∀ (C : Config 32) (M : Machine), Runs C (fun _ _ => True) Machine.reset M →
      M.executed = 0 → M.ShowsMinstret C := by
  constructor
  · intro always
    have shows := (always (unitConfig 64 (.inr rfl)) _
      ((Runs.start.step (.header 1) (by decide) trivial).step (.csrWrite .minstret 5) trivial
        trivial)).1
    exact absurd ((showsMinstret_iff _ _).mp shows) (by decide)
  · intro always
    have shows := always unit32 _ (((((Runs.start.step (.header 3) (by decide) trivial).step .execute
      (by decide) trivial).step .execute (by decide) trivial).step (.csrWrite .minstret 5) trivial
        trivial).step .execute (by decide) trivial |>.step (.header 1) (by decide) trivial) rfl
    exact absurd ((showsMinstret_iff _ _).mp shows) (by decide)

end Tlib.Riscv.Counting
