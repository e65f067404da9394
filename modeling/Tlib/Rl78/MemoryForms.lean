import Tlib.Rl78.Ranges

/-!
Contract: the forms in which an instruction names a byte or a word of memory.

Owns: the address of each form, and how its accesses are lowered to addresses that the translator
knows or that are computed.
-/

namespace Tlib.Rl78

open Tlib.Library.Words

variable {σ : Type} {B : Bus σ} {ctx : Context} {m : Machine σ}

def operandPaddr (ctx : Context) : Operand → Option Nat
  | .abs16 addr => if ctx.useEs then none else some (addr ||| 0xF0000)
  | .saddr saddr => some (saddrPaddr saddr)
  | .sfr sfr => some (0xFFF00 + sfr)
  | _ => none

def operandRunAddr (ctx : Context) : Operand → Option (Exec σ Nat)
  | .abs16 addr => if ctx.useEs then some (rl78GenAddr ctx addr) else none
  | op => indAddr ctx op

theorem runAddr_state {op : Operand} {addr : Exec σ Nat} (found : operandRunAddr ctx op = some addr) :
    (addr.run m).2 = m := by
  unfold operandRunAddr at found
  split at found
  next =>
    split at found
    · cases found
      rfl
    · cases found
  next =>
    unfold indAddr at found
    split at found
    all_goals cases found
    all_goals rfl

theorem load_of_paddr {op : Operand} {paddr : Nat} (memop : MemOp)
    (known : operandPaddr ctx op = some paddr) :
    rl78GenLoadOperand B ctx op memop = loadPaddr B paddr memop := by
  unfold operandPaddr at known
  split at known
  next addr =>
    split at known
    · cases known
    next noEs =>
      cases known
      exact if_neg noEs
  iterate 2 next => cases known; rfl
  next => cases known

theorem store_of_paddr {op : Operand} {paddr : Nat} (data : Nat) (memop : MemOp)
    (known : operandPaddr ctx op = some paddr) :
    rl78GenStoreOperand B ctx op data memop = storePaddr B paddr data memop := by
  unfold operandPaddr at known
  split at known
  next addr =>
    split at known
    · cases known
    next noEs =>
      cases known
      exact if_neg noEs
  iterate 2 next => cases known; rfl
  next => cases known

theorem load_of_runAddr {op : Operand} {addr : Exec σ Nat} (memop : MemOp)
    (found : operandRunAddr ctx op = some addr) :
    (rl78GenLoadOperand B ctx op memop).run m = (rl78GenLoad B (addr.run m).1 memop).run m := by
  have state := runAddr_state (m := m) found
  have run : rl78GenLoadOperand B ctx op memop = addr >>= fun a => rl78GenLoad B a memop := by
    unfold operandRunAddr at found
    split at found
    next =>
      split at found
      next es =>
        cases found
        exact if_pos es
      next => cases found
    next =>
      unfold indAddr at found
      split at found
      all_goals cases found
      all_goals rfl
  rw [run]
  show (rl78GenLoad B (addr.run m).1 memop).run (addr.run m).2 = _
  rw [state]

theorem store_of_runAddr {op : Operand} {addr : Exec σ Nat} (data : Nat) (memop : MemOp)
    (found : operandRunAddr ctx op = some addr) :
    (rl78GenStoreOperand B ctx op data memop).run m =
      (rl78GenStore B (addr.run m).1 data memop).run m := by
  have state := runAddr_state (m := m) found
  have run : rl78GenStoreOperand B ctx op data memop =
      addr >>= fun a => rl78GenStore B a data memop := by
    unfold operandRunAddr at found
    split at found
    next =>
      split at found
      next es =>
        cases found
        exact if_pos es
      next => cases found
    next =>
      unfold indAddr at found
      split at found
      all_goals cases found
      all_goals rfl
  rw [run]
  show (rl78GenStore B (addr.run m).1 data memop).run (addr.run m).2 = _
  rw [state]

/-- The operand whose byte holds the bit, if it is in memory. -/
def bitOperand (kind : BitOpKind) (addr : Nat) : Operand :=
  match kind with
  | .saddr => .saddr addr
  | .sfr => .sfr addr
  | .regA => .byteReg .a
  | .abs16 => .abs16 addr
  | .indHl => .indRegImm .hl 0
  | .cy => .cy

def bitStoredData (index : Nat) (bit : BitData) : Nat :=
  (bit.byte &&& ((2 ^ 32 - 1) ^^^ shl32 1 index)) ||| shl32 bit.bit index

theorem rl78GenStoreBit_eq (kind : BitOpKind) (index addr : Nat) (bit : BitData) :
    rl78GenStoreBit B ctx (.bit kind index addr) bit =
      rl78GenStoreOperand B ctx (bitOperand kind addr) (bitStoredData index bit) .mo8 := by
  cases kind <;> rfl

/-- A form of access to memory, with those on bits and the one of `BTCLR`. -/
inductive Form where
  | operand (ctx : Context) (op : Operand) (memop : MemOp)
  | btclr (kind : BitOpKind) (addr : Nat) (useEs : Bool)
deriving DecidableEq, Repr

namespace Form

def memop : Form → MemOp
  | .operand _ _ memop => memop
  | .btclr _ _ _ => .mo8

def load (B : Bus σ) : Form → Exec σ Nat
  | .operand ctx op memop => rl78GenLoadOperand B ctx op memop
  | .btclr kind addr useEs => do
    let m ← get
    readByte B (btclrPaddr m.cpu kind addr useEs)

def store (B : Bus σ) (data : Nat) : Form → Exec σ Unit
  | .operand ctx op memop => rl78GenStoreOperand B ctx op data memop
  | .btclr kind addr useEs => do
    let m ← get
    writeByte B (btclrPaddr m.cpu kind addr useEs) data

def addr (m : Machine σ) : Form → Option Nat
  | .operand ctx op _ =>
    (operandPaddr ctx op).or ((operandRunAddr ctx op).map fun addr => (addr.run m).1)
  | .btclr kind addr useEs =>
    match kind with
    | .regA | .cy => none
    | kind => some (btclrPaddr m.cpu kind addr useEs)

/-- Who knows the address. -/
inductive Lowering where
  | translator | runTime | helper
deriving DecidableEq, Repr

def lowering : Form → Lowering
  | .operand ctx op _ => if (operandPaddr ctx op).isSome then .translator else .runTime
  | .btclr _ _ _ => .helper

end Form

structure Form.Lowered (B : Bus σ) (form : Form) (m : Machine σ) (paddr : Nat) : Prop where
  translator : form.lowering = .translator → form.load B = loadPaddr B paddr form.memop ∧
      ∀ data, form.store B data = storePaddr B paddr data form.memop
  runTime : form.lowering = .runTime →
    (form.load B).run m = (rl78GenLoad B paddr form.memop).run m ∧
      ∀ data, (form.store B data).run m = (rl78GenStore B paddr data form.memop).run m
  helper : form.lowering = .helper → form.memop = .mo8 ∧
    (form.load B).run m = (readByte B paddr).run m ∧
      ∀ data, (form.store B data).run m = (writeByte B paddr data).run m

theorem get_run {α : Type} (rest : Machine σ → Exec σ α) :
    (get >>= rest).run m = (rest m).run m := rfl

theorem operand_lowered {op : Operand} {memop : MemOp} {paddr : Nat}
    (at_paddr : (Form.operand ctx op memop).addr m = some paddr) :
    (Form.operand ctx op memop).Lowered B m paddr := by
  have lowering : (Form.operand ctx op memop).lowering =
      if (operandPaddr ctx op).isSome then .translator else .runTime := rfl
  have either : (operandPaddr ctx op).or ((operandRunAddr ctx op).map fun addr => (addr.run m).1) =
      some paddr := at_paddr
  cases known : operandPaddr ctx op with
  | some paddr' =>
    rw [known] at lowering either
    cases either
    exact
      { translator := fun _ =>
          ⟨load_of_paddr memop known, fun data => store_of_paddr data memop known⟩
        runTime := fun is => by cases lowering.symm.trans is
        helper := fun is => by cases lowering.symm.trans is }
  | none =>
    rw [known] at lowering either
    rw [Option.none_or, Option.map_eq_some_iff] at either
    obtain ⟨addr, isAddr, same⟩ := either
    rw [← same]
    exact
      { translator := fun is => by cases lowering.symm.trans is
        runTime := fun _ =>
          ⟨load_of_runAddr memop isAddr, fun data => store_of_runAddr data memop isAddr⟩
        helper := fun is => by cases lowering.symm.trans is }

theorem Form.lowered {form : Form} {paddr : Nat} (at_paddr : form.addr m = some paddr) :
    form.Lowered B m paddr := by
  cases form with
  | operand ctx op memop => exact operand_lowered at_paddr
  | btclr kind addr useEs =>
    have helper : (Form.btclr kind addr useEs).lowering = .helper := rfl
    refine
      { translator := fun is => by cases helper.symm.trans is
        runTime := fun is => by cases helper.symm.trans is
        helper := fun _ => ?_ }
    cases kind with
    | regA => cases at_paddr
    | cy => cases at_paddr
    | _ =>
      have same := Option.some.inj at_paddr
      rw [← same]
      exact ⟨rfl, get_run _, fun data => get_run _⟩

end Tlib.Rl78
