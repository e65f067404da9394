import Tlib.Rl78.MappedRegisters
import Tlib.Rl78.RegisterWidths

/-!
Contract: the addresses of operands against the segments they are to stay in.

Owns: the values of the registers as generated code and the helpers read them.
-/

namespace Tlib.Rl78

open Tlib.Library.Words Nat Option

variable {σ : Type} {B : Bus σ} {ctx : Context} {m : Machine σ}

def Cpu.byteValue (cpu : Cpu) (reg : ByteRegister) : Nat :=
  cpu.regs (helperReg cpu.psw reg.index) % 2 ^ 8

def Cpu.wordValue (cpu : Cpu) (reg : WordRegister) : Nat :=
  cpu.regs (helperReg cpu.psw (reg.index * 2)) % 2 ^ 8 +
    2 ^ 8 * (cpu.regs (helperReg cpu.psw (reg.index * 2 + 1)) % 2 ^ 8)

theorem Cpu.byteValue_lt (cpu : Cpu) (reg : ByteRegister) : cpu.byteValue reg < 2 ^ 8 :=
  mod_lt _ (by decide)

theorem Cpu.wordValue_lt (cpu : Cpu) (reg : WordRegister) : cpu.wordValue reg < 2 ^ 16 := by
  unfold Cpu.wordValue
  omega

theorem regPtr_run (range : InRange m.cpu) {reg : Nat} (less : reg < 8) :
    (regPtr reg).run m = (helperReg m.cpu.psw reg, m) := by
  have rbs := range.psw.rbs_le
  have bank : m.cpu.psw.rbs &&& 3 = m.cpu.psw.rbs % 2 ^ 2 := and_two_pow_sub_one_eq_mod _ 2
  have same : add32 (shl32 m.cpu.psw.rbs 5) (4 * reg) / 4 = helperReg m.cpu.psw reg := by
    unfold add32 shl32 helperReg
    rw [bank]
    omega
  exact congrArg (fun place => (place, m)) same

theorem ByteRegister.index_lt (reg : ByteRegister) : reg.index < 8 := by
  cases reg <;> decide

theorem WordRegister.index_lt (reg : WordRegister) : reg.index * 2 + 1 < 8 := by
  cases reg <;> decide

theorem loadByteReg_run (range : InRange m.cpu) (reg : ByteRegister) :
    (loadByteReg reg).run m = (m.cpu.byteValue reg, m) := by
  have place := congrArg Prod.fst (regPtr_run range reg.index_lt)
  show (m.cpu.regs ((regPtr reg.index).run m).1 &&& 0xFF, m) = _
  rw [place, and_low_byte]
  rfl

theorem loadWordReg_run (range : InRange m.cpu) (reg : WordRegister) :
    (loadWordReg reg).run m = (m.cpu.wordValue reg, m) := by
  have less := reg.index_lt
  have place := congrArg Prod.fst (@regPtr_run σ m range (reg.index * 2) (by omega))
  have next : helperReg m.cpu.psw (reg.index * 2) + 1 = helperReg m.cpu.psw (reg.index * 2 + 1) := rfl
  have high := range.regs_le (helperReg m.cpu.psw (reg.index * 2 + 1))
  show ((m.cpu.regs ((regPtr (reg.index * 2)).run m).1 &&& 0xFF) |||
    shl32 (m.cpu.regs (((regPtr (reg.index * 2)).run m).1 + 1)) 8, m) = _
  rw [place, and_low_byte, next]
  have shifted : shl32 (m.cpu.regs (helperReg m.cpu.psw (reg.index * 2 + 1))) 8 =
      2 ^ 8 * (m.cpu.regs (helperReg m.cpu.psw (reg.index * 2 + 1)) % 2 ^ 8) := by
    unfold shl32
    omega
  have low := mod_lt (m.cpu.regs (helperReg m.cpu.psw (reg.index * 2))) (by decide : 0 < 256)
  rw [shifted, Nat.or_comm, bytes_or _ low, Nat.add_comm]
  rfl

def segment (cpu : Cpu) (useEs : Bool) : Nat := if useEs then cpu.es else 0xF

def inSegment (segment offset : Nat) : Nat := shl32 segment 16 ||| offset % 2 ^ 16

theorem segment_shl32 (cpu : Cpu) (useEs : Bool) :
    (if useEs then shl32 cpu.es 16 else 0xF0000) = shl32 (segment cpu useEs) 16 := by
  unfold segment
  split <;> rfl

theorem one_or_eq_iff (a : Nat) : 1 ||| a = a ↔ a % 2 = 1 := by
  have low : (1 ||| a) % 2 = 1 % 2 ||| a % 2 := or_mod_two_pow (n := 1)
  refine ⟨fun same => ?_, fun odd => ?_⟩
  · rw [same] at low
    rcases mod_two_eq_zero_or_one a with even | odd
    · rw [even] at low
      exact absurd low (by decide)
    · exact odd
  · have half : (1 ||| a) / 2 = a / 2 := by
      rw [or_div_two]
      exact zero_or _
    rw [odd] at low
    have one : (1 ||| a) % 2 = 1 := low
    omega

theorem or_segment_eq_iff {offset : Nat} (segment : Nat) (less : offset < 2 ^ 17) :
    offset ||| shl32 segment 16 = inSegment segment offset ↔ offset < 2 ^ 16 ∨ segment % 2 = 1 := by
  have shifted : shl32 segment 16 = 2 ^ 16 * (segment % 2 ^ 16) := by
    unfold shl32
    omega
  have wrapped := mod_lt offset (by decide : 0 < 2 ^ 16)
  unfold inSegment
  rcases Nat.lt_or_ge offset (2 ^ 16) with small | carry
  · refine iff_of_true ?_ (.inl small)
    rw [mod_eq_of_lt small, Nat.or_comm]
  · have split' : offset = 2 ^ 16 * 1 + offset % 2 ^ 16 := by omega
    have sum : offset ||| 2 ^ 16 * (segment % 2 ^ 16) =
        2 ^ 16 * (1 ||| segment % 2 ^ 16) + offset % 2 ^ 16 := by
      have high : 2 ^ 16 * (1 ||| segment % 2 ^ 16) = 2 ^ 16 * 1 ||| 2 ^ 16 * (segment % 2 ^ 16) := by
        rw [Nat.mul_comm, Nat.mul_comm _ 1, Nat.mul_comm _ (segment % 2 ^ 16), ← shiftLeft_eq,
          ← shiftLeft_eq, ← shiftLeft_eq, shiftLeft_or_distrib]
      rw [two_pow_add_eq_or_of_lt wrapped, high]
      nth_rewrite 1 [split']
      rw [two_pow_add_eq_or_of_lt wrapped, Nat.or_assoc, Nat.or_assoc,
        Nat.or_comm (offset % 2 ^ 16)]
    rw [shifted, sum, ← two_pow_add_eq_or_of_lt wrapped]
    have odd := one_or_eq_iff (segment % 2 ^ 16)
    omega

theorem rl78GenAddr_inSegment_iff {offset : Nat} (less : offset < 2 ^ 17) :
    ((rl78GenAddr ctx offset).run m).1 = inSegment (segment m.cpu ctx.useEs) offset ↔
      offset < 2 ^ 16 ∨ segment m.cpu ctx.useEs % 2 = 1 := by
  rw [rl78GenAddr_run]
  rw [segment_shl32]
  exact or_segment_eq_iff _ less

def Operand.indexed (cpu : Cpu) : Operand → Option (Nat × Nat)
  | .indRegReg base idx => some (cpu.wordValue base, cpu.byteValue idx)
  | .indRegImm base imm => some (cpu.wordValue base, imm)
  | .indSpImm imm => some (cpu.sp &&& 0xFFFE, imm)
  | .indBaseByte idx base => some (base, cpu.byteValue idx)
  | .indBaseWord idx base => some (base, cpu.wordValue idx)
  | _ => Option.none

def Operand.InBytes (op : Operand) : Prop := ∀ byte ∈ op.encoded, byte < 2 ^ 8

theorem Operand.indexed_lt {cpu : Cpu} {op : Operand} {base offset : Nat} (bytes : op.InBytes)
    (indexed : op.indexed cpu = some (base, offset)) : base < 2 ^ 16 ∧ offset < 2 ^ 16 := by
  have number : op.offset < 2 ^ 16 := offset_lt bytes
  unfold Operand.indexed at indexed
  split at indexed
  next base' idx =>
    cases indexed
    have byte := cpu.byteValue_lt idx
    exact ⟨cpu.wordValue_lt base', by omega⟩
  next base' imm =>
    cases indexed
    exact ⟨cpu.wordValue_lt base', number⟩
  next imm =>
    cases indexed
    exact ⟨(mask_sp cpu.sp).2, number⟩
  next idx base' =>
    cases indexed
    have byte := cpu.byteValue_lt idx
    exact ⟨number, by omega⟩
  next idx base' =>
    cases indexed
    exact ⟨number, cpu.wordValue_lt idx⟩
  next => cases indexed

theorem indAddr_indexed (ctx : Context) (range : InRange m.cpu) {op : Operand} {base offset : Nat}
    (bytes : op.InBytes) (indexed : op.indexed m.cpu = some (base, offset)) :
    ∃ addr, indAddr ctx op = some addr ∧ addr.run m = (rl78GenAddr ctx (base + offset)).run m := by
  have less := Operand.indexed_lt bytes indexed
  unfold Operand.indexed at indexed
  split at indexed
  next base' idx =>
    cases indexed
    refine ⟨_, rfl, ?_⟩
    unfold indRegReg
    rw [StateT.run_bind, loadWordReg_run range]
    show ((loadByteReg idx >>= fun idx => rl78GenAddr ctx (add32 (m.cpu.wordValue base') idx)) :
      Exec σ Nat).run m = _
    rw [StateT.run_bind, loadByteReg_run range]
    show (rl78GenAddr ctx (add32 (m.cpu.wordValue base') (m.cpu.byteValue idx))).run m = _
    rw [add32_eq (by omega)]
  next base' imm =>
    cases indexed
    refine ⟨_, rfl, ?_⟩
    unfold indRegImm
    rw [StateT.run_bind, loadWordReg_run range]
    show (rl78GenAddr ctx (add32 (m.cpu.wordValue base') offset)).run m = _
    rw [add32_eq (by omega)]
  next imm =>
    cases indexed
    refine ⟨_, rfl, ?_⟩
    show (rl78GenAddr ctx (add32 (m.cpu.sp &&& 0xFFFE) offset)).run m = _
    rw [add32_eq (by omega)]
  next idx base' =>
    cases indexed
    refine ⟨_, rfl, ?_⟩
    unfold indBaseByte
    rw [StateT.run_bind, loadByteReg_run range]
    show (rl78GenAddr ctx (add32 (m.cpu.byteValue idx) base)).run m = _
    rw [add32_eq (by omega), Nat.add_comm]
  next idx base' =>
    cases indexed
    refine ⟨_, rfl, ?_⟩
    unfold indBaseWord
    rw [StateT.run_bind, loadWordReg_run range]
    show (rl78GenAddr ctx (add32 (m.cpu.wordValue idx) base)).run m = _
    rw [add32_eq (by omega), Nat.add_comm]
  next => cases indexed

def Operand.named (cpu : Cpu) (useEs : Bool) : Operand → Option Nat
  | .abs16 addr => some (inSegment (segment cpu useEs) addr)
  | .saddr constOp => some (saddrPaddr constOp)
  | .sfr constOp => some (0xFFF00 + constOp)
  | .indReg base => some (inSegment (segment cpu useEs) (cpu.wordValue base))
  | op => (op.indexed cpu).map fun parts => inSegment (segment cpu useEs) (parts.1 + parts.2)

namespace Form

def named (cpu : Cpu) : Form → Option Nat
  | .operand ctx op _ => op.named cpu ctx.useEs
  | .btclr kind addr useEs => (bitOperand kind addr).named cpu useEs

def InBytes : Form → Prop
  | .operand _ op _ => op.InBytes
  | .btclr kind addr _ => (bitOperand kind addr).InBytes

/-- The offset does not leave the segment, or the segment has the bit that it carries into. -/
def StaysInSegment (cpu : Cpu) : Form → Prop
  | .operand ctx op _ => ∀ base offset, op.indexed cpu = some (base, offset) →
      base + offset < 2 ^ 16 ∨ segment cpu ctx.useEs % 2 = 1
  | .btclr kind _ useEs => kind = .abs16 ∨ kind = .indHl → useEs = true → cpu.es % 2 ^ 16 ≤ 0xF

end Form

theorem addr_of_paddr {op : Operand} {paddr : Nat} (memop : MemOp)
    (known : operandPaddr ctx op = some paddr) :
    (Form.operand ctx op memop).addr m = some paddr := by
  show (operandPaddr ctx op).or _ = _
  rw [known, some_or]

theorem addr_of_runAddr {op : Operand} {addr : Exec σ Nat} (memop : MemOp)
    (unknown : operandPaddr ctx op = none) (found : operandRunAddr ctx op = some addr) :
    (Form.operand ctx op memop).addr m = some (addr.run m).1 := by
  show (operandPaddr ctx op).or _ = _
  rw [unknown, found, none_or, map_some]

theorem Operand.indexed_forms (ctx : Context) {op : Operand} {base offset : Nat}
    (indexed : op.indexed m.cpu = some (base, offset)) :
    operandPaddr ctx op = Option.none ∧ operandRunAddr (σ := σ) ctx op = indAddr ctx op ∧
      op.named m.cpu ctx.useEs = some (inSegment (segment m.cpu ctx.useEs) (base + offset)) := by
  have named : (op.indexed m.cpu).map (fun parts => inSegment (segment m.cpu ctx.useEs)
      (parts.1 + parts.2)) = some (inSegment (segment m.cpu ctx.useEs) (base + offset)) := by
    rw [indexed, map_some]
  cases op with
  | indRegReg base' idx => exact ⟨rfl, rfl, named⟩
  | indRegImm base' imm => exact ⟨rfl, rfl, named⟩
  | indSpImm imm => exact ⟨rfl, rfl, named⟩
  | indBaseByte idx base' => exact ⟨rfl, rfl, named⟩
  | indBaseWord idx base' => exact ⟨rfl, rfl, named⟩
  | _ => cases indexed

theorem indexed_addr_iff (range : InRange m.cpu) {op : Operand} {base offset : Nat}
    (memop : MemOp) (bytes : op.InBytes) (indexed : op.indexed m.cpu = some (base, offset)) :
    (Form.operand ctx op memop).addr m = (Form.operand ctx op memop).named m.cpu ↔
      base + offset < 2 ^ 16 ∨ segment m.cpu ctx.useEs % 2 = 1 := by
  obtain ⟨unknown, runAddr, named⟩ := Operand.indexed_forms ctx indexed
  obtain ⟨addr, found, run⟩ := indAddr_indexed ctx range bytes indexed
  have less := Operand.indexed_lt bytes indexed
  rw [addr_of_runAddr memop unknown (runAddr.trans found), run]
  show some _ = op.named m.cpu ctx.useEs ↔ _
  rw [named, some_inj]
  exact rl78GenAddr_inSegment_iff (by omega)

theorem rl78GenAddr_inSegment {offset : Nat} (less : offset < 2 ^ 16) :
    ((rl78GenAddr ctx offset).run m).1 = inSegment (segment m.cpu ctx.useEs) offset :=
  (rl78GenAddr_inSegment_iff (by omega)).mpr (.inl less)

theorem bytes_abs16 {addr : Nat} (bytes : (Operand.abs16 addr).InBytes) : addr < 2 ^ 16 := by
  have high := bytes (addr / 256) (by simp [Operand.encoded])
  omega

theorem abs16_addr (memop : MemOp) {addr : Nat} (bytes : (Operand.abs16 addr).InBytes) :
    (Form.operand ctx (.abs16 addr) memop).addr m =
      some (inSegment (segment m.cpu ctx.useEs) addr) := by
  have less := bytes_abs16 bytes
  have there := @rl78GenAddr_inSegment σ ctx m addr less
  by_cases es : ctx.useEs = true
  · have unknown : operandPaddr ctx (.abs16 addr) = none := if_pos es
    have found : operandRunAddr (σ := σ) ctx (.abs16 addr) = some (rl78GenAddr ctx addr) :=
      if_pos es
    rw [addr_of_runAddr memop unknown found, there]
  · have known : operandPaddr ctx (.abs16 addr) = some (addr ||| 0xF0000) := if_neg es
    rw [rl78GenAddr_run] at there
    dsimp only at there
    rw [if_neg es] at there
    rw [addr_of_paddr memop known, there]

theorem indReg_addr (range : InRange m.cpu) (base : WordRegister) (memop : MemOp) :
    (Form.operand ctx (.indReg base) memop).addr m =
      some (inSegment (segment m.cpu ctx.useEs) (m.cpu.wordValue base)) := by
  have run : (indReg ctx base).run m = (rl78GenAddr ctx (m.cpu.wordValue base)).run m := by
    unfold indReg
    rw [StateT.run_bind, loadWordReg_run range]
    rfl
  have there := @rl78GenAddr_inSegment σ ctx m _ (m.cpu.wordValue_lt base)
  rw [addr_of_runAddr memop rfl rfl, run, there]

theorem helper_segment_iff (cpu : Cpu) {offset : Nat} (less : offset < 2 ^ 16) (useEs : Bool) :
    (if useEs then (cpu.es &&& 0x0F) <<< 16 ||| offset else offset ||| 0xF0000) =
        inSegment (segment cpu useEs) offset ↔ useEs = true → cpu.es % 2 ^ 16 ≤ 0xF := by
  unfold inSegment
  rw [mod_eq_of_lt less]
  cases useEs with
  | false =>
    refine iff_of_true ?_ (fun no => by cases no)
    rw [← segment_shl32, if_neg (by decide), if_neg (by decide), Nat.or_comm]
  | true =>
    rw [if_pos rfl]
    have shifted : shl32 cpu.es 16 = 2 ^ 16 * (cpu.es % 2 ^ 16) := by
      unfold shl32
      omega
    show (cpu.es &&& 0x0F) <<< 16 ||| offset = shl32 cpu.es 16 ||| offset ↔ _
    rw [shifted, and_low_nibble, shiftLeft_eq, Nat.mul_comm,
      ← two_pow_add_eq_or_of_lt less, ← two_pow_add_eq_or_of_lt less]
    refine ⟨fun same _ => by omega, fun small => ?_⟩
    have := small rfl
    omega

theorem btclrPaddr_indHl (cpu : Cpu) (addr : Nat) (useEs : Bool) :
    btclrPaddr cpu .indHl addr useEs = if useEs then (cpu.es &&& 0x0F) <<< 16 ||| cpu.wordValue .hl
      else cpu.wordValue .hl ||| 0xF0000 := by
  have hl : (cpu.regs (helperReg cpu.psw ByteRegister.l.index) &&& 0xFF) |||
      (cpu.regs (helperReg cpu.psw ByteRegister.h.index) &&& 0xFF) <<< 8 = cpu.wordValue .hl := by
    have low := mod_lt (cpu.regs (helperReg cpu.psw ByteRegister.l.index)) (by decide : 0 < 256)
    rw [and_low_byte, and_low_byte, shiftLeft_eq, Nat.mul_comm, Nat.or_comm,
      bytes_or _ low, Nat.add_comm]
    rfl
  unfold btclrPaddr
  dsimp only
  rw [hl]

theorem btclr_addr_iff {kind : BitOpKind} {addr : Nat} {useEs : Bool}
    (bytes : (bitOperand kind addr).InBytes) :
    (Form.btclr kind addr useEs).addr m = (Form.btclr kind addr useEs).named m.cpu ↔
      (Form.btclr kind addr useEs).StaysInSegment m.cpu := by
  have stays : (Form.btclr kind addr useEs).StaysInSegment m.cpu ↔
      (kind = .abs16 ∨ kind = .indHl → useEs = true → m.cpu.es % 2 ^ 16 ≤ 0xF) := Iff.rfl
  rw [stays]
  cases kind with
  | saddr =>
    have byte : addr < 256 := bytes addr (by simp [bitOperand, Operand.encoded])
    refine iff_of_true ?_ (by simp)
    show some ((if addr < 0x20 then 0xFFF00 else 0xFFE00) + (addr &&& 0xFF)) =
      some (saddrPaddr addr)
    rw [and_low_byte, mod_eq_of_lt byte]
    rfl
  | sfr =>
    have byte : addr < 256 := bytes addr (by simp [bitOperand, Operand.encoded])
    refine iff_of_true ?_ (by simp)
    show some (0xFFF00 + (addr &&& 0xFF)) = some (0xFFF00 + addr)
    rw [and_low_byte, mod_eq_of_lt byte]
  | abs16 =>
    have less := bytes_abs16 bytes
    have low : addr &&& 0xFFFF = addr := by
      rw [and_low_word]
      exact mod_eq_of_lt less
    have segment := @helper_segment_iff m.cpu addr less useEs
    show some (if useEs then (m.cpu.es &&& 0x0F) <<< 16 ||| (addr &&& 0xFFFF)
      else (addr &&& 0xFFFF) ||| 0xF0000) = some _ ↔ _
    rw [low, some_inj, segment]
    simp
  | indHl =>
    have segment := helper_segment_iff m.cpu (m.cpu.wordValue_lt .hl) useEs
    show some (btclrPaddr m.cpu .indHl addr useEs) =
      some (inSegment (Rl78.segment m.cpu useEs) (m.cpu.wordValue .hl)) ↔ _
    rw [btclrPaddr_indHl, some_inj, segment]
    simp
  | regA => exact iff_of_true rfl (by simp)
  | cy => exact iff_of_true rfl (by simp)

/-- Every form loads and stores at the address that it computes, and that is the address that its
operand names exactly if the form stays in its segment. -/
theorem addresses_follow_iff (B : Bus σ) (form : Form) (range : InRange m.cpu)
    (bytes : form.InBytes) :
    (∀ paddr, form.addr m = some paddr → form.Lowered B m paddr) ∧
      (form.addr m = form.named m.cpu ↔ form.StaysInSegment m.cpu) := by
  refine ⟨fun paddr => Form.lowered, ?_⟩
  cases form with
  | btclr kind addr useEs => exact btclr_addr_iff bytes
  | operand ctx op memop =>
    have stays : (Form.operand ctx op memop).StaysInSegment m.cpu ↔ ∀ base offset,
        op.indexed m.cpu = some (base, offset) →
          base + offset < 2 ^ 16 ∨ segment m.cpu ctx.useEs % 2 = 1 := Iff.rfl
    rw [stays]
    cases indexed : op.indexed m.cpu with
    | some parts =>
      obtain ⟨base, offset⟩ := parts
      rw [indexed_addr_iff range memop bytes indexed]
      simp
    | none =>
      refine iff_of_true ?_ (by simp)
      cases op with
      | abs16 addr => exact abs16_addr memop bytes
      | indReg base => exact indReg_addr range base memop
      | indRegReg base idx => cases indexed
      | indRegImm base imm => cases indexed
      | indSpImm imm => cases indexed
      | indBaseByte idx base => cases indexed
      | indBaseWord idx base => cases indexed
      | _ => rfl

/-- `HL` is at the end of its segment, and `ES` is 0. -/
def hlAtEnd : Machine Unit := (anyMachine.setReg 6 0xFF).setReg 7 0xFF

def esHlOne : Form := .operand ⟨true, 0, 0⟩ (.indRegImm .hl 1) .mo8

theorem anyMachine_inRange : InRange anyMachine.cpu where
  psw := ⟨by decide, by decide, by decide, by decide, by decide, by decide⟩
  regs_le _ := Nat.zero_le _
  cs_le := by decide
  skipEn_le := by decide
  skipReq_le := by decide

/-- The address is in segment 1. -/
theorem esHlOne_leaves : InRange hlAtEnd.cpu ∧ esHlOne.addr hlAtEnd = some 0x10000 ∧
    esHlOne.named hlAtEnd.cpu = some 0 ∧ ¬esHlOne.StaysInSegment hlAtEnd.cpu := by
  have range : InRange hlAtEnd.cpu := (anyMachine_inRange.setReg 6 (by decide)).setReg 7 (by decide)
  refine ⟨range, by decide +kernel, by decide +kernel, fun stays => ?_⟩
  rcases stays 0xFFFF 1 (by decide +kernel) with small | odd
  · exact absurd small (by decide)
  · exact absurd odd (by decide)

/-- `ES:[HL+1]` in a state with nothing but zeros. -/
theorem addresses_follow_sample :
    (∀ paddr, esHlOne.addr anyMachine = some paddr → esHlOne.Lowered zeroBus anyMachine paddr) ∧
      (esHlOne.addr anyMachine = esHlOne.named anyMachine.cpu ↔
        esHlOne.StaysInSegment anyMachine.cpu) :=
  addresses_follow_iff zeroBus esHlOne anyMachine_inRange
    (show ∀ byte ∈ [1], byte < 2 ^ 8 by decide)

end Tlib.Rl78
