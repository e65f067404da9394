import Tlib.Rl78.Translate

/-!
Contract: the registers that always keep their ranges.

Owns: the ranges of the general registers and the program status word. Does not own: the stack
pointer, the data segment and the program counter, which some instructions take out of their
ranges.
-/

namespace Tlib.Rl78

open Tlib.Library.Words Tlib.Library.StateTriples Nat

variable {σ : Type} {B : Bus σ} {ctx : Context} {P : Machine σ → Prop}

structure PswInRange (psw : Psw) : Prop where
  cy_le : psw.cy ≤ 1
  isp_le : psw.isp ≤ 3
  rbs_le : psw.rbs ≤ 3
  ac_le : psw.ac ≤ 1
  z_le : psw.z ≤ 1
  ie_le : psw.ie ≤ 1

structure InRange (cpu : Cpu) : Prop where
  psw : PswInRange cpu.psw
  regs_le : ∀ place, cpu.regs place ≤ 0xFF
  cs_le : cpu.cs ≤ 0xF
  skipEn_le : cpu.skipEn ≤ 1
  skipReq_le : cpu.skipReq ≤ 1

/-- A property of machines in range that writes in range keep. -/
structure StableData (P : Machine σ → Prop) : Prop where
  inRange : ∀ m, P m → InRange m.cpu
  reg : ∀ m place value, P m → value ≤ 0xFF → P (m.setReg place value)
  cy : ∀ m value, P m → value ≤ 1 → P (m.setCy value)
  isp : ∀ m value, P m → value ≤ 3 → P (m.setIsp value)
  rbs : ∀ m value, P m → value ≤ 3 → P (m.setRbs value)
  ac : ∀ m value, P m → value ≤ 1 → P (m.setAc value)
  z : ∀ m value, P m → value ≤ 1 → P (m.setZ value)
  ie : ∀ m value, P m → value ≤ 1 → P (m.setIe value)
  bus : ∀ m bus, P m → P (m.setBus bus)
  update : ∀ m update, P m → P (m.setUpdate update)

/-- Writes of values in range to the stack pointer and the segments keep the property, too. -/
structure Stable (P : Machine σ → Prop) : Prop extends data : StableData P where
  sp : ∀ m value, P m → value % 2 = 0 → value < 2 ^ 16 → P (m.setSp value)
  es : ∀ m value, P m → (m.cpu.es ≤ 0xF → value ≤ 0xF) → P (m.setEs value)
  cs : ∀ m value, P m → value ≤ 0xF → P (m.setCs value)

theorem mask_sp (a : Nat) : (a &&& 0xFFFE) % 2 = 0 ∧ a &&& 0xFFFE < 2 ^ 16 := by
  have even : (a &&& 0xFFFE) % 2 = 0 := by
    rw [← and_one_is_mod, Nat.and_assoc]
    exact and_zero a
  have := and_le_right (n := a) (m := 0xFFFE)
  exact ⟨even, by omega⟩

theorem and_one_le (a : Nat) : a &&& 1 ≤ 1 := and_le_right

theorem boolWord_le (c : Prop) [Decidable c] : boolWord c ≤ 1 := by
  unfold boolWord
  split <;> omega

theorem or_le_one {a b : Nat} (left : a ≤ 1) (right : b ≤ 1) : a ||| b ≤ 1 := by
  have := or_lt_two_pow (n := 1) (by omega : a < 2 ^ 1) (by omega : b < 2 ^ 1)
  omega

theorem zeroByte_le (result : Nat) : zeroByte result ≤ 1 := by
  unfold zeroByte
  split <;> omega

theorem zeroWord_le (result : Nat) : zeroWord result ≤ 1 := by
  unfold zeroWord
  split <;> omega

theorem extract_one_le (a start : Nat) : extract a start 1 ≤ 1 := by
  have := extract_lt a start 1
  omega

theorem deposit_low_nibble {a field : Nat} (small : a ≤ 0xF) : deposit a field 0 4 ≤ 0xF := by
  unfold deposit
  omega

theorem InRange.setReg {m : Machine σ} (range : InRange m.cpu) (place : Nat) {value : Nat}
    (small : value ≤ 0xFF) : InRange (m.setReg place value).cpu := by
  refine { range with regs_le := fun other => ?_ }
  show Function.update m.cpu.regs place value other ≤ 0xFF
  by_cases same : other = place
  · rw [same, Function.update_self]
    exact small
  · rw [Function.update_of_ne same]
    exact range.regs_le other

theorem loadByteReg_triple (reg : ByteRegister) :
    Triple P (loadByteReg reg) fun value m => value ≤ 0xFF ∧ P m :=
  fun _ holds => ⟨and_le_right, holds⟩

theorem loadByteReg_keeps (reg : ByteRegister) : Keeps P (loadByteReg reg) := fun _ holds => holds

theorem cpuUnpackPsw_inRange (value : Nat) : PswInRange (cpuUnpackPsw value) := by
  have isp := extract_lt value 1 2
  have rbs0 := extract_lt value 3 1
  have rbs1 := extract_lt value 5 1
  exact
    { cy_le := extract_one_le _ _
      isp_le := by
        show extract value 1 2 ≤ 3
        omega
      rbs_le := by
        show extract value 3 1 + 2 * extract value 5 1 ≤ 3
        omega
      ac_le := extract_one_le _ _
      z_le := extract_one_le _ _
      ie_le := extract_one_le _ _ }

theorem getRp_keeps (rp : WordRegister) : Keeps P (getRp rp) := fun _ holds => holds

theorem rl78GenAddr_keeps (addr : Nat) : Keeps P (rl78GenAddr ctx addr) := fun _ holds => holds

theorem indAddr_keeps {op : Operand} {addr : Exec σ Nat} (found : indAddr ctx op = some addr) :
    Keeps P addr := by
  unfold indAddr at found
  split at found
  all_goals cases found
  all_goals exact fun _ holds => holds

def BitInRange (op : Operand) (data : BitData) : Prop :=
  data.bit ≤ 1 ∧ ∀ index addr, op = .bit .cy index addr → data.byte ≤ 1

def Operand.carryIndex : Operand → Nat
  | .bit .cy index _ => index
  | _ => 0

theorem BitInRange.withBit {op : Operand} {data : BitData} {bit : Nat}
    (range : BitInRange op data) (small : bit ≤ 1) : BitInRange op { data with bit := bit } :=
  ⟨small, range.2⟩

section Data

variable (stable : StableData P)

include stable

theorem busLoad_triple (memop : MemOp) (addr : Nat) :
    Triple P (busLoad B memop addr) fun value m => value < 2 ^ memop.bits ∧ P m :=
  fun m holds => ⟨B.load_lt memop addr m.bus, stable.bus m _ holds⟩

theorem busLoad_keeps (memop : MemOp) (addr : Nat) : Keeps P (busLoad B memop addr) :=
  (busLoad_triple stable memop addr).weaken (fun _ => id) fun _ _ both => both.2

theorem busStore_keeps (memop : MemOp) (addr data : Nat) : Keeps P (busStore B memop addr data) :=
  Keeps.modify fun m holds => stable.bus m _ holds

theorem busReadHost_triple (paddr : Nat) :
    Triple P (busReadHost B paddr) fun value m => value < 2 ^ 8 ∧ P m :=
  fun m holds => ⟨B.readHost_lt paddr m.bus, stable.bus m _ holds⟩

theorem busWriteHost_keeps (paddr data : Nat) : Keeps P (busWriteHost B paddr data) :=
  Keeps.modify fun m holds => stable.bus m _ holds

theorem storeByteReg_keeps (reg : ByteRegister) (data : Nat) : Keeps P (storeByteReg reg data) :=
  fun m holds => stable.reg m _ _ holds and_le_right

theorem storeWordReg_keeps (reg : WordRegister) (data : Nat) : Keeps P (storeWordReg reg data) := by
  refine Keeps.bind (fun m holds => holds : Keeps P (regPtr (reg.index * 2))) fun place => ?_
  refine Keeps.bind (Keeps.modify fun m holds => stable.reg m _ _ holds and_le_right) ?_
  exact fun _ => Keeps.modify fun m holds => stable.reg m _ _ holds and_le_right

theorem storePsw_keeps (psw : Nat) : Keeps P (storePsw psw) := by
  unfold storePsw
  have isp := extract_lt psw 1 2
  have rbs0 := extract_lt psw 3 1
  have rbs1 := extract_lt psw 5 1
  have rbs : deposit (deposit 0 (extract psw 3 1) 0 1) (extract psw 5 1) 1 1 ≤ 3 := by
    unfold deposit
    omega
  refine Keeps.bind (Keeps.modify fun m holds => stable.cy m _ holds (extract_one_le _ _)) ?_
  refine fun _ => Keeps.bind (Keeps.modify fun m holds => stable.isp m _ holds (by omega)) ?_
  refine fun _ => Keeps.bind (Keeps.modify fun m holds =>
    stable.ac m _ holds (extract_one_le _ _)) ?_
  refine fun _ => Keeps.bind (Keeps.modify fun m holds =>
    stable.z m _ holds (extract_one_le _ _)) ?_
  refine fun _ => Keeps.bind (Keeps.modify fun m holds =>
    stable.ie m _ holds (extract_one_le _ _)) ?_
  refine fun _ => Keeps.bind (Keeps.modify fun m holds => stable.rbs m _ holds rbs) ?_
  exact fun _ => Keeps.modify fun m holds => stable.update m _ holds

theorem setRp_keeps (rp : WordRegister) (value : Nat) : Keeps P (setRp rp value) := by
  refine Keeps.bind (Keeps.modify fun m holds => stable.reg m _ _ holds and_le_right) ?_
  exact fun _ => Keeps.modify fun m holds => stable.reg m _ _ holds and_le_right

theorem busReadHost_keeps (paddr : Nat) : Keeps P (busReadHost B paddr) :=
  (busReadHost_triple stable paddr).weaken (fun _ => id) fun _ _ both => both.2

theorem loadMacr_keeps : Keeps P (loadMacr B) := by
  refine Keeps.bind (busReadHost_keeps stable _) fun byte0 => ?_
  refine Keeps.bind (busReadHost_keeps stable _) fun byte1 => ?_
  refine Keeps.bind (busReadHost_keeps stable _) fun byte2 => ?_
  exact Keeps.bind (busReadHost_keeps stable _) fun byte3 => Keeps.pure _

theorem storeMacr_keeps (macr : Nat) : Keeps P (storeMacr B macr) := by
  refine Keeps.bind (busWriteHost_keeps stable _ _) fun _ => ?_
  refine Keeps.bind (busWriteHost_keeps stable _ _) fun _ => ?_
  refine Keeps.bind (busWriteHost_keeps stable _ _) fun _ => ?_
  exact busWriteHost_keeps stable _ _

theorem mduMul_keeps (product : Nat) : Keeps P (mduMul product) :=
  Keeps.bind (setRp_keeps stable _ _) fun _ => setRp_keeps stable _ _

theorem mduDivhu_keeps : Keeps P mduDivhu := by
  refine Keeps.bind (getRp_keeps .ax) fun ax => Keeps.bind (getRp_keeps .de) fun de => ?_
  refine Keeps.ite (fun _ => ?_) fun _ => ?_
  · exact Keeps.bind (setRp_keeps stable _ _) fun _ => setRp_keeps stable _ _
  · exact Keeps.bind (setRp_keeps stable _ _) fun _ => setRp_keeps stable _ _

theorem mduDivwu_keeps : Keeps P mduDivwu := by
  unfold mduDivwu
  refine Keeps.bind (getRp_keeps .ax) fun ax => Keeps.bind (getRp_keeps .bc) fun bc => ?_
  refine Keeps.bind (getRp_keeps .de) fun de => Keeps.bind (getRp_keeps .hl) fun hl => ?_
  have four (ax bc de hl : Nat) : Keeps P (do
      setRp .ax ax
      setRp .bc bc
      setRp .de de
      setRp .hl hl) := by
    refine Keeps.bind (setRp_keeps stable _ _) fun _ => ?_
    refine Keeps.bind (setRp_keeps stable _ _) fun _ => ?_
    exact Keeps.bind (setRp_keeps stable _ _) fun _ => setRp_keeps stable _ _
  exact Keeps.ite (fun _ => four _ _ _ _) fun _ => four _ _ _ _

theorem setCy_keeps {value : Nat} (small : value ≤ 1) : Keeps P (modify fun m => m.setCy value) :=
  Keeps.modify fun m holds => stable.cy m _ holds small

theorem setAc_keeps {value : Nat} (small : value ≤ 1) : Keeps P (modify fun m => m.setAc value) :=
  Keeps.modify fun m holds => stable.ac m _ holds small

theorem setZ_keeps {value : Nat} (small : value ≤ 1) : Keeps P (modify fun m => m.setZ value) :=
  Keeps.modify fun m holds => stable.z m _ holds small

theorem setFlags_keeps {cy ac z : Nat} (cySmall : cy ≤ 1) (acSmall : ac ≤ 1) (zSmall : z ≤ 1) :
    Keeps P (setFlags cy ac z) := by
  refine Keeps.bind (setCy_keeps stable cySmall) fun _ => ?_
  exact Keeps.bind (setAc_keeps stable acSmall) fun _ => setZ_keeps stable zSmall

theorem mduMachu_keeps : Keeps P (mduMachu B) := by
  refine Keeps.bind (getRp_keeps .ax) fun ax => Keeps.bind (getRp_keeps .bc) fun bc => ?_
  refine Keeps.bind (loadMacr_keeps stable) fun macr => ?_
  refine Keeps.bind (storeMacr_keeps stable _) fun _ => ?_
  refine setFlags_keeps stable ?_ (by omega) (by omega)
  split <;> omega

theorem mduMach_keeps : Keeps P (mduMach B) := by
  refine Keeps.bind (getRp_keeps .ax) fun ax => Keeps.bind (getRp_keeps .bc) fun bc => ?_
  refine Keeps.bind (loadMacr_keeps stable) fun macr => ?_
  refine Keeps.bind (storeMacr_keeps stable _) fun _ => ?_
  exact setFlags_keeps stable (and_one_le _) (and_one_le _) (by omega)

theorem helperMduCmd_keeps (cmd : Nat) : Keeps P (helperMduCmd B cmd) := by
  unfold helperMduCmd
  split
  iterate 2 next =>
    exact Keeps.bind (getRp_keeps .ax) fun _ => Keeps.bind (getRp_keeps .bc) fun _ =>
      mduMul_keeps stable _
  next => exact mduDivhu_keeps stable
  next => exact mduMachu_keeps stable
  next => exact mduMach_keeps stable
  next => exact mduDivwu_keeps stable
  next => exact Keeps.pure _

theorem setPsw_holds {m : Machine σ} {psw : Psw} (holds : P m) (range : PswInRange psw) :
    P { m with cpu.psw := psw } := by
  have cy := stable.cy m _ holds range.cy_le
  have isp := stable.isp _ _ cy range.isp_le
  have rbs := stable.rbs _ _ isp range.rbs_le
  have ac := stable.ac _ _ rbs range.ac_le
  have z := stable.z _ _ ac range.z_le
  exact stable.ie _ _ z range.ie_le

end Data

section Accesses

variable (stable : Stable P)

include stable

theorem storeSp_keeps (sp : Nat) : Keeps P (storeSp sp) :=
  Keeps.modify fun m holds => stable.sp m _ holds (mask_sp sp).1 (mask_sp sp).2

theorem readByte_keeps (paddr : Nat) : Keeps P (readByte B paddr) := by
  refine Keeps.bind Keeps.get fun m => ?_
  split
  all_goals first
    | exact Keeps.pure _
    | exact busReadHost_keeps stable.data _

theorem writeByte_keeps (paddr value : Nat) : Keeps P (writeByte B paddr value) := by
  unfold writeByte
  dsimp only
  split
  next => exact Keeps.modify fun m holds => stable.sp m _ holds (mask_sp _).1 (mask_sp _).2
  next => exact Keeps.modify fun m holds => stable.sp m _ holds (mask_sp _).1 (mask_sp _).2
  next => exact Keeps.modify fun m holds => setPsw_holds stable.data holds (cpuUnpackPsw_inRange _)
  next => exact helperMduCmd_keeps stable.data _
  next => exact Keeps.modify fun m holds => stable.cs m _ holds and_le_right
  next => exact Keeps.modify fun m holds => stable.es m _ holds fun _ => and_le_right
  next => exact busWriteHost_keeps stable.data _ _

theorem helperBtclrPaddr_keeps (paddr bit : Nat) : Keeps P (helperBtclrPaddr B paddr bit) := by
  refine Keeps.bind (readByte_keeps stable _) fun byte => ?_
  refine Keeps.ite (fun _ => Keeps.pure _) fun _ => ?_
  exact Keeps.bind (writeByte_keeps stable _ _) fun _ => Keeps.pure _

theorem btclrCy_keeps : Keeps P btclrCy := by
  refine Keeps.bind Keeps.get fun m => ?_
  refine Keeps.ite (fun _ => Keeps.pure _) fun _ => ?_
  exact Keeps.bind (setCy_keeps stable.data (by omega)) fun _ => Keeps.pure _

theorem btclrRegA_keeps (bit : Nat) : Keeps P (btclrRegA bit) := by
  refine Keeps.bind Keeps.get fun m => ?_
  refine Keeps.ite (fun _ => Keeps.pure _) fun _ => ?_
  refine Keeps.bind (Keeps.modify fun m' holds => stable.reg m' _ _ holds ?_) fun _ =>
    Keeps.pure _
  have byte : m.cpu.regs (helperReg m.cpu.psw ByteRegister.a.index) &&& 0xFF ≤ 0xFF :=
    and_le_right
  exact and_le_left.trans byte

theorem helperBtclr_keeps (kind : BitOpKind) (addr bit : Nat) (useEs : Bool) :
    Keeps P (helperBtclr B kind addr bit useEs) := by
  refine Keeps.bind Keeps.get fun m => ?_
  split
  next => exact btclrCy_keeps stable
  next => exact btclrRegA_keeps stable _
  next => exact helperBtclrPaddr_keeps stable _ _

theorem rl78GenLoad_keeps (addr : Nat) (memop : MemOp) : Keeps P (rl78GenLoad B addr memop) :=
  busLoad_keeps stable.data _ _

theorem rl78GenStore_keeps (addr data : Nat) (memop : MemOp) :
    Keeps P (rl78GenStore B addr data memop) := busStore_keeps stable.data _ _ _

theorem loadPaddr_keeps (paddr : Nat) (memop : MemOp) : Keeps P (loadPaddr B paddr memop) := by
  cases memop with
  | mo8 =>
    unfold loadPaddr loadBytePaddr
    dsimp only
    split
    all_goals first
      | exact fun _ holds => holds
      | exact rl78GenLoad_keeps stable _ _
  | mo16 =>
    unfold loadPaddr loadWordPaddr
    dsimp only
    split
    next => exact fun _ holds => holds
    next => exact rl78GenLoad_keeps stable _ _

theorem storeBytePaddr_keeps (paddr data : Nat) : Keeps P (storeBytePaddr B paddr data) := by
  unfold storeBytePaddr
  split
  iterate 2 next => exact Keeps.bind Keeps.get fun m => storeSp_keeps stable _
  next => exact storePsw_keeps stable.data _
  next => exact helperMduCmd_keeps stable.data _
  next =>
    exact Keeps.modify fun m holds =>
      stable.cs m _ holds (deposit_low_nibble (stable.inRange m holds).cs_le)
  next => exact Keeps.modify fun m holds => stable.es m _ holds deposit_low_nibble
  next => exact writeByte_keeps stable _ _

theorem storePaddr_keeps (paddr data : Nat) (memop : MemOp) :
    Keeps P (storePaddr B paddr data memop) := by
  cases memop with
  | mo8 => exact storeBytePaddr_keeps stable _ _
  | mo16 =>
    unfold storePaddr storeWordPaddr
    dsimp only
    split
    next => exact storeSp_keeps stable _
    next => exact rl78GenStore_keeps stable _ _ _

theorem loadAbs16_keeps (addr : Nat) (memop : MemOp) : Keeps P (loadAbs16 B ctx addr memop) := by
  unfold loadAbs16
  refine Keeps.ite (fun _ => ?_) fun _ => loadPaddr_keeps stable _ _
  exact Keeps.bind (rl78GenAddr_keeps _) fun a => rl78GenLoad_keeps stable _ _

theorem storeAbs16_keeps (addr data : Nat) (memop : MemOp) :
    Keeps P (storeAbs16 B ctx addr data memop) := by
  refine Keeps.ite (fun _ => ?_) fun _ => storePaddr_keeps stable _ _ _
  exact Keeps.bind (rl78GenAddr_keeps _) fun a => rl78GenStore_keeps stable _ _ _

theorem rl78GenLoadOperand_keeps (op : Operand) (memop : MemOp) :
    Keeps P (rl78GenLoadOperand B ctx op memop) := by
  unfold rl78GenLoadOperand
  split
  all_goals first
    | exact fun _ holds => holds
    | exact loadAbs16_keeps stable _ _
    | exact loadPaddr_keeps stable _ _
    | skip
  next =>
    split
    next found =>
      exact Keeps.bind (indAddr_keeps found) fun addr => rl78GenLoad_keeps stable _ _
    next => exact Keeps.pure _

theorem rl78GenStoreOperand_keeps {op : Operand} (data : Nat) (memop : MemOp)
    (notEs : op ≠ .es) (notCy : op ≠ .cy) :
    Keeps P (rl78GenStoreOperand B ctx op data memop) := by
  unfold rl78GenStoreOperand
  split
  next => exact storeByteReg_keeps stable.data _ _
  next => exact storeWordReg_keeps stable.data _ _
  next => exact storePsw_keeps stable.data _
  next => exact storeSp_keeps stable _
  next => exact absurd rfl notEs
  next => exact absurd rfl notCy
  next => exact storeAbs16_keeps stable _ _ _
  iterate 2 next => exact storePaddr_keeps stable _ _ _
  next =>
    split
    next found =>
      exact Keeps.bind (indAddr_keeps found) fun addr => rl78GenStore_keeps stable _ _ _
    next => exact Keeps.pure _

theorem bitByte_triple (kind : BitOpKind) (addr : Nat) :
    Triple P (bitByte B ctx kind addr) fun byte m => (kind = .cy → byte ≤ 1) ∧ P m := by
  have other {f : Exec σ Nat} (notCy : kind ≠ .cy) (keeps : Keeps P f) :
      Triple P f fun byte m => (kind = .cy → byte ≤ 1) ∧ P m :=
    keeps.weaken (fun _ => id) fun _ _ holds => ⟨fun isCy => absurd isCy notCy, holds⟩
  cases kind with
  | saddr => exact other (by simp) (loadPaddr_keeps stable _ _)
  | sfr => exact other (by simp) (loadPaddr_keeps stable _ _)
  | regA => exact other (by simp) fun _ holds => holds
  | abs16 => exact other (by simp) (loadAbs16_keeps stable _ _)
  | indHl => exact other (by simp) (rl78GenLoadOperand_keeps stable _ _)
  | cy => exact fun m holds => ⟨fun _ => (stable.inRange m holds).psw.cy_le, holds⟩

theorem rl78GenLoadBit_triple (op : Operand) :
    Triple P (rl78GenLoadBit B ctx op) fun data m => BitInRange op data ∧ P m := by
  unfold rl78GenLoadBit
  split
  next kind index addr =>
    refine Triple.bind (bitByte_triple stable kind addr) fun byte => ?_
    refine Triple.pure fun m both => ⟨⟨and_one_le _, ?_⟩, both.2⟩
    intro index' addr' same
    injection same with isCy
    exact both.1 isCy
  next => exact Triple.pure fun m holds => ⟨⟨Nat.zero_le 1, fun _ _ _ => Nat.zero_le 1⟩, holds⟩

theorem rl78GenLoadBit_keeps (op : Operand) : Keeps P (rl78GenLoadBit B ctx op) :=
  (rl78GenLoadBit_triple stable op).weaken (fun _ => id) fun _ _ both => both.2

theorem rl78GenStoreBit_keeps {op : Operand} {data : BitData} (zero : op.carryIndex = 0)
    (range : BitInRange op data) : Keeps P (rl78GenStoreBit B ctx op data) := by
  unfold rl78GenStoreBit
  split
  next kind index addr =>
    split
    iterate 2 next => exact storePaddr_keeps stable _ _ _
    next => exact storeByteReg_keeps stable.data _ _
    next => exact storeAbs16_keeps stable _ _ _
    next => exact rl78GenStoreOperand_keeps stable _ _ (by simp) (by simp)
    next =>
      refine setCy_keeps stable.data (or_le_one (and_le_left.trans (range.2 _ _ rfl)) ?_)
      rw [show index = 0 from zero]
      have small := range.1
      unfold shl32
      omega
  next => exact Keeps.pure _

end Accesses

end Tlib.Rl78
