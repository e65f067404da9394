import Tlib.Rl78.DecodeUnique
import Tlib.Rl78.Ranges

/-!
Contract: what straight instructions keep.

Owns: the instructions of the tables. Does not own: jumps, calls and returns, and the instructions
that change the stack pointer or the data segment without a mask.
-/

namespace Tlib.Rl78

open Tlib.Library.Words Tlib.Library.StateTriples

variable {σ : Type} {B : Bus σ} {ctx : Context} {insn : Instruction} {P : Machine σ → Prop}

/-- What holds of the operands of every instruction in the tables. -/
structure Regular (insn : Instruction) : Prop where
  notCy0 : insn.operand0 ≠ .cy
  notCy1 : insn.operand1 ≠ .cy
  esMov1 : insn.operand1 = .es → insn.mnemonic = .mov
  esMov : insn.operand0 = .es → insn.mnemonic = .mov
  rolA : insn.mnemonic = .rol → insn.operand0 = .byteReg .a
  carryIndex : insn.operand0.carryIndex = 0

theorem entry_regular (map : OpcodeMap) (byte : Nat) : Regular (map.entry byte) := by
  have all : ∀ insn ∈ map.table, (insn.operand0 ≠ .cy ∧ insn.operand1 ≠ .cy) ∧
        (insn.operand1 = .es → insn.mnemonic = .mov) ∧
        (insn.operand0 = .es → insn.mnemonic = .mov) ∧
        (insn.mnemonic = .rol → insn.operand0 = .byteReg .a) ∧
        insn.operand0.carryIndex = 0 := by
    cases map <;> decide +kernel
  obtain ⟨⟨notCy0, notCy1⟩, esMov1, esMov, rolA, carryIndex⟩ := map.entry_all all (by decide) byte
  exact ⟨notCy0, notCy1, esMov1, esMov, rolA, carryIndex⟩

theorem carryIndex_template (op : Operand) : op.template.carryIndex = op.carryIndex := by
  cases op with
  | bit kind index addr => cases kind <;> rfl
  | _ => rfl

theorem template_fixed {op fixed : Operand} (same : op.template = fixed)
    (bare : fixed = .es ∨ fixed = .cy ∨ fixed = .byteReg .a) : op = fixed := by
  subst same
  cases op <;> simp_all [Operand.template]

theorem Decoded.regular {code : Nat → Nat} {pc : Nat} {ctx : DisasContext}
    (decoded : Decoded code pc ctx insn) : Regular insn := by
  have entry := entry_regular (opcodeMap code pc) (opcodeByte code pc)
  have fixed0 {op : Operand} (same : insn.operand0 = op) : op.template = _ :=
    (congrArg Operand.template same).symm.trans decoded.template0
  have fixed1 {op : Operand} (same : insn.operand1 = op) : op.template = _ :=
    (congrArg Operand.template same).symm.trans decoded.template1
  refine ⟨fun isCy => entry.notCy0 (fixed0 isCy).symm, fun isCy => entry.notCy1 (fixed1 isCy).symm,
    fun isEs => ?_, fun isEs => ?_, fun isRol => ?_, ?_⟩
  · rw [decoded.mnemonic]
    exact entry.esMov1 (fixed1 isEs).symm
  · rw [decoded.mnemonic]
    exact entry.esMov (fixed0 isEs).symm
  · rw [decoded.mnemonic] at isRol
    exact template_fixed (decoded.template0.trans (entry.rolA isRol)) (.inr (.inr rfl))
  · rw [← carryIndex_template, decoded.template0]
    exact entry.carryIndex

/-- The data segment is written without a mask. -/
def writesEs (insn : Instruction) : Prop := insn.operand0 = .es

def Mnemonic.movesSp : Mnemonic → Bool
  | .push | .pop => true
  | _ => false

def Mnemonic.skips : Mnemonic → Bool
  | .skc | .sknc | .skz | .sknz | .skh | .sknh => true
  | _ => false

theorem xor_le_one {a b : Nat} (left : a ≤ 1) (right : b ≤ 1) : a ^^^ b ≤ 1 := by
  have := Nat.xor_lt_two_pow (n := 1) (by omega : a < 2 ^ 1) (by omega : b < 2 ^ 1)
  omega

theorem top_bit_le {byte : Nat} (small : byte ≤ 0xFF) : byte >>> 7 ≤ 1 := by
  omega

section

variable (stable : Stable P)

include stable

theorem move_keeps (memop : MemOp) (notEs : ¬writesEs insn) (notCy : insn.operand0 ≠ .cy) :
    Keeps P (move B ctx insn memop) :=
  Keeps.bind (rl78GenLoadOperand_keeps stable _ _) fun _ =>
    rl78GenStoreOperand_keeps stable _ _ notEs notCy

theorem storeConst_keeps (value : Nat) (memop : MemOp) (notEs : ¬writesEs insn)
    (notCy : insn.operand0 ≠ .cy) : Keeps P (storeConst B ctx insn value memop) :=
  rl78GenStoreOperand_keeps stable _ _ notEs notCy

theorem exchange_keeps (memop : MemOp) (notEs : ¬writesEs insn) (notEs1 : insn.operand1 ≠ .es)
    (notCy : insn.operand0 ≠ .cy) (notCy1 : insn.operand1 ≠ .cy) :
    Keeps P (exchange B ctx insn memop) := by
  refine Keeps.bind (rl78GenLoadOperand_keeps stable _ _) fun op0 => ?_
  refine Keeps.bind (rl78GenLoadOperand_keeps stable _ _) fun op1 => ?_
  refine Keeps.bind (rl78GenStoreOperand_keeps stable _ _ notEs1 notCy1) fun _ => ?_
  exact rl78GenStoreOperand_keeps stable _ _ notEs notCy

theorem transMovs_keeps (notEs : ¬writesEs insn) (notCy : insn.operand0 ≠ .cy) :
    Keeps P (transMovs B ctx insn) := by
  refine Keeps.bind (loadByteReg_keeps .a) fun a => ?_
  refine Keeps.bind (rl78GenLoadOperand_keeps stable _ _) fun src => ?_
  refine Keeps.bind (rl78GenStoreOperand_keeps stable _ _ notEs notCy) fun _ => ?_
  refine Keeps.bind (setZ_keeps stable.data (boolWord_le _)) fun _ => ?_
  exact setCy_keeps stable.data (or_le_one (boolWord_le _) (boolWord_le _))

theorem arithmetic_keeps {op : Nat → Nat → Nat → Nat} {carry : Nat → Nat}
    {half : Nat → Nat → Nat → Nat} (carrySmall : ∀ result, carry result ≤ 1)
    (halfSmall : ∀ op0 op1 result, half op0 op1 result ≤ 1) (notEs : ¬writesEs insn)
    (notCy : insn.operand0 ≠ .cy) : Keeps P (arithmetic B ctx insn op carry half) := by
  refine Keeps.bind (rl78GenLoadOperand_keeps stable _ _) fun op0 => ?_
  refine Keeps.bind (rl78GenLoadOperand_keeps stable _ _) fun op1 => ?_
  refine Keeps.bind Keeps.get fun m => ?_
  refine Keeps.bind (rl78GenStoreOperand_keeps stable _ _ notEs notCy) fun _ => ?_
  exact setFlags_keeps stable.data (carrySmall _) (halfSmall _ _ _) (zeroByte_le _)

theorem transCmp_keeps : Keeps P (transCmp B ctx insn) := by
  refine Keeps.bind (rl78GenLoadOperand_keeps stable _ _) fun op0 => ?_
  refine Keeps.bind (rl78GenLoadOperand_keeps stable _ _) fun op1 => ?_
  exact setFlags_keeps stable.data (and_one_le _) (and_one_le _) (zeroByte_le _)

theorem transCmp0_keeps : Keeps P (transCmp0 B ctx insn) := by
  refine Keeps.bind (rl78GenLoadOperand_keeps stable _ _) fun op0 => ?_
  exact setFlags_keeps stable.data (and_one_le _) (and_one_le _) (zeroByte_le _)

theorem transCmps_keeps : Keeps P (transCmps B ctx insn) := by
  refine Keeps.bind (rl78GenLoadOperand_keeps stable _ _) fun x => ?_
  refine Keeps.bind (rl78GenLoadOperand_keeps stable _ _) fun op1 => ?_
  refine Keeps.bind (loadByteReg_keeps .a) fun a => ?_
  refine Keeps.bind (setAc_keeps stable.data (and_one_le _)) fun _ => ?_
  refine Keeps.bind (setZ_keeps stable.data (zeroByte_le _)) fun _ => ?_
  exact setCy_keeps stable.data
    (or_le_one (or_le_one (boolWord_le _) (boolWord_le _)) (boolWord_le _))

theorem arithmeticWord_keeps {op : Nat → Nat → Nat} {carry : Nat → Nat}
    (carrySmall : ∀ result, carry result ≤ 1) (notEs : ¬writesEs insn)
    (notCy : insn.operand0 ≠ .cy) : Keeps P (arithmeticWord B ctx insn op carry) := by
  refine Keeps.bind (rl78GenLoadOperand_keeps stable _ _) fun op0 => ?_
  refine Keeps.bind (rl78GenLoadOperand_keeps stable _ _) fun op1 => ?_
  refine Keeps.bind (rl78GenStoreOperand_keeps stable _ _ notEs notCy) fun _ => ?_
  exact setFlags_keeps stable.data (carrySmall _) (by omega) (zeroWord_le _)

theorem transCmpw_keeps : Keeps P (transCmpw B ctx insn) := by
  refine Keeps.bind (rl78GenLoadOperand_keeps stable _ _) fun op0 => ?_
  refine Keeps.bind (rl78GenLoadOperand_keeps stable _ _) fun op1 => ?_
  exact setFlags_keeps stable.data (and_one_le _) (by omega) (zeroWord_le _)

theorem transMulu_keeps : Keeps P transMulu := by
  refine Keeps.bind (loadByteReg_keeps .a) fun a => Keeps.bind (loadByteReg_keeps .x) fun x => ?_
  exact storeWordReg_keeps stable.data _ _

theorem step_keeps {op : Nat → Nat → Nat} {half : Nat → Nat → Nat → Nat}
    (halfSmall : ∀ op0 op1 result, half op0 op1 result ≤ 1) (notEs : ¬writesEs insn)
    (notCy : insn.operand0 ≠ .cy) : Keeps P (step B ctx insn op half) := by
  refine Keeps.bind (rl78GenLoadOperand_keeps stable _ _) fun src => ?_
  refine Keeps.bind (rl78GenStoreOperand_keeps stable _ _ notEs notCy) fun _ => ?_
  refine Keeps.bind (setAc_keeps stable.data (halfSmall _ _ _)) fun _ => ?_
  exact setZ_keeps stable.data (zeroByte_le _)

theorem stepWord_keeps {op : Nat → Nat → Nat} (notEs : ¬writesEs insn)
    (notCy : insn.operand0 ≠ .cy) : Keeps P (stepWord B ctx insn op) :=
  Keeps.bind (rl78GenLoadOperand_keeps stable _ _) fun _ =>
    rl78GenStoreOperand_keeps stable _ _ notEs notCy

theorem bitwise_keeps {op : Nat → Nat → Nat} (notEs : ¬writesEs insn)
    (notCy : insn.operand0 ≠ .cy) : Keeps P (bitwise B ctx insn op) := by
  refine Keeps.bind (rl78GenLoadOperand_keeps stable _ _) fun op0 => ?_
  refine Keeps.bind (rl78GenLoadOperand_keeps stable _ _) fun op1 => ?_
  refine Keeps.bind (setZ_keeps stable.data (boolWord_le _)) fun _ => ?_
  exact rl78GenStoreOperand_keeps stable _ _ notEs notCy

theorem transRor_keeps (notEs : ¬writesEs insn) (notCy : insn.operand0 ≠ .cy) :
    Keeps P (transRor B ctx insn) := by
  refine Keeps.bind (rl78GenLoadOperand_keeps stable _ _) fun src => ?_
  refine Keeps.bind (setCy_keeps stable.data (and_one_le _)) fun _ => ?_
  exact rl78GenStoreOperand_keeps stable _ _ notEs notCy

theorem transRol_keeps (isA : insn.operand0 = .byteReg .a) : Keeps P (transRol B ctx insn) := by
  unfold transRol
  rw [isA]
  refine Triple.bind (loadByteReg_triple .a) fun src => Triple.assume fun small => ?_
  refine Keeps.bind (setCy_keeps stable.data (top_bit_le small)) fun _ => ?_
  exact storeByteReg_keeps stable.data _ _

theorem transRorc_keeps : Keeps P transRorc := by
  refine Keeps.bind (loadByteReg_keeps .a) fun src => Keeps.bind Keeps.get fun m => ?_
  refine Keeps.bind (setCy_keeps stable.data (and_one_le _)) fun _ => ?_
  exact storeByteReg_keeps stable.data _ _

theorem transRolc_keeps : Keeps P transRolc := by
  refine Triple.bind (loadByteReg_triple .a) fun src => Triple.assume fun small => ?_
  refine Keeps.bind Keeps.get fun m => ?_
  refine Keeps.bind (setCy_keeps stable.data (top_bit_le small)) fun _ => ?_
  exact storeByteReg_keeps stable.data _ _

theorem transRolwc_keeps (notEs : ¬writesEs insn) (notCy : insn.operand0 ≠ .cy) :
    Keeps P (transRolwc B ctx insn) := by
  refine Keeps.bind (rl78GenLoadOperand_keeps stable _ _) fun src => ?_
  refine Keeps.bind Keeps.get fun m => ?_
  refine Keeps.bind (setCy_keeps stable.data (and_one_le _)) fun _ => ?_
  exact rl78GenStoreOperand_keeps stable _ _ notEs notCy

theorem shiftLogicalRight_keeps (notEs : ¬writesEs insn) (notCy : insn.operand0 ≠ .cy) :
    Keeps P (shiftLogicalRight B ctx insn) := by
  refine Keeps.bind (rl78GenLoadOperand_keeps stable _ _) fun src => ?_
  refine Keeps.bind (rl78GenLoadOperand_keeps stable _ _) fun shamt => ?_
  refine Keeps.bind (setCy_keeps stable.data (and_one_le _)) fun _ => ?_
  exact rl78GenStoreOperand_keeps stable _ _ notEs notCy

theorem shiftLeft_keeps (opsize : Nat) (notEs : ¬writesEs insn) (notCy : insn.operand0 ≠ .cy) :
    Keeps P (shiftLeft B ctx insn opsize) := by
  refine Keeps.bind (rl78GenLoadOperand_keeps stable _ _) fun src => ?_
  refine Keeps.bind (rl78GenLoadOperand_keeps stable _ _) fun shamt => ?_
  refine Keeps.bind (setCy_keeps stable.data (and_one_le _)) fun _ => ?_
  exact rl78GenStoreOperand_keeps stable _ _ notEs notCy

theorem shiftArithmeticRight_keeps (opsize : Nat) (notEs : ¬writesEs insn)
    (notCy : insn.operand0 ≠ .cy) : Keeps P (shiftArithmeticRight B ctx insn opsize) := by
  refine Keeps.bind (rl78GenLoadOperand_keeps stable _ _) fun src => ?_
  refine Keeps.bind (rl78GenLoadOperand_keeps stable _ _) fun shamt => ?_
  refine Keeps.bind (setCy_keeps stable.data (and_one_le _)) fun _ => ?_
  exact rl78GenStoreOperand_keeps stable _ _ notEs notCy

theorem changeBit_keeps {op : Nat → Nat} (carryIndex : insn.operand0.carryIndex = 0)
    (small : ∀ bit, bit ≤ 1 → op bit ≤ 1) : Keeps P (changeBit B ctx insn op) := by
  refine Triple.bind (rl78GenLoadBit_triple stable _) fun dst => Triple.assume fun range => ?_
  exact rl78GenStoreBit_keeps stable carryIndex (range.withBit (small _ range.1))

theorem bitwise1_keeps {op : Nat → Nat → Nat} (carryIndex : insn.operand0.carryIndex = 0)
    (small : ∀ dst src, dst ≤ 1 → src ≤ 1 → op dst src ≤ 1) :
    Keeps P (bitwise1 B ctx insn op) := by
  refine Triple.bind (rl78GenLoadBit_triple stable _) fun dst => Triple.assume fun range => ?_
  refine Triple.bind (rl78GenLoadBit_triple stable _) fun src => Triple.assume fun srcRange => ?_
  exact rl78GenStoreBit_keeps stable carryIndex (range.withBit (small _ _ range.1 srcRange.1))

theorem transMov1_keeps (carryIndex : insn.operand0.carryIndex = 0) :
    Keeps P (transMov1 B ctx insn) := by
  refine Triple.bind (rl78GenLoadBit_triple stable _) fun src => Triple.assume fun srcRange => ?_
  refine Triple.bind (rl78GenLoadBit_triple stable _) fun dst => Triple.assume fun range => ?_
  exact rl78GenStoreBit_keeps stable carryIndex (range.withBit srcRange.1)

theorem transSel_keeps : Keeps P (transSel insn) := by
  unfold transSel
  split
  next =>
    refine Keeps.modify fun m holds => stable.rbs m _ holds Nat.and_le_right
  next => exact Keeps.pure _

theorem translateStraight_keeps (regular : Regular insn) (notEs : ¬writesEs insn)
    (notSp : insn.mnemonic.movesSp = false) (notSkip : insn.mnemonic.skips = false) :
    Keeps P (translateStraight B ctx insn insn.mnemonic) := by
  have notCy := regular.notCy0
  have flag (result : Nat) : result &&& 1 ≤ 1 := and_one_le _
  unfold translateStraight
  split
  next => exact move_keeps stable _ notEs notCy
  next is =>
    exact exchange_keeps stable _ notEs (fun isEs => by simp [regular.esMov1 isEs] at is) notCy
      regular.notCy1
  iterate 2 next => exact storeConst_keeps stable _ _ notEs notCy
  next => exact move_keeps stable _ notEs notCy
  next is =>
    exact exchange_keeps stable _ notEs (fun isEs => by simp [regular.esMov1 isEs] at is) notCy
      regular.notCy1
  iterate 2 next => exact storeConst_keeps stable _ _ notEs notCy
  next => exact arithmetic_keeps stable (fun _ => flag _) (fun _ _ _ => flag _) notEs notCy
  next => exact arithmetic_keeps stable (fun _ => flag _) (fun _ _ _ => flag _) notEs notCy
  next => exact arithmetic_keeps stable (fun _ => flag _) (fun _ _ _ => flag _) notEs notCy
  next => exact arithmetic_keeps stable (fun _ => flag _) (fun _ _ _ => flag _) notEs notCy
  iterate 3 next => exact bitwise_keeps stable notEs notCy
  next => exact transCmp_keeps stable
  next => exact transCmp0_keeps stable
  next => exact transCmps_keeps stable
  next => exact transMovs_keeps stable notEs notCy
  iterate 2 next => exact arithmeticWord_keeps stable (fun _ => flag _) notEs notCy
  next => exact transCmpw_keeps stable
  next => exact transMulu_keeps stable
  iterate 2 next => exact step_keeps stable (fun _ _ _ => flag _) notEs notCy
  iterate 2 next => exact stepWord_keeps stable notEs notCy
  iterate 2 next => exact shiftLogicalRight_keeps stable notEs notCy
  iterate 2 next => exact shiftLeft_keeps stable _ notEs notCy
  iterate 2 next => exact shiftArithmeticRight_keeps stable _ notEs notCy
  next => exact transRor_keeps stable notEs notCy
  next is => exact transRol_keeps stable (regular.rolA is)
  next => exact transRorc_keeps stable
  next => exact transRolc_keeps stable
  next => exact transRolwc_keeps stable notEs notCy
  next => exact transMov1_keeps stable regular.carryIndex
  next => exact bitwise1_keeps stable regular.carryIndex fun _ _ dst _ => Nat.and_le_left.trans dst
  next => exact bitwise1_keeps stable regular.carryIndex fun _ _ => or_le_one
  next => exact bitwise1_keeps stable regular.carryIndex fun _ _ => xor_le_one
  iterate 2 next => exact changeBit_keeps stable regular.carryIndex fun _ _ => by omega
  next => exact changeBit_keeps stable regular.carryIndex fun _ bit => xor_le_one bit (by omega)
  iterate 2 next is => simp [is, Mnemonic.movesSp] at notSp
  iterate 6 next is => simp [is, Mnemonic.skips] at notSkip
  next => exact transSel_keeps stable
  next => exact Keeps.pure _

end

end Tlib.Rl78
