import Mathlib.Algebra.Order.Ring.Int
import Tlib.Execution.InstructionCount
import Tlib.Library.SignedLeb128

/-!
Contract: the table behind a block's host code that leads from a host PC to guest state.

Owns: the rows that the code generator records, their encoding as differences, and the row that the
search finds.
-/

namespace Tlib.Execution.SearchTable

open Tlib.Library.SignedLeb128 BitVec List Nat Option

/-! ### Signed deltas -/

section Deltas

variable {w : Nat}

theorem low_group_toNat (val : BitVec w) :
    (val.signExtend 32 &&& 0x7f#32).toNat = (val.toInt % 128).toNat := by
  rw [toNat_and, show (0x7f#32 : BitVec 32).toNat = 2 ^ 7 - 1 from rfl,
    and_two_pow_sub_one_eq_mod]
  rw [signExtend, toNat_ofInt]
  omega

theorem sshiftRight_seven (val : BitVec w) : (val.sshiftRight 7).toInt = val.toInt / 128 := by
  rw [toInt_sshiftRight, Int.shiftRight_eq_div_pow]
  rfl

theorem last_group_iff (val : BitVec w) :
    ((val.sshiftRight 7 = 0 ∧ (val.signExtend 32 &&& 0x7f#32) &&& 0x40#32 = 0) ∨
      ((val.sshiftRight 7).toInt = -1 ∧ (val.signExtend 32 &&& 0x7f#32) &&& 0x40#32 ≠ 0)) ↔
      Fits val.toInt := by
  have zero : val.sshiftRight 7 = 0 ↔ val.toInt / 128 = 0 := by
    rw [← sshiftRight_seven, ← toInt_inj, ofNat_eq_ofNat, toInt_zero]
  have sign : (val.signExtend 32 &&& 0x7f#32) &&& 0x40#32 = 0#32 ↔
      (val.toInt % 128).toNat / 2 ^ 6 % 2 = 0 := by
    rw [← low_group_toNat, show (0x40#32 : BitVec 32) = twoPow 32 6 by decide]
    exact mask_eq_zero_iff _ (by decide)
  rw [zero, sshiftRight_seven, ofNat_eq_ofNat, Ne, sign]
  unfold Fits
  omega

/-- `byte` is an `int`, and the shift repeats the sign. -/
def encodeSleb128 (val : BitVec w) : List (BitVec 8) :=
  let byte : BitVec 32 := val.signExtend 32 &&& 0x7f
  let rest := val.sshiftRight 7
  if (rest = 0 ∧ byte &&& 0x40 = 0) ∨ (rest.toInt = -1 ∧ byte &&& 0x40 ≠ 0) then
    [byte.setWidth 8]
  else (byte ||| 0x80).setWidth 8 :: encodeSleb128 rest
termination_by val.toInt.natAbs
decreasing_by
  rename_i more
  have wide : ¬ Fits val.toInt := fun fits => more ((last_group_iff val).mpr fits)
  unfold Fits at wide
  rw [sshiftRight_seven]
  omega

/-- The `do` loop. `none` is a read behind the table or a shift by the width or more. -/
def decodeGroups (val : BitVec w) (shift : Nat) :
    List (BitVec 8) → Option (BitVec w × Nat × BitVec 8 × List (BitVec 8))
  | [] => none
  | byte :: p =>
    if shift < w then
      let next := val ||| ((byte &&& 0x7f#8).setWidth w) <<< shift
      if byte &&& 0x80#8 ≠ 0#8 then decodeGroups next (shift + 7) p
      else some (next, shift + 7, byte, p)
    else none

def decodeSleb128 (p : List (BitVec 8)) : Option (BitVec w × List (BitVec 8)) := do
  let (val, shift, byte, rest) ← decodeGroups 0 0 p
  if shift < w ∧ byte &&& 0x40#8 ≠ 0#8 then
    return (val ||| (-BitVec.ofNat w 1) <<< shift, rest)
  return (val, rest)

theorem encodeSleb128_eq (val : BitVec w) : encodeSleb128 val = encode val.toInt := by
  induction val using encodeSleb128.induct with
  | case1 val byte rest last =>
    have fits : Fits val.toInt := (last_group_iff val).mp last
    have low : byte.setWidth 8 = BitVec.ofInt 8 (val.toInt % 128) := by
      apply eq_of_toNat_eq
      rw [toNat_setWidth, toNat_ofInt]
      have value : byte.toNat = (val.toInt % 128).toNat := low_group_toNat val
      omega
    rw [encodeSleb128, if_pos last, encode_of_fits fits, ← low]
  | case2 val byte rest more ih =>
    have wide : ¬ Fits val.toInt := fun fits => more ((last_group_iff val).mpr fits)
    have low : (byte ||| 0x80).setWidth 8 = BitVec.ofInt 8 (val.toInt % 128 + 128) := by
      apply eq_of_toNat_eq
      have value : byte.toNat = (val.toInt % 128).toNat := low_group_toNat val
      have sum : byte.toNat ||| 0x80 = 2 ^ 7 * 1 + byte.toNat := by
        have less : byte.toNat < 2 ^ 7 := by omega
        rw [two_pow_add_eq_or_of_lt less, Nat.or_comm]
      rw [toNat_setWidth, toNat_ofInt, toNat_or,
        show (0x80 : BitVec 32).toNat = 0x80 from rfl, sum]
      omega
    rw [encodeSleb128, if_neg more, encode_of_wide wide, ih, ← low, sshiftRight_seven]

theorem decodeGroups_last {val : BitVec w} {shift : Nat} {byte : BitVec 8}
    (inside : shift < w) (last : byte &&& 0x80#8 = 0#8) (p : List (BitVec 8)) :
    decodeGroups val shift (byte :: p) =
      some (val ||| ((byte &&& 0x7f#8).setWidth w) <<< shift, shift + 7, byte, p) := by
  rw [decodeGroups, if_pos inside]
  rw [if_neg (not_not_intro last)]

theorem decodeGroups_more {val : BitVec w} {shift : Nat} {byte : BitVec 8}
    (inside : shift < w) (more : byte &&& 0x80#8 ≠ 0#8) (p : List (BitVec 8)) :
    decodeGroups val shift (byte :: p) =
      decodeGroups (val ||| ((byte &&& 0x7f#8).setWidth w) <<< shift) (shift + 7) p := by
  rw [decodeGroups, if_pos inside]
  rw [if_pos more]

def extendSign (decoded : BitVec w × Nat × BitVec 8 × List (BitVec 8)) :
    BitVec w × List (BitVec 8) :=
  if decoded.2.1 < w ∧ decoded.2.2.1 &&& 0x40#8 ≠ 0#8 then
    (decoded.1 ||| (-BitVec.ofNat w 1) <<< decoded.2.1, decoded.2.2.2)
  else (decoded.1, decoded.2.2.2)

theorem decodeSleb128_eq (p : List (BitVec 8)) :
    decodeSleb128 p = (decodeGroups (0 : BitVec w) 0 p).map extendSign := by
  unfold decodeSleb128 extendSign
  cases decodeGroups (0 : BitVec w) 0 p with
  | none => rfl
  | some decoded =>
    dsimp only [bind_eq_bind, bind_some, map_some]
    split_ifs
    · rfl
    · rfl

theorem extendSign_last {value : Int} (fits : Fits value) {val group : BitVec w} {shift : Nat}
    (less : val.toNat < 2 ^ shift) (seven : group.toNat = (value % 128).toNat)
    (p : List (BitVec 8)) :
    extendSign (val ||| group <<< shift, shift + 7, BitVec.ofInt 8 (value % 128), p) =
      (BitVec.ofInt w (val.toNat + value * 2 ^ shift), p) := by
  have power : (2 : Int) ^ (shift + 7) = 128 * 2 ^ shift := by ring
  have natural : (group.toNat : Int) = value % 128 := by omega
  have sign := sign_iff fits
  obtain ⟨low, high⟩ := fits
  unfold extendSign
  split_ifs with extended
  · obtain ⟨room, negative⟩ := extended
    have below : value < 0 := sign.mp negative
    have sum := or_above_toNat less (by omega : group.toNat < 2 ^ 7) room.le
    have narrow : (val ||| group <<< shift).toNat < 2 ^ (shift + 7) := by
      rw [sum]
      exact group_above_lt less (by omega)
    have total : ((val ||| group <<< shift).toNat : Int) - 2 ^ (shift + 7) =
        val.toNat + value * 2 ^ shift := by
      rw [sum, power]
      push_cast
      rw [natural, show value % 128 = value + 128 by omega]
      ring
    rw [or_ones_above narrow, total]
  · rw [or_above less, natural]
    congr 1
    apply ofInt_congr
    by_cases room : shift + 7 < w
    · have above : 0 ≤ value := by
        by_contra below
        exact extended ⟨room, sign.mpr (by omega)⟩
      rw [Int.emod_eq_of_lt above (by omega)]
    · have whole : (2 : Int) ^ w ∣ 2 ^ (shift + 7) := pow_dvd_pow 2 (by omega)
      obtain ⟨factor, product⟩ := whole
      have apart : val.toNat + value * 2 ^ shift =
          val.toNat + value % 128 * 2 ^ shift + 2 ^ w * (factor * (value / 128)) := by
        rw [← Int.mul_assoc, ← product, power]
        nth_rewrite 1 [← Int.emod_add_mul_ediv value 128]
        ring
      rw [apart, Int.add_mul_emod_self_left]

theorem decodeGroups_encode {value : Int} {val : BitVec w} {shift : Nat} (wide : 7 ≤ w)
    (inside : shift < w) (less : val.toNat < 2 ^ shift) (low : -2 ^ (w - 1 - shift) ≤ value)
    (high : value < 2 ^ (w - 1 - shift)) (p : List (BitVec 8)) :
    (decodeGroups val shift (encode value ++ p)).map extendSign =
      some (BitVec.ofInt w (val.toNat + value * 2 ^ shift), p) := by
  have narrow : 2 ^ 7 ≤ 2 ^ w := Nat.pow_le_pow_right (by omega) wide
  induction value using encode.induct generalizing val shift with
  | case1 value fits =>
    have group : (((BitVec.ofInt 8 (value % 128)) &&& 0x7f#8).setWidth w).toNat =
        (value % 128).toNat := by
      rw [toNat_setWidth, group_toNat, mod_eq_of_lt (by omega)]
    rw [encode_of_fits fits, singleton_append, decodeGroups_last inside (more_iff value).1,
      map_some, extendSign_last fits less group]
  | case2 value big ih =>
    have group : (((BitVec.ofInt 8 (value % 128 + 128)) &&& 0x7f#8).setWidth w).toNat =
        (value % 128).toNat := by
      rw [toNat_setWidth, group_more_toNat, mod_eq_of_lt (by omega)]
    have room : shift + 7 < w := by
      by_contra short
      have bound : (2 : Int) ^ (w - 1 - shift) ≤ 2 ^ 6 := pow_le_pow_right₀ (by omega) (by omega)
      unfold Fits at big
      omega
    have split : (2 : Int) ^ (w - 1 - shift) = 128 * 2 ^ (w - 1 - (shift + 7)) := by
      rw [show w - 1 - shift = w - 1 - (shift + 7) + 7 by omega]
      ring
    have seven : (((BitVec.ofInt 8 (value % 128 + 128)) &&& 0x7f#8).setWidth w).toNat < 2 ^ 7 := by
      omega
    have sum := or_above_toNat less seven room.le
    have next : (val ||| ((BitVec.ofInt 8 (value % 128 + 128)) &&& 0x7f#8).setWidth w <<<
        shift).toNat < 2 ^ (shift + 7) := by
      rw [sum]
      exact group_above_lt less seven
    rw [encode_of_wide big, List.cons_append, decodeGroups_more inside (more_iff value).2,
      ih room next (by omega) (by omega), sum,
      group]
    have whole : ((val.toNat + (value % 128).toNat * 2 ^ shift : Nat) : Int) +
        value / 128 * 2 ^ (shift + 7) = val.toNat + value * 2 ^ shift := by
      push_cast
      rw [Int.toNat_of_nonneg (by omega)]
      nth_rewrite 3 [← Int.emod_add_mul_ediv value 128]
      ring
    rw [whole]

theorem decodeSleb128_encodeSleb128 (wide : 7 ≤ w) (val : BitVec w) (p : List (BitVec 8)) :
    decodeSleb128 (encodeSleb128 val ++ p) = some (val, p) := by
  have low : -2 ^ (w - 1 - 0) ≤ val.toInt := le_toInt val
  have high : val.toInt < 2 ^ (w - 1 - 0) := toInt_lt
  have zero : (0 : BitVec w).toNat < 2 ^ 0 := by
    rw [ofNat_eq_ofNat, toNat_zero]
    decide
  rw [decodeSleb128_eq, encodeSleb128_eq, decodeGroups_encode wide (by omega) zero low high,
    ofNat_eq_ofNat, toNat_zero, cast_zero, Int.zero_add, Int.pow_zero,
    Int.mul_one, ofInt_toInt]

end Deltas

/-! ### The rows that the code generator records -/

/-- A TCG opcode, as far as the rows go. -/
inductive TcgOp (w : Nat) where
  | insnStart (args : List (BitVec w))
  | other (hostBytes : Nat)

def TcgOp.hostBytes {w : Nat} : TcgOp w → Nat
  | .insnStart _ => 0
  | .other hostBytes => hostBytes

def TcgOp.isInsnStart {w : Nat} : TcgOp w → Bool
  | .insnStart _ => true
  | .other _ => false

/-- `gen_insn_data[i]` and `gen_insn_end_off[i]`. -/
structure InsnRow (w : Nat) where
  data : List (BitVec w)
  endOff : BitVec 16

section Rows

variable {w : Nat}

/-- `tcg_current_code_size` behind all opcodes. -/
def codeSize (ops : List (TcgOp w)) : Nat := (ops.map TcgOp.hostBytes).sum

/-- The loop of `tcg_gen_code_common`; `current` is the row `num_insns`. -/
def tcgGenCodeCommon : Option (List (BitVec w)) → Nat → List (TcgOp w) →
    List (List (BitVec w) × Nat)
  | none, _, [] => []
  | some data, size, [] => [(data, size)]
  | none, size, .insnStart args :: ops => tcgGenCodeCommon (some args) size ops
  | some data, size, .insnStart args :: ops =>
    (data, size) :: tcgGenCodeCommon (some args) size ops
  | current, size, .other hostBytes :: ops => tcgGenCodeCommon current (size + hostBytes) ops

/-- What the arrays keep of a row: the offset is a `uint16_t`. -/
def storeRow (row : List (BitVec w) × Nat) : InsnRow w :=
  { data := row.1, endOff := BitVec.ofNat 16 row.2 }

def encodeDeltas : List (BitVec w) → List (BitVec w) → List (BitVec 8)
  | prev :: prevs, word :: words => encodeSleb128 (word - prev) ++ encodeDeltas prevs words
  | _, _ => []

def encodeRow (prev row : InsnRow w) : List (BitVec 8) :=
  encodeDeltas prev.data row.data ++ encodeSleb128 (row.endOff.setWidth w - prev.endOff.setWidth w)

def encodeRows : InsnRow w → List (InsnRow w) → List (BitVec 8)
  | _, [] => []
  | prev, row :: rows => encodeRow prev row ++ encodeRows row rows

/-- `data[j] += decode_sleb128(&p)` for every word. -/
def addDeltas : List (BitVec w) → List (BitVec 8) → Option (List (BitVec w) × List (BitVec 8))
  | [], p => some ([], p)
  | word :: words, p => do
    let (delta, p) ← decodeSleb128 p
    let (rest, p) ← addDeltas words p
    return ((word + delta) :: rest, p)

/-- The next row's words, the delta of its end offset, and the rest of the table. -/
def nextRow (data : List (BitVec w)) (p : List (BitVec 8)) :
    Option (List (BitVec w) × BitVec w × List (BitVec 8)) := do
  let (data, p) ← addDeltas data p
  let (delta, p) ← decodeSleb128 p
  return (data, delta, p)

/-- A block behind `tcg_gen_code`, with `1 + extra` words a row. -/
structure TranslatedBlock (w extra h : Nat) where
  pc : BitVec w
  /-- `tc_ptr`, as the host executes it. -/
  tcPtr : BitVec h
  ops : List (TcgOp w)
  icount : Nat
  insnStartWords : ∀ args, TcgOp.insnStart args ∈ ops → args.length = 1 + extra
  counted : icount = ops.countP TcgOp.isInsnStart
  inMemory : tcPtr.toNat + codeSize ops < 2 ^ h

namespace TranslatedBlock

variable {extra h : Nat}

def insns (tb : TranslatedBlock w extra h) : List (List (BitVec w) × Nat) :=
  tcgGenCodeCommon none 0 tb.ops

def rows (tb : TranslatedBlock w extra h) : List (InsnRow w) := tb.insns.map storeRow

def seed (tb : TranslatedBlock w extra h) : InsnRow w :=
  { data := tb.pc :: List.replicate extra (BitVec.ofNat w 0), endOff := 0#16 }

def encodeSearch (tb : TranslatedBlock w extra h) : List (BitVec 8) :=
  encodeRows tb.seed (tb.rows.take tb.icount)

end TranslatedBlock

def currentPc {h : Nat} (pcIsHost : Bool) (hostPc : BitVec h) (data : List (BitVec w)) : Nat :=
  if pcIsHost then hostPc.toNat else (data.headD (BitVec.ofNat w 0)).toNat

/-- The loop of `cpu_get_data_for_pc`, from row `i` on. -/
def searchTable {h : Nat} (searchedPc : BitVec h) (pcIsHost : Bool) : Nat → Nat →
    List (BitVec w) → BitVec h → List (BitVec 8) → Bool → Option (Int × List (BitVec w))
  | 0, _, data, _, _, _ => some (-1, data)
  | remaining + 1, i, data, hostPc, p, skipCurrentInstruction => do
    let (data, delta, p) ← nextRow data p
    let hostPc := hostPc + delta.signExtend h
    if searchedPc.toNat < currentPc pcIsHost hostPc data then
      if skipCurrentInstruction then
        searchTable searchedPc pcIsHost remaining (i + 1) data hostPc p false
      else return ((i : Int), data)
    else searchTable searchedPc pcIsHost remaining (i + 1) data hostPc p skipCurrentInstruction

/-- The result and the array `data`. -/
def cpuGetDataForPc {extra h : Nat} (tb : TranslatedBlock w extra h) (tcSearch : List (BitVec 8))
    (searchedPc : BitVec h) (pcIsHost skipCurrentInstruction : Bool) :
    Option (Int × List (BitVec w)) :=
  if searchedPc.toNat < currentPc pcIsHost tb.tcPtr tb.seed.data then some (-1, tb.seed.data)
  else searchTable searchedPc pcIsHost tb.icount 1 tb.seed.data tb.tcPtr tcSearch
    skipCurrentInstruction

/-! ### Reading the table -/

theorem addDeltas_encode (wide : 7 ≤ w) (prevs words : List (BitVec w))
    (same : prevs.length = words.length) (p : List (BitVec 8)) :
    addDeltas prevs (encodeDeltas prevs words ++ p) = some (words, p) := by
  induction prevs generalizing words with
  | nil =>
    rw [length_nil, eq_comm, length_eq_zero_iff] at same
    rw [same]
    rfl
  | cons prev prevs ih =>
    cases words with
    | nil => exact absurd same (by simp)
    | cons word words =>
      have rest := ih words (by simpa using same)
      unfold addDeltas encodeDeltas
      rw [List.append_assoc, decodeSleb128_encodeSleb128 wide]
      dsimp only [bind_eq_bind, bind_some]
      rw [rest]
      dsimp only [bind_some, Option.pure_def]
      rw [BitVec.add_comm, BitVec.sub_add_cancel]

theorem nextRow_encode (wide : 7 ≤ w) {prev row : InsnRow w}
    (same : prev.data.length = row.data.length) (p : List (BitVec 8)) :
    nextRow prev.data (encodeRow prev row ++ p) =
      some (row.data, row.endOff.setWidth w - prev.endOff.setWidth w, p) := by
  unfold nextRow encodeRow
  rw [List.append_assoc, addDeltas_encode wide _ _ same]
  dsimp only [bind_eq_bind, bind_some]
  rw [decodeSleb128_encodeSleb128 wide]
  rfl

theorem offset_delta (n : Nat) (off prev : BitVec 16) :
    off.setWidth n - prev.setWidth n = BitVec.ofInt n (off.toNat - prev.toNat) := by
  rw [Int.sub_eq_add_neg, ofInt_add, ofInt_neg, ofInt_natCast,
    ofInt_natCast, ofNat_toNat, ofNat_toNat, BitVec.sub_eq_add_neg]

theorem signExtend_delta (wide : 16 < w) (h : Nat) (off prev : BitVec 16) :
    (off.setWidth w - prev.setWidth w).signExtend h = off.setWidth h - prev.setWidth h := by
  have room : 2 ^ 17 ≤ 2 ^ w := Nat.pow_le_pow_right (by omega) wide
  have small : (BitVec.ofInt w (off.toNat - prev.toNat)).toInt = off.toNat - prev.toNat := by
    rw [toInt_ofInt]
    exact Int.bmod_eq_of_le (by omega) (by omega)
  rw [offset_delta, offset_delta, signExtend, small]

def findRow (above : InsnRow w → Bool) : Nat → List (BitVec w) → List (InsnRow w) → Bool →
    Int × List (BitVec w)
  | _, data, [], _ => (-1, data)
  | i, _, row :: rows, skipCurrentInstruction =>
    if above row then
      if skipCurrentInstruction then findRow above (i + 1) row.data rows false
      else ((i : Int), row.data)
    else findRow above (i + 1) row.data rows skipCurrentInstruction

theorem searchTable_encode {h : Nat} (wide : 16 < w) (tcPtr searchedPc : BitVec h)
    (pcIsHost : Bool) (rows : List (InsnRow w)) (i : Nat) (prev : InsnRow w) (words : Nat)
    (prevWords : prev.data.length = words) (rowWords : ∀ row ∈ rows, row.data.length = words)
    (skipCurrentInstruction : Bool) :
    searchTable searchedPc pcIsHost rows.length i prev.data (tcPtr + prev.endOff.setWidth h)
      (encodeRows prev rows) skipCurrentInstruction =
      some (findRow (fun row => decide (searchedPc.toNat <
        currentPc pcIsHost (tcPtr + row.endOff.setWidth h) row.data)) i prev.data rows
        skipCurrentInstruction) := by
  induction rows generalizing i prev skipCurrentInstruction with
  | nil => rfl
  | cons row rows ih =>
    have here : row.data.length = words := rowWords row mem_cons_self
    have hostPc : tcPtr + prev.endOff.setWidth h + (row.endOff.setWidth h -
        prev.endOff.setWidth h) = tcPtr + row.endOff.setWidth h := by
      rw [BitVec.add_assoc, BitVec.add_comm (prev.endOff.setWidth h), BitVec.sub_add_cancel]
    have rest := ih (i + 1) row here
      fun later member => rowWords later (mem_cons_of_mem _ member)
    rw [length_cons, searchTable, encodeRows,
      nextRow_encode (by omega) (by rw [prevWords, here])]
    dsimp only [bind_eq_bind, bind_some]
    rw [signExtend_delta wide, hostPc, findRow, rest, rest]
    simp only [decide_eq_true_eq]
    split_ifs
    · rfl
    · rfl
    · rfl

/-! ### The row that is found -/

theorem findRow_pass (above : InsnRow w → Bool) {before : List (InsnRow w)}
    (passed : ∀ row ∈ before, above row = false) (i : Nat) (data : List (BitVec w))
    (row : InsnRow w) (after : List (InsnRow w)) (skipCurrentInstruction : Bool) :
    findRow above i data (before ++ row :: after) skipCurrentInstruction =
      findRow above (i + before.length) row.data (row :: after) skipCurrentInstruction := by
  induction before generalizing i data with
  | nil => rfl
  | cons head before ih =>
    have headPassed := passed head mem_cons_self
    rw [List.cons_append, findRow, headPassed, if_neg Bool.false_ne_true,
      ih fun later member => passed later (mem_cons_of_mem _ member),
      length_cons, Nat.add_right_comm, Nat.add_assoc]

theorem findRow_none (above : InsnRow w → Bool) {rows : List (InsnRow w)}
    (passed : ∀ row ∈ rows, above row = false) (i : Nat) (data : List (BitVec w))
    (skipCurrentInstruction : Bool) :
    (findRow above i data rows skipCurrentInstruction).1 = -1 := by
  induction rows generalizing i data with
  | nil => rfl
  | cons head rows ih =>
    have headPassed := passed head mem_cons_self
    rw [findRow, headPassed, if_neg Bool.false_ne_true]
    exact ih
      (fun later member => passed later (mem_cons_of_mem _ member)) _ _

/-! ### The instructions of a block -/

theorem tcgGenCodeCommon_length (current : Option (List (BitVec w))) (size : Nat)
    (ops : List (TcgOp w)) :
    (tcgGenCodeCommon current size ops).length =
      (if current.isSome then 1 else 0) + ops.countP TcgOp.isInsnStart := by
  fun_induction tcgGenCodeCommon current size ops with
  | case1 | case2 => rfl
  | case3 size args ops ih =>
    rw [ih, countP_cons]
    simp [TcgOp.isInsnStart, Nat.add_comm]
  | case4 data size args ops ih =>
    rw [length_cons, ih, countP_cons]
    simp [TcgOp.isInsnStart]
    omega
  | case5 current size hostBytes ops ih =>
    rw [ih, countP_cons]
    simp [TcgOp.isInsnStart]

theorem tcgGenCodeCommon_words {words : Nat} (current : Option (List (BitVec w))) (size : Nat)
    (ops : List (TcgOp w)) (currentWords : ∀ data, current = some data → data.length = words)
    (opsWords : ∀ args, TcgOp.insnStart args ∈ ops → args.length = words) :
    ∀ row ∈ tcgGenCodeCommon current size ops, row.1.length = words := by
  fun_induction tcgGenCodeCommon current size ops with
  | case1 => exact fun row member => absurd member not_mem_nil
  | case2 data size =>
    intro row member
    rw [mem_singleton] at member
    rw [member]
    exact currentWords data rfl
  | case3 size args ops ih =>
    refine ih ?_ fun later member =>
      opsWords later (mem_cons_of_mem _ member)
    intro data same
    rw [← some.inj same]
    exact opsWords args mem_cons_self
  | case4 data size args ops ih =>
    intro row member
    rw [mem_cons] at member
    obtain rfl | member := member
    · exact currentWords data rfl
    · refine ih ?_
        (fun later inside => opsWords later (mem_cons_of_mem _ inside)) row member
      intro other same
      rw [← some.inj same]
      exact opsWords args mem_cons_self
  | case5 current size hostBytes ops ih =>
    exact ih currentWords fun later member =>
      opsWords later (mem_cons_of_mem _ member)

section

variable (current : Option (List (BitVec w))) (size : Nat) (ops : List (TcgOp w))

include current size ops

theorem tcgGenCodeCommon_le : ∀ row ∈ tcgGenCodeCommon current size ops,
      size ≤ row.2 ∧ row.2 ≤ size + codeSize ops := by
  fun_induction tcgGenCodeCommon current size ops with
  | case1 => exact fun row member => absurd member not_mem_nil
  | case2 data size =>
    intro row member
    rw [mem_singleton] at member
    rw [member]
    exact ⟨Nat.le_refl _, Nat.le_add_right _ _⟩
  | case3 size args ops ih =>
    intro row member
    have bounds := ih row member
    simp only [codeSize, map_cons, sum_cons, TcgOp.hostBytes] at bounds ⊢
    omega
  | case4 data size args ops ih =>
    intro row member
    simp only [codeSize, map_cons, sum_cons, TcgOp.hostBytes] at ih ⊢
    rw [mem_cons] at member
    obtain rfl | member := member
    · exact ⟨Nat.le_refl _, Nat.le_add_right _ _⟩
    · have bounds := ih row member
      omega
  | case5 current size hostBytes ops ih =>
    intro row member
    have bounds := ih row member
    simp only [codeSize, map_cons, sum_cons, TcgOp.hostBytes] at bounds ⊢
    omega

theorem tcgGenCodeCommon_increasing :
    (tcgGenCodeCommon current size ops).Pairwise fun row later => row.2 ≤ later.2 := by
  fun_induction tcgGenCodeCommon current size ops with
  | case1 => exact List.Pairwise.nil
  | case2 => exact pairwise_singleton _ _
  | case3 size args ops ih => exact ih
  | case4 data size args ops ih =>
    refine pairwise_cons.mpr ⟨?_, ih⟩
    intro later member
    exact (tcgGenCodeCommon_le _ _ _ later member).1
  | case5 current size hostBytes ops ih => exact ih

theorem tcgGenCodeCommon_last (present : tcgGenCodeCommon current size ops ≠ []) :
    ∃ before data, tcgGenCodeCommon current size ops = before ++ [(data, size + codeSize ops)] := by
  fun_induction tcgGenCodeCommon current size ops with
  | case1 => exact absurd rfl present
  | case2 data size => exact ⟨[], data, rfl⟩
  | case3 size args ops ih =>
    obtain ⟨before, data, rows⟩ := ih present
    rw [rows]
    simp [codeSize, TcgOp.hostBytes]
  | case4 data size args ops ih =>
    have more : tcgGenCodeCommon (some args) size ops ≠ [] := by
      rw [← length_pos_iff, tcgGenCodeCommon_length]
      simp
    obtain ⟨before, lastData, rows⟩ := ih more
    refine ⟨(data, size) :: before, lastData, ?_⟩
    rw [rows]
    simp [codeSize, TcgOp.hostBytes]
  | case5 current size hostBytes ops ih =>
    obtain ⟨before, data, rows⟩ := ih present
    rw [rows]
    simp [codeSize, TcgOp.hostBytes, Nat.add_assoc]

end

namespace TranslatedBlock

variable {extra h : Nat}

section

variable (tb : TranslatedBlock w extra h)

include tb

theorem insns_length : tb.insns.length = tb.icount := by
  rw [tb.counted, insns, tcgGenCodeCommon_length]
  simp

theorem rows_length : tb.rows.length = tb.icount := by
  rw [rows, length_map, insns_length]

theorem rows_words : ∀ row ∈ tb.rows, row.data.length = 1 + extra := by
  intro row member
  obtain ⟨insn, inside, rfl⟩ := List.mem_map.mp member
  exact tcgGenCodeCommon_words none 0 tb.ops (fun data same => absurd same (by simp))
    tb.insnStartWords insn inside

theorem seed_words : tb.seed.data.length = 1 + extra := by
  rw [seed, length_cons, length_replicate, Nat.add_comm]

theorem encodeSearch_eq : tb.encodeSearch = encodeRows tb.seed tb.rows := by
  rw [encodeSearch, ← rows_length, take_length]

end

def above (tb : TranslatedBlock w extra h) (searchedPc : BitVec h) (pcIsHost : Bool)
    (row : InsnRow w) : Bool :=
  decide (searchedPc.toNat < currentPc pcIsHost (tb.tcPtr + row.endOff.setWidth h) row.data)

theorem cpuGetDataForPc_encodeSearch (wide : 16 < w) (tb : TranslatedBlock w extra h)
    (searchedPc : BitVec h) (pcIsHost skipCurrentInstruction : Bool) :
    cpuGetDataForPc tb tb.encodeSearch searchedPc pcIsHost skipCurrentInstruction =
      if searchedPc.toNat < currentPc pcIsHost tb.tcPtr tb.seed.data then
        some (-1, tb.seed.data)
      else some (findRow (tb.above searchedPc pcIsHost) 1 tb.seed.data tb.rows
        skipCurrentInstruction) := by
  have searched := searchTable_encode wide tb.tcPtr searchedPc pcIsHost tb.rows 1 tb.seed
    (1 + extra) tb.seed_words tb.rows_words skipCurrentInstruction
  have start : tb.tcPtr + tb.seed.endOff.setWidth h = tb.tcPtr := by
    rw [seed, setWidth_zero]
    exact BitVec.add_zero _
  rw [start, rows_length] at searched
  rw [cpuGetDataForPc, encodeSearch_eq, searched]
  rfl

theorem above_iff (tb : TranslatedBlock w extra h) {insn : List (BitVec w) × Nat}
    (member : insn ∈ tb.insns) (searchedPc : BitVec h) :
    tb.above searchedPc true (storeRow insn) = true ↔
      searchedPc.toNat < tb.tcPtr.toNat + insn.2 % 2 ^ 16 := by
  have bound : insn.2 ≤ 0 + codeSize tb.ops := (tcgGenCodeCommon_le _ _ _ insn member).2
  have memory := tb.inMemory
  have hostPc : (tb.tcPtr + (storeRow insn).endOff.setWidth h).toNat =
      tb.tcPtr.toNat + insn.2 % 2 ^ 16 := by
    rw [storeRow, toNat_add, toNat_setWidth, toNat_ofNat,
      add_mod_mod, mod_eq_of_lt (by omega)]
  rw [above, decide_eq_true_iff, currentPc, if_pos rfl, hostPc]

/-- Where the host code of instruction `k` starts; the first one has the block's header. -/
def codeStart (tb : TranslatedBlock w extra h) : Nat → Nat
  | 0 => 0
  | k + 1 => (tb.insns[k]?.map Prod.snd).getD 0

/-- A host PC in the code of instruction `k`, counted from zero. -/
def InCode (tb : TranslatedBlock w extra h) (k : Nat) (insn : List (BitVec w) × Nat)
    (hostPc : BitVec h) : Prop :=
  tb.insns[k]? = some insn ∧ tb.tcPtr.toNat + tb.codeStart k ≤ hostPc.toNat ∧
    hostPc.toNat < tb.tcPtr.toNat + insn.2

theorem codeStart_succ (tb : TranslatedBlock w extra h) {k : Nat} (inside : k < tb.insns.length) :
    tb.codeStart (k + 1) = tb.insns[k].2 := by
  rw [codeStart, List.getElem?_eq_getElem inside]
  rfl

theorem le_codeStart (tb : TranslatedBlock w extra h) {j k : Nat} (less : j < k)
    (inside : k ≤ tb.insns.length) : tb.insns[j].2 ≤ tb.codeStart k := by
  obtain ⟨last, rfl⟩ : ∃ last, k = last + 1 := ⟨k - 1, by omega⟩
  have present : last < tb.insns.length := by omega
  have increasing := pairwise_iff_getElem.mp (tcgGenCodeCommon_increasing none 0 tb.ops)
  rw [tb.codeStart_succ present]
  obtain same | before := Nat.eq_or_lt_of_le (le_of_lt_succ less)
  · subst same
    exact Nat.le_refl _
  · exact increasing j last (Nat.lt_trans before present) present before

theorem insns_split (tb : TranslatedBlock w extra h) {k : Nat} {insn : List (BitVec w) × Nat}
    (present : tb.insns[k]? = some insn) :
    ∃ before after, tb.insns = before ++ insn :: after ∧ before.length = k ∧
      after[0]? = tb.insns[k + 1]? ∧ ∀ other ∈ before, other.2 ≤ tb.codeStart k := by
  obtain ⟨inside, same⟩ := List.getElem?_eq_some_iff.mp present
  refine ⟨tb.insns.take k, tb.insns.drop (k + 1), ?_, ?_, ?_, ?_⟩
  · rw [← same, getElem_cons_drop, take_append_drop]
  · rw [length_take, Nat.min_eq_left inside.le]
  · rw [List.getElem?_drop, Nat.add_zero]
  · intro other member
    obtain ⟨j, short, rfl⟩ := mem_take_iff_getElem.mp member
    exact tb.le_codeStart (by omega) inside.le

end TranslatedBlock

/-! ### When the rows come back -/

def decodeRows : Nat → List (BitVec w) → BitVec w → List (BitVec 8) →
    Option (List (List (BitVec w) × BitVec w) × List (BitVec 8))
  | 0, _, _, p => some ([], p)
  | remaining + 1, data, endOff, p => do
    let (data, delta, p) ← nextRow data p
    let (rows, p) ← decodeRows remaining data (endOff + delta) p
    return ((data, endOff + delta) :: rows, p)

/-- The table gives back the rows, and a host PC leads to the row of its instruction. -/
structure RestoresRows {extra h : Nat} (tb : TranslatedBlock w extra h) : Prop where
  inverse : ∀ (val : BitVec w) p, decodeSleb128 (encodeSleb128 val ++ p) = some (val, p)
  decoded : decodeRows tb.icount tb.seed.data 0 tb.encodeSearch =
    some (tb.rows.map fun row => (row.data, row.endOff.setWidth w), [])
  found : ∀ k insn hostPc, tb.InCode k insn hostPc →
    cpuGetDataForPc tb tb.encodeSearch hostPc true false = some (((k + 1 : Nat) : Int), insn.1)
  skipped : ∀ k insn hostPc, tb.InCode k insn hostPc → ∀ next, tb.insns[k + 1]? = some next →
    cpuGetDataForPc tb tb.encodeSearch hostPc true true = some (((k + 2 : Nat) : Int), next.1)
  atEnd : ∀ k insn hostPc, tb.InCode k insn hostPc → tb.insns[k + 1]? = none →
    ∃ data, cpuGetDataForPc tb tb.encodeSearch hostPc true true = some (-1, data)
  inTable : ∀ searchedPc pcIsHost skipCurrentInstruction,
    (cpuGetDataForPc tb tb.encodeSearch searchedPc pcIsHost skipCurrentInstruction).isSome

theorem decodeRows_encode (wide : 16 < w) (rows : List (InsnRow w)) (prev : InsnRow w)
    (words : Nat) (prevWords : prev.data.length = words)
    (rowWords : ∀ row ∈ rows, row.data.length = words) :
    decodeRows rows.length prev.data (prev.endOff.setWidth w) (encodeRows prev rows) =
      some (rows.map fun row => (row.data, row.endOff.setWidth w), []) := by
  induction rows generalizing prev with
  | nil => rfl
  | cons row rows ih =>
    have here : row.data.length = words := rowWords row mem_cons_self
    have rest := ih row here
      fun later member => rowWords later (mem_cons_of_mem _ member)
    have endOff : prev.endOff.setWidth w + (row.endOff.setWidth w - prev.endOff.setWidth w) =
        row.endOff.setWidth w := by
      rw [BitVec.add_comm, BitVec.sub_add_cancel]
    rw [length_cons, decodeRows, encodeRows,
      nextRow_encode (by omega) (by rw [prevWords, here])]
    dsimp only [bind_eq_bind, bind_some]
    rw [endOff, rest]
    rfl

section Search

variable {extra h : Nat} (wide : 16 < w) (tb : TranslatedBlock w extra h)

theorem above_iff_of_short (short : codeSize tb.ops < 2 ^ 16) {insn : List (BitVec w) × Nat}
    (member : insn ∈ tb.insns) (hostPc : BitVec h) :
    tb.above hostPc true (storeRow insn) = true ↔ hostPc.toNat < tb.tcPtr.toNat + insn.2 := by
  have bound : insn.2 ≤ 0 + codeSize tb.ops := (tcgGenCodeCommon_le _ _ _ insn member).2
  rw [tb.above_iff member, mod_eq_of_lt (by omega)]

include wide

theorem search_inCode (short : codeSize tb.ops < 2 ^ 16) {k : Nat}
    {insn : List (BitVec w) × Nat} {hostPc : BitVec h} (inCode : tb.InCode k insn hostPc)
    (skipCurrentInstruction : Bool) :
    ∃ after : List (List (BitVec w) × Nat), after[0]? = tb.insns[k + 1]? ∧
      cpuGetDataForPc tb tb.encodeSearch hostPc true skipCurrentInstruction =
        some (findRow (tb.above hostPc true) (1 + k) insn.1
          (storeRow insn :: after.map storeRow) skipCurrentInstruction) ∧
      ∀ next ∈ insn :: after, tb.above hostPc true (storeRow next) = true := by
  obtain ⟨present, starts, ends⟩ := inCode
  obtain ⟨before, after, split, length, first, passed⟩ := tb.insns_split present
  have increasing := tcgGenCodeCommon_increasing none 0 tb.ops
  change tb.insns.Pairwise _ at increasing
  rw [split, pairwise_append, pairwise_cons] at increasing
  have rows : tb.rows = before.map storeRow ++ storeRow insn :: after.map storeRow := by
    rw [TranslatedBlock.rows, split, map_append, map_cons]
  have passedRows : ∀ row ∈ before.map storeRow, tb.above hostPc true row = false := by
    intro row member
    obtain ⟨other, inside, rfl⟩ := List.mem_map.mp member
    have low := passed other inside
    rw [← Bool.not_eq_true, above_iff_of_short tb short
      (by rw [split]; exact mem_append_left _ inside)]
    omega
  refine ⟨after, first, ?_, ?_⟩
  · have notBefore : ¬ hostPc.toNat < currentPc true tb.tcPtr tb.seed.data := by
      rw [currentPc, if_pos rfl]
      omega
    rw [tb.cpuGetDataForPc_encodeSearch wide, if_neg notBefore, rows,
      findRow_pass _ passedRows, length_map, length]
    rfl
  · intro next member
    rw [above_iff_of_short tb short (by rw [split]; exact mem_append_right _ member)]
    obtain rfl | later := mem_cons.mp member
    · exact ends
    · have grows := increasing.2.1.1 next later
      omega

theorem restores_of_short (short : codeSize tb.ops < 2 ^ 16) {k : Nat}
    {insn : List (BitVec w) × Nat} {hostPc : BitVec h} (inCode : tb.InCode k insn hostPc) :
    cpuGetDataForPc tb tb.encodeSearch hostPc true false = some (((k + 1 : Nat) : Int), insn.1) ∧
      (∀ next, tb.insns[k + 1]? = some next → cpuGetDataForPc tb tb.encodeSearch hostPc true true =
          some (((k + 2 : Nat) : Int), next.1)) ∧
      (tb.insns[k + 1]? = none →
        ∃ data, cpuGetDataForPc tb tb.encodeSearch hostPc true true = some (-1, data)) := by
  refine ⟨?_, ?_, ?_⟩
  · obtain ⟨after, first, searched, stops⟩ := search_inCode wide tb short inCode false
    rw [searched, findRow, if_pos (stops insn mem_cons_self), if_neg Bool.false_ne_true,
      Nat.add_comm]
    rfl
  · intro next present
    obtain ⟨after, first, searched, stops⟩ := search_inCode wide tb short inCode true
    obtain ⟨rest, rfl⟩ : ∃ rest, after = next :: rest := by
      rw [present] at first
      cases after with
      | nil => exact absurd first (by simp)
      | cons head rest => exact ⟨rest, by simpa using first⟩
    rw [searched, findRow, if_pos (stops insn mem_cons_self), if_pos rfl, map_cons,
      findRow, if_pos (stops next (mem_cons_of_mem _ mem_cons_self)),
      if_neg Bool.false_ne_true, Nat.add_comm 1 k]
    rfl
  · intro absent
    obtain ⟨after, first, searched, stops⟩ := search_inCode wide tb short inCode true
    have empty : after = [] := by
      rw [absent] at first
      cases after with
      | nil => rfl
      | cons head rest => exact absurd first (by simp)
    rw [searched, findRow, if_pos (stops insn mem_cons_self), if_pos rfl, empty]
    exact ⟨_, rfl⟩

omit wide in
theorem exists_inCode (present : tb.icount ≠ 0) (some : 0 < codeSize tb.ops) :
    ∃ k insn hostPc, tb.InCode k insn hostPc ∧
      hostPc.toNat = tb.tcPtr.toNat + (codeSize tb.ops - 1) := by
  have memory := tb.inMemory
  have insnsPresent : tcgGenCodeCommon none 0 tb.ops ≠ [] := by
    rw [← length_pos_iff]
    have length := tb.insns_length
    rw [TranslatedBlock.insns] at length
    omega
  obtain ⟨before, data, last⟩ := tcgGenCodeCommon_last none 0 tb.ops insnsPresent
  let reaches : List (BitVec w) × Nat → Bool := fun insn => decide (codeSize tb.ops - 1 < insn.2)
  have found : tb.insns.findIdx reaches < tb.insns.length := by
    rw [findIdx_lt_length]
    refine ⟨(data, 0 + codeSize tb.ops), ?_, ?_⟩
    · rw [TranslatedBlock.insns, last]
      exact mem_append_right _ mem_cons_self
    · exact decide_eq_true (by omega)
  have stops : codeSize tb.ops - 1 < tb.insns[tb.insns.findIdx reaches].2 :=
    of_decide_eq_true (findIdx_getElem (w := found))
  have hostPc : (BitVec.ofNat h (tb.tcPtr.toNat + (codeSize tb.ops - 1))).toNat =
      tb.tcPtr.toNat + (codeSize tb.ops - 1) := by
    rw [toNat_ofNat, mod_eq_of_lt (by omega)]
  refine ⟨tb.insns.findIdx reaches, _, _, ⟨List.getElem?_eq_getElem found, ?_, ?_⟩, hostPc⟩
  · have start : tb.codeStart (tb.insns.findIdx reaches) ≤ codeSize tb.ops - 1 := by
      cases index : tb.insns.findIdx reaches with
      | zero => exact Nat.zero_le _
      | succ j =>
        have less : j < tb.insns.findIdx reaches := by omega
        have passed := of_decide_eq_false (not_of_lt_findIdx less)
        rw [tb.codeStart_succ (by omega)]
        omega
    omega
  · omega

theorem not_restores_of_long (present : tb.icount ≠ 0) (long : 2 ^ 16 ≤ codeSize tb.ops) :
    ¬ RestoresRows tb := by
  intro restores
  obtain ⟨k, insn, hostPc, inCode, value⟩ := exists_inCode tb present (by omega)
  have found := restores.found k insn hostPc inCode
  have notBefore : ¬ hostPc.toNat < currentPc true tb.tcPtr tb.seed.data := by
    rw [currentPc, if_pos rfl]
    omega
  have passed : ∀ row ∈ tb.rows, tb.above hostPc true row = false := by
    intro row member
    obtain ⟨other, inside, rfl⟩ := List.mem_map.mp member
    rw [← Bool.not_eq_true, tb.above_iff inside]
    omega
  have missed := findRow_none (tb.above hostPc true) passed 1 tb.seed.data false
  rw [tb.cpuGetDataForPc_encodeSearch wide, if_neg notBefore, some.injEq] at found
  rw [found] at missed
  exact absurd missed (by omega)

/-- The rows come back exactly for blocks whose host code is shorter than 64 KiB: behind
that, a `uint16_t` does not hold the offset where an instruction ends. -/
theorem restoresRows_iff : RestoresRows tb ↔ tb.icount = 0 ∨ codeSize tb.ops < 2 ^ 16 := by
  constructor
  · intro restores
    by_contra neither
    exact not_restores_of_long wide tb (by omega) (by omega) restores
  · intro short
    have restored : ∀ k insn hostPc, tb.InCode k insn hostPc → codeSize tb.ops < 2 ^ 16 := by
      intro k insn hostPc inCode
      obtain empty | small := short
      · have inside := (List.getElem?_eq_some_iff.mp inCode.1).1
        rw [tb.insns_length] at inside
        omega
      · exact small
    refine
      { inverse := fun val p => decodeSleb128_encodeSleb128 (by omega) val p
        decoded := ?_
        found := fun k insn hostPc inCode =>
          (restores_of_short wide tb (restored k insn hostPc inCode) inCode).1
        skipped := fun k insn hostPc inCode =>
          (restores_of_short wide tb (restored k insn hostPc inCode) inCode).2.1
        atEnd := fun k insn hostPc inCode =>
          (restores_of_short wide tb (restored k insn hostPc inCode) inCode).2.2
        inTable := ?_ }
    · have decoded := decodeRows_encode wide tb.rows tb.seed (1 + extra) tb.seed_words
        tb.rows_words
      have start : tb.seed.endOff.setWidth w = 0 := setWidth_zero w 16
      rw [tb.rows_length, start] at decoded
      rw [tb.encodeSearch_eq]
      exact decoded
    · intro searchedPc pcIsHost skipCurrentInstruction
      rw [tb.cpuGetDataForPc_encodeSearch wide]
      split_ifs
      · rfl
      · rfl

end Search

end Rows

/-- Instructions of four bytes from `pc` on, each with 100 bytes of host code. -/
def straightLine (pc : BitVec 32) : Nat → List (TcgOp 32)
  | 0 => []
  | n + 1 => .insnStart [pc] :: .other 100 :: straightLine (pc + 4) n

theorem straightLine_codeSize (pc : BitVec 32) (n : Nat) :
    codeSize (straightLine pc n) = 100 * n := by
  induction n generalizing pc with
  | zero => rfl
  | succ n ih =>
    have rest := ih (pc + 4)
    unfold codeSize at rest ⊢
    rw [straightLine, map_cons, map_cons, sum_cons, sum_cons, rest,
      TcgOp.hostBytes, TcgOp.hostBytes]
    omega

theorem straightLine_counted (pc : BitVec 32) (n : Nat) :
    (straightLine pc n).countP TcgOp.isInsnStart = n := by
  induction n generalizing pc with
  | zero => rfl
  | succ n ih =>
    rw [straightLine, countP_cons, countP_cons, ih]
    rfl

theorem straightLine_words (pc : BitVec 32) (n : Nat) :
    ∀ args, TcgOp.insnStart args ∈ straightLine pc n → args.length = 1 + 0 := by
  induction n generalizing pc with
  | zero => exact fun args member => absurd member not_mem_nil
  | succ n ih =>
    intro args member
    rw [straightLine, mem_cons, mem_cons] at member
    obtain start | other | member := member
    · rw [TcgOp.insnStart.inj start]
      rfl
    · exact absurd other (by simp)
    · exact ih (pc + 4) args member

def straightBlock (n : Nat) (short : n ≤ 1024) : TranslatedBlock 32 0 64 where
  pc := 0x80000000#32
  tcPtr := 0x7f0000000000#64
  ops := straightLine 0x80000000#32 n
  icount := n
  insnStartWords := straightLine_words _ n
  counted := (straightLine_counted _ n).symm
  inMemory := by
    rw [straightLine_codeSize]
    have start : (0x7f0000000000#64 : BitVec 64).toNat = 0x7f0000000000 := by decide
    omega

/-- A block of 600 loads. -/
theorem restoresRows_straight : RestoresRows (straightBlock 600 (by decide)) :=
  (restoresRows_iff (by decide) _).mpr
    (Or.inr (by rw [straightBlock, straightLine_codeSize]; decide))

/-- A page of loads. -/
theorem straight_page_lost : ¬ RestoresRows (straightBlock 1024 (by decide)) := by
  have long : codeSize (straightBlock 1024 (by decide)).ops = 100 * 1024 :=
    straightLine_codeSize _ _
  exact not_restores_of_long (by decide) _ (by decide) (by omega)

end Tlib.Execution.SearchTable
