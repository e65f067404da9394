import Tlib.Rl78.Blocks
import Tlib.Rl78.MemoryForms

/-!
Contract: the registers that are mapped to memory, through every form of access.

Owns: what the accesses to special function registers do there, and the forms and states in which
another access does the same.
-/

namespace Tlib.Rl78

open Tlib.Library.Words Nat

variable {σ : Type} {B : Bus σ} {m : Machine σ} {paddr : Nat}

/-- `SP`, `PSW`, `CS` and `ES`. -/
def byteRegisters : List Nat := [0xFFFF8, 0xFFFF9, 0xFFFFA, 0xFFFFC, 0xFFFFD]

def wordRegisters : List Nat := [0xFFFF8, 0xFFFFA, 0xFFFFC]

def Mapped (paddr : Nat) : MemOp → Prop
  | .mo8 => paddr ∈ byteRegisters
  | .mo16 => paddr ∈ wordRegisters

/-- The `sfr` form at an address. -/
def sfrLoad (B : Bus σ) (paddr : Nat) : Exec σ Nat := loadSfr B (paddr - 0xFFF00) .mo8

def sfrStore (B : Bus σ) (paddr data : Nat) : Exec σ Unit := storeSfr B (paddr - 0xFFF00) data .mo8

def sfrLoadWord (B : Bus σ) (paddr : Nat) : Exec σ Nat := do
  let low ← sfrLoad B paddr
  let high ← sfrLoad B (paddr + 1)
  return low + 2 ^ 8 * high

def sfrStoreWord (B : Bus σ) (paddr data : Nat) : Exec σ Unit := do
  sfrStore B paddr (extract data 0 8)
  sfrStore B (paddr + 1) (extract data 8 8)

/-- A form loads and stores as the `sfr` form does. -/
def Agrees (B : Bus σ) (form : Form) (m : Machine σ) (paddr : Nat) : Prop :=
  match form.memop with
  | .mo8 =>
    ((form.load B).run m).1 = ((sfrLoad B paddr).run m).1 ∧
      ∀ data, ((form.store B data).run m).2.cpu = ((sfrStore B paddr data).run m).2.cpu
  | .mo16 =>
    ((form.load B).run m).1 = ((sfrLoadWord B paddr).run m).1 ∧
      ∀ data, ((form.store B data).run m).2.cpu = ((sfrStoreWord B paddr data).run m).2.cpu

def HelperSees (cpu : Cpu) (paddr : Nat) : Prop :=
  (paddr = 0xFFFF8 → cpu.sp % 2 = 0) ∧ (paddr = 0xFFFFA → cpu.psw.cy < 2 ^ 8) ∧
    (paddr = 0xFFFFC → cpu.cs ≤ 0xF) ∧ (paddr = 0xFFFFD → cpu.es ≤ 0xF)

def Sees (form : Form) (cpu : Cpu) (paddr : Nat) : Prop :=
  match form.lowering, form.memop with
  | .translator, .mo8 => True
  | .translator, .mo16 => paddr = 0xFFFF8
  | .runTime, _ => False
  | .helper, _ => HelperSees cpu paddr

theorem and_fffe (a : Nat) : a &&& 0xFFFE = 2 * (a / 2 % 2 ^ 15) := by
  have even := (mask_sp a).1
  have half : (a &&& 0xFFFE) / 2 = a / 2 &&& 0x7FFF := and_div_two
  have low : a / 2 &&& 0x7FFF = a / 2 % 2 ^ 15 := and_two_pow_sub_one_eq_mod (a / 2) 15
  omega

theorem and_ff00 (a : Nat) : a &&& 0xFF00 = 2 ^ 8 * (a / 2 ^ 8 % 2 ^ 8) := by
  have low : (a &&& 0xFF00) % 2 ^ 8 = a % 2 ^ 8 &&& 0 := and_mod_two_pow
  have high : (a &&& 0xFF00) / 2 ^ 8 = a / 2 ^ 8 &&& 0xFF := and_div_two_pow
  rw [and_zero] at low
  rw [and_low_byte] at high
  omega

theorem and_low_nibble (a : Nat) : a &&& 0x0F = a % 2 ^ 4 := and_two_pow_sub_one_eq_mod a 4

theorem bytes_or {low : Nat} (high : Nat) (less : low < 2 ^ 8) :
    2 ^ 8 * high ||| low = 2 ^ 8 * high + low := (two_pow_add_eq_or_of_lt less high).symm

theorem pswWord_eq (psw : Psw) : pswWord psw = cpuPackPsw psw + 2 ^ 8 * (psw.cy / 2 ^ 8) := by
  have first : psw.cy = psw.cy % 2 + 2 ^ 1 * (psw.cy / 2) := by omega
  unfold pswWord
  dsimp only
  rw [first, deposit_above _ _ 2 (by omega), deposit_above _ _ 1 (by omega),
    deposit_above _ _ 1 (by omega), deposit_above _ _ 1 (by omega), deposit_above _ _ 1 (by omega),
    deposit_above _ _ 1 (by omega)]
  have rest : psw.cy / 2 / 2 ^ 2 / 2 ^ 1 / 2 ^ 1 / 2 ^ 1 / 2 ^ 1 / 2 ^ 1 = psw.cy / 2 ^ 8 := by
    omega
  rw [rest]
  unfold cpuPackPsw extract
  omega

theorem helperSees_spl (cpu : Cpu) : HelperSees cpu 0xFFFF8 ↔ cpu.sp % 2 = 0 := by
  simp [HelperSees]

theorem helperSees_sph (cpu : Cpu) : HelperSees cpu 0xFFFF9 := by
  simp [HelperSees]

theorem helperSees_psw (cpu : Cpu) : HelperSees cpu 0xFFFFA ↔ cpu.psw.cy < 2 ^ 8 := by
  simp [HelperSees]

theorem helperSees_cs (cpu : Cpu) : HelperSees cpu 0xFFFFC ↔ cpu.cs ≤ 0xF := by
  simp [HelperSees]

theorem helperSees_es (cpu : Cpu) : HelperSees cpu 0xFFFFD ↔ cpu.es ≤ 0xF := by
  simp [HelperSees]

theorem mem_byteRegisters : paddr ∈ byteRegisters ↔ paddr = 0xFFFF8 ∨ paddr = 0xFFFF9 ∨
    paddr = 0xFFFFA ∨ paddr = 0xFFFFC ∨ paddr = 0xFFFFD := by
  simp [byteRegisters]

theorem mem_wordRegisters :
    paddr ∈ wordRegisters ↔ paddr = 0xFFFF8 ∨ paddr = 0xFFFFA ∨ paddr = 0xFFFFC := by
  simp [wordRegisters]

theorem readByte_agrees (register : paddr ∈ byteRegisters) :
    ((readByte B paddr).run m).1 = ((sfrLoad B paddr).run m).1 ↔ HelperSees m.cpu paddr := by
  rcases mem_byteRegisters.mp register with rfl | rfl | rfl | rfl | rfl
  · rw [helperSees_spl]
    show m.cpu.sp &&& 0xFF = extract (m.cpu.sp &&& 0xFFFE) 0 8 ↔ m.cpu.sp % 2 = 0
    rw [and_low_byte, and_fffe]
    unfold extract
    omega
  · refine iff_of_true ?_ (helperSees_sph _)
    show (m.cpu.sp >>> 8) &&& 0xFF = extract (m.cpu.sp &&& 0xFFFE) 8 8
    rw [and_low_byte, and_fffe, shiftRight_eq_div_pow]
    unfold extract
    omega
  · rw [helperSees_psw]
    show cpuPackPsw m.cpu.psw = pswWord m.cpu.psw ↔ m.cpu.psw.cy < 2 ^ 8
    rw [pswWord_eq]
    omega
  · rw [helperSees_cs]
    show m.cpu.cs &&& 0x0F = m.cpu.cs ↔ m.cpu.cs ≤ 0xF
    rw [and_low_nibble]
    omega
  · rw [helperSees_es]
    show m.cpu.es &&& 0x0F = m.cpu.es ↔ m.cpu.es ≤ 0xF
    rw [and_low_nibble]
    omega

theorem unpackPsw_eq (data : Nat) : cpuUnpackPsw (data &&& 0xFF) =
    { cy := extract data 0 1
      isp := extract data 1 2
      rbs := deposit (deposit 0 (extract data 3 1) 0 1) (extract data 5 1) 1 1
      ac := extract data 4 1
      z := extract data 6 1
      ie := extract data 7 1 } := by
  unfold cpuUnpackPsw
  rw [and_low_byte, Psw.mk.injEq]
  unfold deposit extract
  omega

theorem writeByte_agrees (register : paddr ∈ byteRegisters) (sees : HelperSees m.cpu paddr)
    (data : Nat) :
    ((writeByte B paddr data).run m).2.cpu = ((sfrStore B paddr data).run m).2.cpu := by
  rcases mem_byteRegisters.mp register with rfl | rfl | rfl | rfl | rfl
  · have same : ((m.cpu.sp &&& 0xFF00) ||| (data &&& 0xFF)) &&& 0xFFFE =
        deposit m.cpu.sp (extract data 0 8) 0 8 &&& 0xFFFE := by
      rw [and_ff00, and_low_byte, bytes_or _ (by omega), and_fffe, and_fffe]
      unfold deposit extract
      omega
    exact congrArg (fun sp => { m.cpu with sp := sp }) same
  · have same : ((m.cpu.sp &&& 0x00FF) ||| (data &&& 0xFF) <<< 8) &&& 0xFFFE =
        deposit m.cpu.sp data 8 8 &&& 0xFFFE := by
      rw [and_low_byte, and_low_byte, shiftLeft_eq, Nat.mul_comm, Nat.or_comm,
        bytes_or _ (by omega), and_fffe, and_fffe]
      unfold deposit
      omega
    exact congrArg (fun sp => { m.cpu with sp := sp }) same
  · exact congrArg (fun psw => { m.cpu with psw := psw }) (unpackPsw_eq data)
  · have cs := (helperSees_cs _).mp sees
    have same : (data &&& 0xFF) &&& 0x0F = deposit m.cpu.cs data 0 4 := by
      rw [and_low_byte, and_low_nibble]
      unfold deposit
      omega
    exact congrArg (fun cs => { m.cpu with cs := cs }) same
  · have es := (helperSees_es _).mp sees
    have same : (data &&& 0xFF) &&& 0x0F = deposit m.cpu.es data 0 4 := by
      rw [and_low_byte, and_low_nibble]
      unfold deposit
      omega
    exact congrArg (fun es => { m.cpu with es := es }) same

theorem sfrStore_spl (data : Nat) : ((sfrStore B 0xFFFF8 data).run m).2.cpu =
    { m.cpu with sp := deposit m.cpu.sp (extract data 0 8) 0 8 &&& 0xFFFE } := rfl

theorem sfrStore_sph (data : Nat) : ((sfrStore B 0xFFFF9 data).run m).2.cpu =
    { m.cpu with sp := deposit m.cpu.sp data 8 8 &&& 0xFFFE } := rfl

theorem sfrStore_psw (data : Nat) : ((sfrStore B 0xFFFFA data).run m).2.cpu =
    { m.cpu with psw := cpuUnpackPsw (data &&& 0xFF) } := by
  rw [unpackPsw_eq]
  rfl

theorem sfrStore_cs (data : Nat) : ((sfrStore B 0xFFFFC data).run m).2.cpu =
    { m.cpu with cs := deposit m.cpu.cs data 0 4 } := rfl

theorem sfrStore_es (data : Nat) : ((sfrStore B 0xFFFFD data).run m).2.cpu =
    { m.cpu with es := deposit m.cpu.es data 0 4 } := rfl

theorem sfrStore_changes (register : paddr ∈ byteRegisters) :
    ∃ data, ((sfrStore B paddr data).run m).2.cpu ≠ m.cpu := by
  rcases mem_byteRegisters.mp register with rfl | rfl | rfl | rfl | rfl
  · refine ⟨2 * ((m.cpu.sp / 2 + 1) % 2), fun same => ?_⟩
    rw [sfrStore_spl] at same
    have sp := congrArg Cpu.sp same
    dsimp only at sp
    rw [and_fffe] at sp
    unfold deposit extract at sp
    omega
  · refine ⟨(m.cpu.sp / 2 ^ 8 + 1) % 2, fun same => ?_⟩
    rw [sfrStore_sph] at same
    have sp := congrArg Cpu.sp same
    dsimp only at sp
    rw [and_fffe] at sp
    unfold deposit at sp
    omega
  · refine ⟨(m.cpu.psw.cy + 1) % 2, fun same => ?_⟩
    rw [sfrStore_psw, unpackPsw_eq] at same
    have cy := congrArg (fun cpu => cpu.psw.cy) same
    dsimp only at cy
    unfold extract at cy
    omega
  · refine ⟨(m.cpu.cs + 1) % 2, fun same => ?_⟩
    rw [sfrStore_cs] at same
    have cs := congrArg Cpu.cs same
    dsimp only at cs
    unfold deposit at cs
    omega
  · refine ⟨(m.cpu.es + 1) % 2, fun same => ?_⟩
    rw [sfrStore_es] at same
    have es := congrArg Cpu.es same
    dsimp only at es
    unfold deposit at es
    omega

theorem sfrStoreWord_sp (data : Nat) :
    ((sfrStoreWord B 0xFFFF8 data).run m).2.cpu = { m.cpu with sp := data &&& 0xFFFE } := by
  have same : deposit (deposit m.cpu.sp (extract (extract data 0 8) 0 8) 0 8 &&& 0xFFFE)
      (extract data 8 8) 8 8 &&& 0xFFFE = data &&& 0xFFFE := by
    rw [and_fffe, and_fffe, and_fffe]
    unfold deposit extract
    omega
  exact congrArg (fun sp => { m.cpu with sp := sp }) same

theorem sfrStoreWord_changes (register : paddr ∈ wordRegisters) :
    ∃ data, ((sfrStoreWord B paddr data).run m).2.cpu ≠ m.cpu := by
  rcases mem_wordRegisters.mp register with rfl | rfl | rfl
  · refine ⟨2 * ((m.cpu.sp / 2 + 1) % 2), fun same => ?_⟩
    rw [sfrStoreWord_sp] at same
    have sp : 2 * ((m.cpu.sp / 2 + 1) % 2) &&& 0xFFFE = m.cpu.sp := congrArg Cpu.sp same
    rw [and_fffe] at sp
    omega
  · -- the byte behind the program status word is 0, which is no command
    refine ⟨(m.cpu.psw.cy + 1) % 2, fun same => ?_⟩
    have noCommand : extract ((m.cpu.psw.cy + 1) % 2) 8 8 = 0 := by
      unfold extract
      omega
    unfold sfrStoreWord at same
    rw [noCommand] at same
    have cy : extract (extract ((m.cpu.psw.cy + 1) % 2) 0 8) 0 1 = m.cpu.psw.cy :=
      congrArg (fun cpu => cpu.psw.cy) same
    unfold extract at cy
    omega
  · refine ⟨(m.cpu.cs + 1) % 2, fun same => ?_⟩
    have cs : deposit m.cpu.cs (extract ((m.cpu.cs + 1) % 2) 0 8) 0 4 = m.cpu.cs :=
      congrArg Cpu.cs same
    unfold deposit extract at cs
    omega

theorem rl78GenStore_cpu (data : Nat) (memop : MemOp) :
    ((rl78GenStore B paddr data memop).run m).2.cpu = m.cpu := rfl

theorem memory_disagrees {form : Form} (mapped : Mapped paddr form.memop)
    (store : ∀ data, ((form.store B data).run m).2.cpu = m.cpu) : ¬Agrees B form m paddr := by
  unfold Agrees
  cases memop : form.memop with
  | mo8 =>
    rw [memop] at mapped
    rintro ⟨_, agrees⟩
    obtain ⟨data, changes⟩ := @sfrStore_changes σ B m paddr mapped
    exact changes ((agrees data).symm.trans (store data))
  | mo16 =>
    rw [memop] at mapped
    rintro ⟨_, agrees⟩
    obtain ⟨data, changes⟩ := @sfrStoreWord_changes σ B m paddr mapped
    exact changes ((agrees data).symm.trans (store data))

theorem sfr_paddr (register : paddr ∈ byteRegisters) : 0xFFF00 + (paddr - 0xFFF00) = paddr := by
  rcases mem_byteRegisters.mp register with rfl | rfl | rfl | rfl | rfl <;> rfl

theorem translator_agrees {form : Form} (lowered : form.Lowered B m paddr)
    (is : form.lowering = .translator) (mapped : Mapped paddr form.memop) :
    Agrees B form m paddr ↔ Sees form m.cpu paddr := by
  obtain ⟨load, store⟩ := lowered.translator is
  cases memop : form.memop with
  | mo8 =>
    rw [memop] at mapped load store
    have sees : Sees form m.cpu paddr := by
      unfold Sees
      rw [is, memop]
      trivial
    refine iff_of_true ?_ sees
    unfold Agrees
    rw [memop]
    have same := sfr_paddr mapped
    refine ⟨?_, fun data => ?_⟩
    · unfold sfrLoad loadSfr
      rw [load, same]
    · unfold sfrStore storeSfr
      rw [store data, same]
  | mo16 =>
    rw [memop] at mapped load store
    have sees : Sees form m.cpu paddr ↔ paddr = 0xFFFF8 := by
      unfold Sees
      rw [is, memop]
    rw [sees]
    by_cases isSp : paddr = 0xFFFF8
    · refine iff_of_true ?_ isSp
      subst isSp
      unfold Agrees
      rw [memop]
      refine ⟨?_, fun data => ?_⟩
      · rw [load]
        show m.cpu.sp &&& 0xFFFE = extract (m.cpu.sp &&& 0xFFFE) 0 8 +
          2 ^ 8 * extract (m.cpu.sp &&& 0xFFFE) 8 8
        rw [and_fffe]
        unfold extract
        omega
      · rw [store data, sfrStoreWord_sp]
        rfl
    · refine iff_of_false (memory_disagrees (by rw [memop]; exact mapped) fun data => ?_) isSp
      rw [store data]
      rcases mem_wordRegisters.mp mapped with rfl | rfl | rfl
      · exact absurd rfl isSp
      · rfl
      · rfl

/-- Where a form has the address of a register, its loads and stores are those of the `sfr` form,
and of two of them for a word, exactly if the translator knows the address, and for a word the
address is that of the stack pointer; `BTCLR` agrees as far as the registers are in their
widths. -/
theorem agrees_iff_sees {form : Form} (at_paddr : form.addr m = some paddr)
    (mapped : Mapped paddr form.memop) : Agrees B form m paddr ↔ Sees form m.cpu paddr := by
  have lowered := @Form.lowered σ B m form paddr at_paddr
  cases is : form.lowering with
  | translator => exact translator_agrees lowered is mapped
  | runTime =>
    have store := (lowered.runTime is).2
    refine iff_of_false (memory_disagrees mapped fun data => ?_) ?_
    · rw [store data]
      exact rl78GenStore_cpu data _
    · unfold Sees
      rw [is]
      exact id
  | helper =>
    obtain ⟨memop, load, store⟩ := lowered.helper is
    rw [memop] at mapped
    have sees : Sees form m.cpu paddr ↔ HelperSees m.cpu paddr := by
      unfold Sees
      rw [is]
    rw [sees]
    unfold Agrees
    rw [memop, load]
    refine ⟨fun agrees => (readByte_agrees mapped).mp agrees.1, fun helperSees => ?_⟩
    refine ⟨(readByte_agrees mapped).mpr helperSees, fun data => ?_⟩
    rw [store data]
    exact writeByte_agrees mapped helperSees data

def registerMask : Nat → Nat
  | 0xFFFF8 => 0xFE
  | 0xFFFFC | 0xFFFFD => 0x0F
  | _ => 0xFF

theorem and_fe (a : Nat) : a &&& 0xFE = 2 * (a / 2 % 2 ^ 7) := by
  have low : (a &&& 0xFE) % 2 = a % 2 &&& 0 := @and_mod_two_pow a 0xFE 1
  have high : (a &&& 0xFE) / 2 = a / 2 &&& 0x7F := and_div_two
  have rest : a / 2 &&& 0x7F = a / 2 % 2 ^ 7 := and_two_pow_sub_one_eq_mod (a / 2) 7
  rw [and_zero] at low
  omega

theorem sfrLoad_congr (register : paddr ∈ byteRegisters) {m' : Machine σ} (same : m'.cpu = m.cpu) :
    ((sfrLoad B paddr).run m').1 = ((sfrLoad B paddr).run m).1 := by
  rcases mem_byteRegisters.mp register with rfl | rfl | rfl | rfl | rfl
  · exact congrArg (fun cpu : Cpu => extract (cpu.sp &&& 0xFFFE) 0 8) same
  · exact congrArg (fun cpu : Cpu => extract (cpu.sp &&& 0xFFFE) 8 8) same
  · exact congrArg (fun cpu : Cpu => pswWord cpu.psw) same
  · exact congrArg Cpu.cs same
  · exact congrArg Cpu.es same

theorem cpuPackPsw_unpack {v : Nat} (byte : v < 2 ^ 8) : cpuPackPsw (cpuUnpackPsw v) = v := by
  have parts : v = extract v 0 1 + 2 * extract v 1 2 + 8 * extract v 3 1 + 16 * extract v 4 1 +
      32 * extract v 5 1 + 64 * extract v 6 1 + 128 * extract v 7 1 := by
    unfold extract
    omega
  have cy := extract_lt v 0 1
  have isp := extract_lt v 1 2
  have rbs0 := extract_lt v 3 1
  have ac := extract_lt v 4 1
  have rbs1 := extract_lt v 5 1
  have z := extract_lt v 6 1
  have ie := extract_lt v 7 1
  unfold cpuPackPsw cpuUnpackPsw
  dsimp only
  omega

theorem pswWord_unpack (data : Nat) : pswWord (cpuUnpackPsw (data &&& 0xFF)) = data &&& 0xFF := by
  have byte : data &&& 0xFF < 2 ^ 8 := by
    rw [and_low_byte]
    exact mod_lt _ (by decide)
  have cy : (cpuUnpackPsw (data &&& 0xFF)).cy < 2 := extract_lt _ 0 1
  rw [pswWord_eq, cpuPackPsw_unpack byte, div_eq_of_lt (Nat.lt_trans cy (by decide)),
    Nat.mul_zero, Nat.add_zero]

theorem sfrLoad_sfrStore (register : paddr ∈ byteRegisters) (cs : m.cpu.cs ≤ 0xF)
    (es : m.cpu.es ≤ 0xF) (data : Nat) :
    ((sfrLoad B paddr).run ((sfrStore B paddr data).run m).2).1 = data &&& registerMask paddr := by
  rcases mem_byteRegisters.mp register with rfl | rfl | rfl | rfl | rfl
  · have loaded : ∀ m' : Machine σ, ((sfrLoad B 0xFFFF8).run m').1 =
        extract (m'.cpu.sp &&& 0xFFFE) 0 8 := fun _ => rfl
    rw [loaded, sfrStore_spl]
    show extract (_ &&& 0xFFFE) 0 8 = data &&& 0xFE
    dsimp only
    rw [and_fffe, and_fffe, and_fe]
    unfold deposit extract
    omega
  · have loaded : ∀ m' : Machine σ, ((sfrLoad B 0xFFFF9).run m').1 =
        extract (m'.cpu.sp &&& 0xFFFE) 8 8 := fun _ => rfl
    rw [loaded, sfrStore_sph]
    show extract (_ &&& 0xFFFE) 8 8 = data &&& 0xFF
    dsimp only
    rw [and_fffe, and_fffe, and_low_byte]
    unfold deposit extract
    omega
  · have loaded : ∀ m' : Machine σ, ((sfrLoad B 0xFFFFA).run m').1 = pswWord m'.cpu.psw :=
      fun _ => rfl
    rw [loaded, sfrStore_psw]
    exact pswWord_unpack data
  · have loaded : ∀ m' : Machine σ, ((sfrLoad B 0xFFFFC).run m').1 = m'.cpu.cs := fun _ => rfl
    show deposit m.cpu.cs data 0 4 = data &&& 0x0F
    rw [and_low_nibble]
    unfold deposit
    omega
  · have loaded : ∀ m' : Machine σ, ((sfrLoad B 0xFFFFD).run m').1 = m'.cpu.es := fun _ => rfl
    show deposit m.cpu.es data 0 4 = data &&& 0x0F
    rw [and_low_nibble]
    unfold deposit
    omega

def ReadsBack (B : Bus σ) (form second : Form) (m : Machine σ) (paddr : Nat) : Prop :=
  ∀ data, ((second.load B).run ((form.store B data).run m).2).1 = data &&& registerMask paddr

theorem agrees_readsBack {form second : Form} (mapped : paddr ∈ byteRegisters)
    (cs : m.cpu.cs ≤ 0xF) (es : m.cpu.es ≤ 0xF) (byte : form.memop = .mo8)
    (byte' : second.memop = .mo8) (agrees : Agrees B form m paddr)
    (agrees' : ∀ data, Agrees B second ((form.store B data).run m).2 paddr) :
    ReadsBack B form second m paddr := by
  intro data
  have store : ((form.store B data).run m).2.cpu = ((sfrStore B paddr data).run m).2.cpu := by
    unfold Agrees at agrees
    rw [byte] at agrees
    exact agrees.2 data
  have load : ((second.load B).run ((form.store B data).run m).2).1 =
      ((sfrLoad B paddr).run ((form.store B data).run m).2).1 := by
    have here := agrees' data
    unfold Agrees at here
    rw [byte'] at here
    exact here.1
  rw [load, sfrLoad_congr mapped store]
  exact sfrLoad_sfrStore mapped cs es data

/-- Where a form has the address of a register, its loads and stores are those of the `sfr` form,
and of two of them for a word, exactly if the form sees the register; a byte that is stored
through such a form is read back through every other one. -/
theorem mappedRegisters_iff_sees {form : Form} (at_paddr : form.addr m = some paddr)
    (mapped : Mapped paddr form.memop) :
    (Agrees B form m paddr ↔ Sees form m.cpu paddr) ∧
      ∀ second : Form, m.cpu.cs ≤ 0xF → m.cpu.es ≤ 0xF → form.memop = .mo8 →
        second.memop = .mo8 → Sees form m.cpu paddr →
        (∀ data, second.addr ((form.store B data).run m).2 = some paddr ∧
          Sees second ((form.store B data).run m).2.cpu paddr) →
        ReadsBack B form second m paddr := by
  have agrees := @agrees_iff_sees σ B m paddr form at_paddr mapped
  refine ⟨agrees, fun second cs es byte byte' sees also => ?_⟩
  rw [byte] at mapped
  have mapped' : Mapped paddr second.memop := by
    rw [byte']
    exact mapped
  exact agrees_readsBack mapped cs es byte byte' (agrees.mpr sees) fun data =>
    (agrees_iff_sees (also data).1 mapped').mpr (also data).2

/-- `!0FFF8H`, without the prefix. -/
def absSp : Form := .operand ⟨false, 0, 0⟩ (.abs16 0xFFF8) .mo8

/-- `[HL]`. -/
def indHl : Form := .operand ⟨false, 0, 0⟩ (.indReg .hl) .mo8

/-- `HL` has the address of `SPL`. -/
def hlAtSp : Machine Unit := (anyMachine.setReg 6 0xF8).setReg 7 0xFF

/-- The low byte of the stack pointer through an absolute address. -/
theorem mappedRegisters_absSp :
    (Agrees zeroBus absSp anyMachine 0xFFFF8 ↔ Sees absSp anyMachine.cpu 0xFFFF8) ∧
      ∀ second : Form, anyMachine.cpu.cs ≤ 0xF → anyMachine.cpu.es ≤ 0xF → absSp.memop = .mo8 →
        second.memop = .mo8 → Sees absSp anyMachine.cpu 0xFFFF8 →
        (∀ data, second.addr ((absSp.store zeroBus data).run anyMachine).2 = some 0xFFFF8 ∧
          Sees second ((absSp.store zeroBus data).run anyMachine).2.cpu 0xFFFF8) →
        ReadsBack zeroBus absSp second anyMachine 0xFFFF8 :=
  mappedRegisters_iff_sees (by decide) (by decide : 0xFFFF8 ∈ byteRegisters)

/-- The address that is computed at run time is that of the stack pointer, but the store goes to
memory. -/
theorem indHl_misses : indHl.addr hlAtSp = some 0xFFFF8 ∧
    ((indHl.store zeroBus 2).run hlAtSp).2.cpu.sp = 0 ∧
    ((sfrStore zeroBus 0xFFFF8 2).run hlAtSp).2.cpu.sp = 2 ∧
    ¬Agrees zeroBus indHl hlAtSp 0xFFFF8 := by
  have there : indHl.addr hlAtSp = some 0xFFFF8 := by decide +kernel
  have mapped : Mapped 0xFFFF8 indHl.memop := (by decide : 0xFFFF8 ∈ byteRegisters)
  have memory : ((indHl.store zeroBus 2).run hlAtSp).2.cpu.sp = 0 := by decide
  have register : ((sfrStore zeroBus 0xFFFF8 2).run hlAtSp).2.cpu.sp = 2 := by decide
  refine ⟨there, memory, register, fun agrees => ?_⟩
  exact (agrees_iff_sees there mapped).mp agrees

end Tlib.Rl78
