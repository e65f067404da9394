import Tlib.Rl78.IndexedAddresses

/-!
Contract: `BTCLR` against `BT` and `CLR1` on the same bit.

Owns: when the two ways to memory lead to the same byte, for registers that are mapped to memory as
well.
-/

namespace Tlib.Rl78

open Tlib.Library.Words Nat

variable {σ : Type} {B : Bus σ} {ctx : Context} {m : Machine σ} {paddr : Nat}

/-! ### Memory -/

/-- The helpers and generated code find the same bytes. -/
structure Bus.Coherent (B : Bus σ) : Prop where
  load : ∀ addr s, B.load .mo8 addr s = B.readHost addr s
  store : ∀ addr data s, data < 2 ^ 8 → B.store .mo8 addr data s = B.writeHost addr data s

/-- Memory of bytes. -/
def ramBus : Bus (Nat → Nat) where
  load memop addr s :=
    match memop with
    | .mo8 => (s addr % 2 ^ 8, s)
    | .mo16 => (s addr % 2 ^ 8 + 2 ^ 8 * (s (addr + 1) % 2 ^ 8), s)
  store memop addr data s :=
    match memop with
    | .mo8 => Function.update s addr (data % 2 ^ 8)
    | .mo16 => Function.update (Function.update s addr (data % 2 ^ 8)) (addr + 1) (data / 2 ^ 8 % 2 ^ 8)
  readHost paddr s := (s paddr % 2 ^ 8, s)
  writeHost paddr data s := Function.update s paddr (data % 2 ^ 8)
  lduwPhys paddr s := (s paddr % 2 ^ 8 + 2 ^ 8 * (s (paddr + 1) % 2 ^ 8), s)
  stbPhys paddr data s := Function.update s paddr (data % 2 ^ 8)
  load_lt := plainLoad_lt
  readHost_lt := plainByte_lt
  lduwPhys_lt := plainWord_lt

theorem ramBus_coherent : ramBus.Coherent where
  load _ _ := rfl
  store _ _ _ _ := rfl

/-- The addresses at which an access does not go to memory. -/
def specialPaddrs : List Nat := 0xFFFFB :: byteRegisters

theorem loadBytePaddr_memory (memory : paddr ∉ byteRegisters) :
    loadBytePaddr B paddr = rl78GenLoad B paddr .mo8 := by
  unfold loadBytePaddr
  split
  all_goals first
    | rfl
    | exact absurd (by decide) memory

theorem storeBytePaddr_memory (memory : paddr ∉ byteRegisters) {data : Nat} (byte : data < 2 ^ 8) :
    storeBytePaddr B paddr data = writeByte B paddr data := by
  unfold storeBytePaddr
  split
  all_goals first
    | rfl
    | exact absurd (by decide) memory
    | skip
  have low : data &&& 0xFF = data := by
    rw [and_low_byte]
    exact mod_eq_of_lt byte
  show helperMduCmd B data = helperMduCmd B (data &&& 0xFF)
  rw [low]

theorem readByte_memory (memory : paddr ∉ byteRegisters) :
    (readByte B paddr).run m = (busReadHost B paddr).run m := by
  unfold readByte
  split
  all_goals first
    | rfl
    | exact absurd (by decide) memory

theorem writeByte_memory (memory : paddr ∉ specialPaddrs) (data : Nat) :
    writeByte B paddr data = busWriteHost B paddr (data &&& 0xFF) := by
  unfold writeByte
  split
  all_goals first
    | rfl
    | exact absurd (by decide) memory

def registerByte (cpu : Cpu) (paddr : Nat) : Nat :=
  ((readByte zeroBus paddr).run { cpu := cpu, bus := (), update := false }).1

theorem readByte_register (register : paddr ∈ byteRegisters) :
    (readByte B paddr).run m = (registerByte m.cpu paddr, m) := by
  rcases mem_byteRegisters.mp register with rfl | rfl | rfl | rfl | rfl <;> rfl

/-! ### Bits of a byte -/

theorem bit_ne_zero_iff (byte index : Nat) :
    (byte >>> index) &&& 1 ≠ 0 ↔ byte.testBit index = true := by
  rw [testBit, Nat.and_comm, bne_iff_ne]

theorem index_and_seven {index : Nat} (less : index < 8) : index &&& 7 = index := by
  have low : index &&& 7 = index % 2 ^ 3 := and_two_pow_sub_one_eq_mod index 3
  omega

theorem mask_eq_zero_iff {byte index : Nat} :
    byte &&& 1 <<< index = 0 ↔ byte.testBit index = false := by
  rw [one_shiftLeft, and_two_pow]
  cases byte.testBit index with
  | false => simp
  | true => simp

def clearedByte (byte index : Nat) : Nat := byte &&& (0xFF ^^^ 1 <<< index)

theorem clearedByte_eq {byte index : Nat} (small : byte < 2 ^ 8) (less : index < 8) :
    clearedByte byte index = byte - 2 ^ index * (byte / 2 ^ index % 2) := by
  have all : ∀ byte < 2 ^ 8, ∀ index < 8,
      clearedByte byte index = byte - 2 ^ index * (byte / 2 ^ index % 2) := by
    decide +kernel
  exact all byte small index less

theorem clearedByte_lt {byte : Nat} (index : Nat) (small : byte < 2 ^ 8) :
    clearedByte byte index < 2 ^ 8 := and_le_left.trans_lt small

theorem bitStoredData_clear {byte index : Nat} (small : byte < 2 ^ 8) (less : index < 8) :
    bitStoredData index { byte := byte, bit := 0 } = clearedByte byte index := by
  have all : ∀ byte < 2 ^ 8, ∀ index < 8,
      bitStoredData index { byte := byte, bit := 0 } = clearedByte byte index := by
    decide +kernel
  exact all byte small index less

/-! ### What `BTCLR` should do -/

def bitInsn (mnemonic : Mnemonic) (kind : BitOpKind) (index addr : Nat) (target : Operand) :
    Instruction :=
  { mnemonic := mnemonic, operand0 := .bit kind index addr, operand1 := target }

/-- The registers and the memory system; what the translator has decided is left aside. -/
def SameState (m m' : Machine σ) : Prop := m.cpu = m'.cpu ∧ m.bus = m'.bus

section

variable (B) (ctx) (kind : BitOpKind) (index addr : Nat) (target : Operand) (m)

def afterBtclr : Machine σ := ((transBtclr B ctx (bitInsn .btclr kind index addr target)).run m).2

def afterBt : Machine σ := ((transBt B ctx (bitInsn .bt kind index addr target)).run m).2

def afterClr1 : Machine σ := ((transClr1 B ctx (bitInsn .clr1 kind index addr .none)).run m).2

/-- `BTCLR` branches as `BT` does, and clears the bit as `CLR1` does. -/
structure Combines : Prop where
  branch : taken B ctx (bitInsn .btclr kind index addr target) m =
    taken B ctx (bitInsn .bt kind index addr target) m
  cleared : taken B ctx (bitInsn .bt kind index addr target) m = true →
    SameState (afterBtclr B ctx m kind index addr target)
      ((afterClr1 B ctx m kind index addr).setPc (branchTarget ctx target))
  untaken : taken B ctx (bitInsn .bt kind index addr target) m = false →
    SameState (afterBtclr B ctx m kind index addr target)
        ((m.setBus (afterBt B ctx m kind index addr target).bus).setPc ctx.pc) ∧
      ((∀ memop paddr, (B.load memop paddr m.bus).2 = m.bus) →
        SameState (afterBtclr B ctx m kind index addr target) (m.setPc ctx.pc))

end

/-- Whatever memory holds. -/
def CombinesAlways (ctx : Context) (kind : BitOpKind) (index addr : Nat) (target : Operand)
    (cpu : Cpu) : Prop :=
  ∀ (σ : Type) (B : Bus σ), B.Coherent → ∀ (bus : σ) (update : Bool),
    Combines B ctx { cpu := cpu, bus := bus, update := update } kind index addr target

/-! ### One bit -/

/-- What an instruction on a bit does with the byte, access by access. -/
structure BitAccess (B : Bus σ) (ctx : Context) (kind : BitOpKind) (index addr : Nat)
    (m : Machine σ) (byte byte' : Nat) (bus : σ) (cleared : Machine σ) : Prop where
  load : (bitByte B ctx kind addr).run m = (byte, m.setBus bus)
  helper : (helperBtclr B kind addr index ctx.useEs).run m =
    if byte'.testBit index then (1, cleared) else (0, m.setBus bus)
  quiet : (∀ memop paddr, (B.load memop paddr m.bus).2 = m.bus) → bus = m.bus

section

variable {kind : BitOpKind} {index addr : Nat} {target : Operand} {byte byte' : Nat} {bus : σ}
  {cleared : Machine σ}

section

variable (access : BitAccess B ctx kind index addr m byte byte' bus cleared)

include access

theorem BitAccess.loadBit : (rl78GenLoadBit B ctx (.bit kind index addr)).run m =
      ({ byte := byte, bit := (byte >>> index) &&& 1 }, m.setBus bus) := by
  show ((bitByte B ctx kind addr >>= fun data =>
    pure { byte := data, bit := (data >>> index) &&& 1 }) : Exec σ BitData).run m = _
  rw [StateT.run_bind, access.load]
  rfl

theorem BitAccess.taken_bt :
    taken B ctx (bitInsn .bt kind index addr target) m = byte.testBit index := by
  show decide (((rl78GenLoadBit B ctx (.bit kind index addr)).run m).1.bit ≠ 0) = _
  rw [access.loadBit, Bool.eq_iff_iff, decide_eq_true_iff]
  exact bit_ne_zero_iff byte index

theorem BitAccess.taken_btclr :
    taken B ctx (bitInsn .btclr kind index addr target) m = byte'.testBit index := by
  show decide (((helperBtclr B kind addr index ctx.useEs).run m).1 ≠ 0) = _
  rw [access.helper]
  cases byte'.testBit index <;> rfl

theorem BitAccess.afterBtclr : Rl78.afterBtclr B ctx m kind index addr target =
      if byte'.testBit index then cleared.setPc (branchTarget ctx target)
      else (m.setBus bus).setPc ctx.pc := by
  show (((helperBtclr B kind addr index ctx.useEs >>= fun took =>
    genExitTb (if took ≠ 0 then branchTarget ctx target else ctx.pc)) : Exec σ Exit).run m).2 = _
  rw [StateT.run_bind, access.helper]
  cases byte'.testBit index <;> rfl

theorem BitAccess.afterBt_bus : (afterBt B ctx m kind index addr target).bus = bus := by
  show (((rl78GenLoadBit B ctx (.bit kind index addr) >>= fun bit =>
    rl78GenBranch ctx target (bit.bit ≠ 0)) : Exec σ Exit).run m).2.bus = bus
  rw [StateT.run_bind, access.loadBit]
  show ((rl78GenBranch ctx target _).run (m.setBus bus)).2.bus = bus
  unfold rl78GenBranch
  split <;> rfl

theorem BitAccess.combines_iff : Combines B ctx m kind index addr target ↔
      byte'.testBit index = byte.testBit index ∧ (byte.testBit index = true →
          SameState (cleared.setPc (branchTarget ctx target))
            ((afterClr1 B ctx m kind index addr).setPc (branchTarget ctx target))) := by
  have branch := @BitAccess.taken_btclr σ B ctx m kind index addr target _ _ _ _ access
  have bt := @BitAccess.taken_bt σ B ctx m kind index addr target _ _ _ _ access
  have after := @BitAccess.afterBtclr σ B ctx m kind index addr target _ _ _ _ access
  have read := @BitAccess.afterBt_bus σ B ctx m kind index addr target _ _ _ _ access
  constructor
  · rintro ⟨same, took, _⟩
    rw [branch, bt] at same
    refine ⟨same, fun isSet => ?_⟩
    have state := took (bt.trans isSet)
    rwa [after, same, isSet, if_pos rfl] at state
  · rintro ⟨same, stores⟩
    refine ⟨?_, fun took => ?_, fun untaken => ?_⟩
    · rw [branch, bt, same]
    · rw [bt] at took
      rw [after, same, took, if_pos rfl]
      exact stores took
    · rw [bt] at untaken
      rw [after, same, untaken, if_neg (by decide), read]
      refine ⟨⟨rfl, rfl⟩, fun quiet => ?_⟩
      rw [access.quiet quiet]
      exact ⟨rfl, rfl⟩

theorem BitAccess.afterClr1 : Rl78.afterClr1 B ctx m kind index addr =
      ((rl78GenStoreOperand B ctx (bitOperand kind addr)
        (bitStoredData index { byte := byte, bit := 0 }) .mo8).run (m.setBus bus)).2 := by
  show (((rl78GenLoadBit B ctx (.bit kind index addr) >>= fun dst =>
    rl78GenStoreBit B ctx (.bit kind index addr) { dst with bit := 0 }) : Exec σ Unit).run m).2 = _
  rw [StateT.run_bind, access.loadBit]
  show ((rl78GenStoreBit B ctx (.bit kind index addr) { byte := byte, bit := 0 }).run
    (m.setBus bus)).2 = _
  rw [rl78GenStoreBit_eq]

end

theorem memoryAccess {byte byte' : Nat} {bus : σ} {kind : BitOpKind} (less : index < 8)
    (helper : (helperBtclr B kind addr index ctx.useEs).run m = (helperBtclrPaddr B paddr index).run m)
    (load : (bitByte B ctx kind addr).run m = (byte, m.setBus bus))
    (read : (readByte B paddr).run m = (byte', m.setBus bus))
    (quiet : (∀ memop paddr, (B.load memop paddr m.bus).2 = m.bus) → bus = m.bus) :
    BitAccess B ctx kind index addr m byte byte' bus
      ((writeByte B paddr (clearedByte byte' index)).run (m.setBus bus)).2 := by
  refine ⟨load, ?_, quiet⟩
  rw [helper]
  unfold helperBtclrPaddr
  rw [StateT.run_bind, read, index_and_seven less]
  cases isSet : byte'.testBit index with
  | false =>
    have zero := mask_eq_zero_iff.mpr isSet
    show ((if byte' &&& 1 <<< index = 0 then pure 0 else _ : Exec σ Nat)).run (m.setBus bus) = _
    rw [if_pos zero, if_neg (by decide)]
    rfl
  | true =>
    have nonzero : ¬byte' &&& 1 <<< index = 0 := fun zero => by
      rw [mask_eq_zero_iff.mp zero] at isSet
      cases isSet
    show ((if byte' &&& 1 <<< index = 0 then _ else _ : Exec σ Nat)).run (m.setBus bus) = _
    rw [if_neg nonzero, if_pos rfl]
    rfl

end

/-! ### `A` -/

theorem regA_combines (range : InRange m.cpu) {index : Nat} (less : index < 8) (addr : Nat)
    (target : Operand) : Combines B ctx m .regA index addr target := by
  have byte := m.cpu.byteValue_lt .a
  have read : m.cpu.regs (helperReg m.cpu.psw ByteRegister.a.index) &&& 0xFF =
      m.cpu.byteValue .a := and_low_byte _
  have access : BitAccess B ctx .regA index addr m (m.cpu.byteValue .a) (m.cpu.byteValue .a) m.bus
      (m.setReg (helperReg m.cpu.psw ByteRegister.a.index)
        (clearedByte (m.cpu.byteValue .a) index)) := by
    refine ⟨loadByteReg_run range .a, ?_, fun _ => rfl⟩
    show (btclrRegA index).run m = _
    unfold btclrRegA
    rw [get_run]
    rw [read, index_and_seven less]
    cases isSet : (m.cpu.byteValue .a).testBit index with
    | false =>
      rw [if_pos (mask_eq_zero_iff.mpr isSet), if_neg (by decide)]
      rfl
    | true =>
      have nonzero : ¬m.cpu.byteValue .a &&& 1 <<< index = 0 := fun zero => by
        rw [mask_eq_zero_iff.mp zero] at isSet
        cases isSet
      rw [if_neg nonzero, if_pos rfl]
      rfl
  refine access.combines_iff.mpr ⟨rfl, fun _ => ?_⟩
  have stored : (storeByteReg .a (clearedByte (m.cpu.byteValue .a) index)).run m =
      ((), m.setReg (helperReg m.cpu.psw ByteRegister.a.index)
        (clearedByte (m.cpu.byteValue .a) index)) := by
    have place := congrArg Prod.fst (regPtr_run range ByteRegister.a.index_lt)
    have low : clearedByte (m.cpu.byteValue .a) index &&& 0xFF =
        clearedByte (m.cpu.byteValue .a) index := by
      rw [and_low_byte]
      exact mod_eq_of_lt (clearedByte_lt index byte)
    show ((), m.setReg ((regPtr ByteRegister.a.index).run m).1 _) = _
    rw [place, low]
  rw [access.afterClr1, bitStoredData_clear byte less]
  show SameState _ ((((storeByteReg .a _).run m).2).setPc _)
  rw [stored]
  exact ⟨rfl, rfl⟩

/-! ### Addresses that the translator knows -/

theorem sameState_of_cpu {m m' : Machine σ} (target : Nat) (cpu : m.cpu = m'.cpu)
    (bus : m.bus = m'.bus) : SameState (m.setPc target) (m'.setPc target) :=
  ⟨congrArg (fun cpu : Cpu => { cpu with pc := target }) cpu, bus⟩

section

variable (register : paddr ∈ byteRegisters)

include register

theorem loadBytePaddr_register :
    (loadBytePaddr B paddr).run m = (((sfrLoad B paddr).run m).1, m) := by
  rcases mem_byteRegisters.mp register with rfl | rfl | rfl | rfl | rfl <;> rfl

theorem storeBytePaddr_cpu (data : Nat) :
    ((storeBytePaddr B paddr data).run m).2.cpu = ((sfrStore B paddr data).run m).2.cpu := by
  rcases mem_byteRegisters.mp register with rfl | rfl | rfl | rfl | rfl <;> rfl

theorem storeBytePaddr_bus (data : Nat) : ((storeBytePaddr B paddr data).run m).2.bus = m.bus := by
  rcases mem_byteRegisters.mp register with rfl | rfl | rfl | rfl | rfl <;> rfl

theorem writeByte_bus (data : Nat) : ((writeByte B paddr data).run m).2.bus = m.bus := by
  rcases mem_byteRegisters.mp register with rfl | rfl | rfl | rfl | rfl <;> rfl

end

structure KnownBit (B : Bus σ) (ctx : Context) (kind : BitOpKind) (index addr paddr : Nat)
    (m : Machine σ) : Prop where
  load : bitByte B ctx kind addr = loadBytePaddr B paddr
  store : ∀ data, rl78GenStoreOperand B ctx (bitOperand kind addr) data .mo8 =
    storeBytePaddr B paddr data
  helper : (helperBtclr B kind addr index ctx.useEs).run m = (helperBtclrPaddr B paddr index).run m

section

variable {kind : BitOpKind} {index addr : Nat}

theorem KnownBit.registerAccess (known : KnownBit B ctx kind index addr paddr m)
    (less : index < 8) (register : paddr ∈ byteRegisters) :
    BitAccess B ctx kind index addr m ((sfrLoad B paddr).run m).1 (registerByte m.cpu paddr) m.bus
      ((writeByte B paddr (clearedByte (registerByte m.cpu paddr) index)).run m).2 := by
  refine memoryAccess less known.helper ?_ (readByte_register register) fun _ => rfl
  rw [known.load]
  exact loadBytePaddr_register register

theorem registerByte_eq (B : Bus σ) (register : paddr ∈ byteRegisters)
    (sees : HelperSees m.cpu paddr) : registerByte m.cpu paddr = ((sfrLoad B paddr).run m).1 := by
  have agrees := (readByte_agrees (B := B) (m := m) register).mpr sees
  rwa [readByte_register register] at agrees

theorem KnownBit.combines_of_sees (known : KnownBit B ctx kind index addr paddr m)
    (less : index < 8) (register : paddr ∈ byteRegisters) (sees : HelperSees m.cpu paddr)
    (small : registerByte m.cpu paddr < 2 ^ 8) (target : Operand) :
    Combines B ctx m kind index addr target := by
  have access := known.registerAccess less register
  have same := registerByte_eq B register sees
  refine access.combines_iff.mpr ⟨by rw [same], fun _ => ?_⟩
  rw [access.afterClr1, known.store, ← same, bitStoredData_clear small less]
  refine sameState_of_cpu _ ?_ ?_
  · rw [writeByte_agrees register sees]
    exact (storeBytePaddr_cpu register _).symm
  · rw [writeByte_bus register]
    exact (storeBytePaddr_bus register _).symm

theorem spl_stores {data data' : Nat} (half : data / 2 = data' / 2) :
    ((writeByte B 0xFFFF8 data).run m).2.cpu = ((storeBytePaddr B 0xFFFF8 data').run m).2.cpu := by
  have same : ((m.cpu.sp &&& 0xFF00) ||| (data &&& 0xFF)) &&& 0xFFFE =
      deposit m.cpu.sp (extract data' 0 8) 0 8 &&& 0xFFFE := by
    rw [and_ff00, and_low_byte, bytes_or _ (by omega), and_fffe, and_fffe]
    unfold deposit extract
    omega
  exact congrArg (fun sp => { m.cpu with sp := sp }) same

theorem clearedByte_half {byte byte' : Nat} (index : Nat) (half : byte / 2 = byte' / 2) :
    clearedByte byte index / 2 = clearedByte byte' index / 2 := by
  unfold clearedByte
  rw [and_div_two, and_div_two, half]

theorem KnownBit.spl_combines_iff (known : KnownBit B ctx kind index addr 0xFFFF8 m)
    (less : index < 8) (odd : m.cpu.sp % 2 = 1) (target : Operand) :
    Combines B ctx m kind index addr target ↔ index ≠ 0 := by
  have access := known.registerAccess less (by decide)
  have byte : ((sfrLoad B 0xFFFF8).run m).1 = 2 * (m.cpu.sp / 2 % 2 ^ 7) := by
    show extract (m.cpu.sp &&& 0xFFFE) 0 8 = _
    rw [and_fffe]
    unfold extract
    omega
  have byte' : registerByte m.cpu 0xFFFF8 = 2 * (m.cpu.sp / 2 % 2 ^ 7) + 1 := by
    show m.cpu.sp &&& 0xFF = _
    rw [and_low_byte]
    omega
  rw [byte, byte'] at access
  rw [access.combines_iff]
  constructor
  · rintro ⟨same, _⟩ rfl
    rw [testBit_zero, testBit_zero, decide_eq_decide] at same
    omega
  · intro nonzero
    obtain ⟨rest, rfl⟩ := exists_eq_succ_of_ne_zero nonzero
    have half : (2 * (m.cpu.sp / 2 % 2 ^ 7) + 1) / 2 = 2 * (m.cpu.sp / 2 % 2 ^ 7) / 2 := by omega
    refine ⟨by rw [succ_eq_add_one, testBit_succ, testBit_succ, half], fun _ => ?_⟩
    rw [access.afterClr1, known.store, bitStoredData_clear (by omega) less]
    exact sameState_of_cpu _ (spl_stores (clearedByte_half _ half)) rfl

theorem KnownBit.es_combines_iff (known : KnownBit B ctx kind index addr 0xFFFFD m)
    (less : index < 8) (wide : 0xF < m.cpu.es) (target : Operand) :
    Combines B ctx m kind index addr target ↔ m.cpu.es.testBit index = false := by
  have access : BitAccess B ctx kind index addr m m.cpu.es (m.cpu.es &&& 0x0F) m.bus
      ((writeByte B 0xFFFFD (clearedByte (m.cpu.es &&& 0x0F) index)).run m).2 :=
    known.registerAccess less (by decide)
  rw [access.combines_iff]
  constructor
  · rintro ⟨_, stores⟩
    rw [Bool.eq_false_iff]
    intro isSet
    have state := (stores isSet).1
    rw [access.afterClr1, known.store] at state
    -- generated code keeps the upper bits of the segment
    have es : (clearedByte (m.cpu.es &&& 0x0F) index &&& 0xFF) &&& 0x0F =
        deposit m.cpu.es (bitStoredData index { byte := m.cpu.es, bit := 0 }) 0 4 :=
      congrArg Cpu.es state
    rw [and_low_nibble] at es
    unfold deposit at es
    omega
  · intro clear
    have clear' : (m.cpu.es &&& 0x0F).testBit index = false := by
      rw [testBit_and, clear, Bool.false_and]
    exact ⟨clear'.trans clear.symm, fun isSet => absurd (clear.symm.trans isSet) (by decide)⟩

theorem KnownBit.memory_combines (known : KnownBit B ctx kind index addr paddr m)
    (coherent : B.Coherent) (less : index < 8) (memory : paddr ∉ byteRegisters)
    (target : Operand) : Combines B ctx m kind index addr target := by
  have small : (B.load .mo8 paddr m.bus).1 < 2 ^ 8 := B.load_lt .mo8 paddr m.bus
  have load : (bitByte B ctx kind addr).run m =
      ((B.load .mo8 paddr m.bus).1, m.setBus (B.load .mo8 paddr m.bus).2) := by
    rw [known.load, loadBytePaddr_memory memory]
    rfl
  have read : (readByte B paddr).run m =
      ((B.load .mo8 paddr m.bus).1, m.setBus (B.load .mo8 paddr m.bus).2) := by
    rw [readByte_memory memory, coherent.load]
    rfl
  have access := memoryAccess less known.helper load read fun quiet => quiet .mo8 paddr
  refine access.combines_iff.mpr ⟨rfl, fun _ => ?_⟩
  rw [access.afterClr1, known.store, bitStoredData_clear small less,
    storeBytePaddr_memory memory (clearedByte_lt index small)]
  exact ⟨rfl, rfl⟩

/-- The bit is the same on both ways, also in an odd `SP` and in a segment register. -/
def SeesBit (cpu : Cpu) (paddr index : Nat) : Prop :=
  (paddr = 0xFFFF8 → index = 0 → cpu.sp % 2 = 0) ∧
    (paddr = 0xFFFFD → cpu.es ≤ 0xF ∨ cpu.es.testBit index = false)

theorem seesBit_spl (cpu : Cpu) (index : Nat) :
    SeesBit cpu 0xFFFF8 index ↔ (index = 0 → cpu.sp % 2 = 0) := by
  simp [SeesBit]

theorem seesBit_es (cpu : Cpu) (index : Nat) :
    SeesBit cpu 0xFFFFD index ↔ cpu.es ≤ 0xF ∨ cpu.es.testBit index = false := by
  simp [SeesBit]

theorem seesBit_of_ne (cpu : Cpu) (index : Nat) (notSpl : paddr ≠ 0xFFFF8)
    (notEs : paddr ≠ 0xFFFFD) : SeesBit cpu paddr index :=
  ⟨fun isSpl => absurd isSpl notSpl, fun isEs => absurd isEs notEs⟩

theorem registerByte_lt (register : paddr ∈ byteRegisters) :
    registerByte m.cpu paddr < 2 ^ 8 := by
  rcases mem_byteRegisters.mp register with rfl | rfl | rfl | rfl | rfl
  · exact (and_le_right (m := 0xFF)).trans_lt (by decide)
  · exact (and_le_right (m := 0xFF)).trans_lt (by decide)
  · show cpuPackPsw m.cpu.psw < 2 ^ 8
    unfold cpuPackPsw
    omega
  · exact (and_le_right (m := 0x0F)).trans_lt (by decide)
  · exact (and_le_right (m := 0x0F)).trans_lt (by decide)

theorem KnownBit.combines_iff (known : KnownBit B ctx kind index addr paddr m)
    (coherent : B.Coherent) (range : InRange m.cpu) (less : index < 8) (target : Operand) :
    Combines B ctx m kind index addr target ↔ SeesBit m.cpu paddr index := by
  by_cases register : paddr ∈ byteRegisters
  · have sees (helper : HelperSees m.cpu paddr) : Combines B ctx m kind index addr target :=
      known.combines_of_sees less register helper (registerByte_lt register) target
    rcases mem_byteRegisters.mp register with rfl | rfl | rfl | rfl | rfl
    · rw [seesBit_spl]
      rcases mod_two_eq_zero_or_one m.cpu.sp with even | odd
      · exact iff_of_true (sees ((helperSees_spl _).mpr even)) fun _ => even
      · rw [known.spl_combines_iff less odd]
        omega
    · exact iff_of_true (sees (helperSees_sph _)) (seesBit_of_ne _ _ (by decide) (by decide))
    · have cy := range.psw.cy_le
      exact iff_of_true (sees ((helperSees_psw _).mpr (by omega)))
        (seesBit_of_ne _ _ (by decide) (by decide))
    · exact iff_of_true (sees ((helperSees_cs _).mpr range.cs_le))
        (seesBit_of_ne _ _ (by decide) (by decide))
    · rw [seesBit_es]
      rcases Nat.lt_or_ge 0xF m.cpu.es with wide | narrow
      · rw [known.es_combines_iff less wide]
        refine ⟨.inr, fun same => ?_⟩
        rcases same with narrow | clear
        · omega
        · exact clear
      · exact iff_of_true (sees ((helperSees_es _).mpr narrow)) (.inl narrow)
  · refine iff_of_true (known.memory_combines coherent less register target)
      (seesBit_of_ne _ _ ?_ ?_)
    · rintro rfl
      exact absurd (by decide) register
    · rintro rfl
      exact absurd (by decide) register

end

theorem saddr_known {index addr : Nat} (bytes : (Operand.saddr addr).InBytes) :
    KnownBit B ctx .saddr index addr (saddrPaddr addr) m := by
  have byte : addr < 256 := bytes addr (by simp [Operand.encoded])
  refine ⟨rfl, fun _ => rfl, ?_⟩
  have paddr : (if addr < 0x20 then 0xFFF00 else 0xFFE00) + (addr &&& 0xFF) = saddrPaddr addr := by
    rw [and_low_byte, mod_eq_of_lt byte]
    rfl
  show (helperBtclrPaddr B ((if addr < 0x20 then 0xFFF00 else 0xFFE00) + (addr &&& 0xFF)) index).run
    m = _
  rw [paddr]

theorem sfr_known {index addr : Nat} (bytes : (Operand.sfr addr).InBytes) :
    KnownBit B ctx .sfr index addr (0xFFF00 + addr) m := by
  have byte : addr < 256 := bytes addr (by simp [Operand.encoded])
  refine ⟨rfl, fun _ => rfl, ?_⟩
  show (helperBtclrPaddr B (0xFFF00 + (addr &&& 0xFF)) index).run m = _
  rw [and_low_byte, mod_eq_of_lt byte]

theorem saddr_seesBit {addr : Nat} (cpu : Cpu) (index : Nat) (byte : addr < 2 ^ 8) :
    SeesBit cpu (saddrPaddr addr) index := by
  refine seesBit_of_ne _ _ ?_ ?_ <;> unfold saddrPaddr <;> split <;> omega

/-! ### `[HL]` -/

/-- The address of `[HL]`. -/
def hlAddr (cpu : Cpu) (useEs : Bool) : Nat := inSegment (segment cpu useEs) (cpu.wordValue .hl)

theorem indHl_runAddr (ctx : Context) (range : InRange m.cpu) :
    ∃ addr, operandRunAddr ctx (.indRegImm .hl 0) = some addr ∧
      (addr.run m).1 = hlAddr m.cpu ctx.useEs := by
  have bytes : (Operand.indRegImm .hl 0).InBytes := by
    intro byte mem
    simp only [Operand.encoded, List.mem_singleton] at mem
    omega
  obtain ⟨addr, found, run⟩ := indAddr_indexed ctx range bytes rfl
  refine ⟨addr, found, ?_⟩
  rw [run]
  exact rl78GenAddr_inSegment (m.cpu.wordValue_lt .hl)

theorem indHl_load (range : InRange m.cpu) (addr : Nat) :
    (bitByte B ctx .indHl addr).run m = ((B.load .mo8 (hlAddr m.cpu ctx.useEs) m.bus).1,
      m.setBus (B.load .mo8 (hlAddr m.cpu ctx.useEs) m.bus).2) := by
  obtain ⟨runAddr, found, paddr⟩ := indHl_runAddr ctx range
  show (rl78GenLoadOperand B ctx (.indRegImm .hl 0) .mo8).run m = _
  rw [load_of_runAddr .mo8 found, paddr]
  rfl

theorem indHl_store (range : InRange m.cpu) (addr data : Nat) :
    (rl78GenStoreOperand B ctx (bitOperand .indHl addr) data .mo8).run m =
      ((), m.setBus (B.store .mo8 (hlAddr m.cpu ctx.useEs) data m.bus)) := by
  obtain ⟨runAddr, found, paddr⟩ := indHl_runAddr ctx range
  show (rl78GenStoreOperand B ctx (.indRegImm .hl 0) data .mo8).run m = _
  rw [store_of_runAddr data .mo8 found, paddr]
  rfl

theorem indHl_helper (index addr : Nat) (useEs : Bool) :
    (helperBtclr B .indHl addr index useEs).run m =
      (helperBtclrPaddr B (btclrPaddr m.cpu .indHl addr useEs) index).run m := rfl

theorem indHl_paddr_iff (cpu : Cpu) (addr : Nat) (useEs : Bool) :
    btclrPaddr cpu .indHl addr useEs = hlAddr cpu useEs ↔
      (useEs = true → cpu.es % 2 ^ 16 ≤ 0xF) := by
  rw [btclrPaddr_indHl]
  exact helper_segment_iff cpu (cpu.wordValue_lt .hl) useEs

theorem indHl_combines (coherent : B.Coherent) (range : InRange m.cpu) {index : Nat}
    (less : index < 8) (addr : Nat) (target : Operand)
    (same : btclrPaddr m.cpu .indHl addr ctx.useEs = hlAddr m.cpu ctx.useEs)
    (memory : hlAddr m.cpu ctx.useEs ∉ specialPaddrs) :
    Combines B ctx m .indHl index addr target := by
  have notRegister : hlAddr m.cpu ctx.useEs ∉ byteRegisters :=
    fun register => memory (List.mem_cons_of_mem _ register)
  have small : (B.load .mo8 (hlAddr m.cpu ctx.useEs) m.bus).1 < 2 ^ 8 := B.load_lt .mo8 _ _
  have helper := @indHl_helper σ B m index addr ctx.useEs
  rw [same] at helper
  have read : (readByte B (hlAddr m.cpu ctx.useEs)).run m =
      ((B.load .mo8 (hlAddr m.cpu ctx.useEs) m.bus).1,
        m.setBus (B.load .mo8 (hlAddr m.cpu ctx.useEs) m.bus).2) := by
    rw [readByte_memory notRegister, coherent.load]
    rfl
  have access := memoryAccess less helper (indHl_load range addr) read fun quiet => quiet .mo8 _
  refine access.combines_iff.mpr ⟨rfl, fun _ => ?_⟩
  have stored := clearedByte_lt index small
  have low : clearedByte (B.load .mo8 (hlAddr m.cpu ctx.useEs) m.bus).1 index &&& 0xFF =
      clearedByte (B.load .mo8 (hlAddr m.cpu ctx.useEs) m.bus).1 index := by
    rw [and_low_byte]
    exact mod_eq_of_lt stored
  rw [access.afterClr1, bitStoredData_clear small less, writeByte_memory memory, low]
  rw [@indHl_store σ B ctx (m.setBus (B.load .mo8 (hlAddr m.cpu ctx.useEs) m.bus).2) range]
  refine sameState_of_cpu _ rfl ?_
  exact (coherent.store _ _ _ stored).symm

/-! ### Memories that tell the two ways apart -/

section

variable {cpu : Cpu} {index addr : Nat} {target : Operand}

def withRam (cpu : Cpu) (ram : Nat → Nat) : Machine (Nat → Nat) :=
  { cpu := cpu, bus := ram, update := false }

theorem readByte_ram (cpu : Cpu) (ram : Nat → Nat) (paddr : Nat) :
    (readByte ramBus paddr).run (withRam cpu ram) =
      (if paddr ∈ byteRegisters then registerByte cpu paddr else ram paddr % 2 ^ 8,
        withRam cpu ram) := by
  by_cases register : paddr ∈ byteRegisters
  · rw [readByte_register register, if_pos register]
    rfl
  · rw [readByte_memory register, if_neg register]
    rfl

def helperByte (cpu : Cpu) (ram : Nat → Nat) (paddr : Nat) : Nat :=
  if paddr ∈ byteRegisters then registerByte cpu paddr else ram paddr % 2 ^ 8

theorem ramAccess (range : InRange cpu) (less : index < 8) (addr : Nat) (ram : Nat → Nat) :
    BitAccess ramBus ctx .indHl index addr (withRam cpu ram)
      (ram (hlAddr cpu ctx.useEs) % 2 ^ 8)
      (helperByte cpu ram (btclrPaddr cpu .indHl addr ctx.useEs)) ram
      ((writeByte ramBus (btclrPaddr cpu .indHl addr ctx.useEs) (clearedByte
        (helperByte cpu ram (btclrPaddr cpu .indHl addr ctx.useEs)) index)).run
          (withRam cpu ram)).2 :=
  memoryAccess less (indHl_helper index addr ctx.useEs)
    (@indHl_load _ ramBus ctx (withRam cpu ram) range addr)
    (readByte_ram cpu ram _) fun _ => rfl

theorem ones_testBit (less : index < 8) : (0xFF : Nat).testBit index = true := by
  have all : ∀ index < 8, (0xFF : Nat).testBit index = true := by decide
  exact all index less

theorem CombinesAlways.sees (always : CombinesAlways ctx .indHl index addr target cpu)
    (range : InRange cpu) (less : index < 8) :
    btclrPaddr cpu .indHl addr ctx.useEs = hlAddr cpu ctx.useEs ∧
      hlAddr cpu ctx.useEs ∉ byteRegisters := by
  have agree (ram : Nat → Nat) :=
    ((ramAccess range less addr ram).combines_iff.mp
      (always _ ramBus ramBus_coherent ram false) : _ ∧ _).1
  have memory : btclrPaddr cpu .indHl addr ctx.useEs ∉ byteRegisters := by
    intro register
    have both (value : Nat) := agree fun _ => value
    have zero := both 0
    have ones := both 0xFF
    unfold helperByte at zero ones
    rw [if_pos register] at zero ones
    rw [zero, zero_mod, zero_testBit] at ones
    exact absurd (ones.trans (ones_testBit less)) (by decide)
  have same : btclrPaddr cpu .indHl addr ctx.useEs = hlAddr cpu ctx.useEs := by
    by_contra apart
    have here := agree fun paddr => if paddr = hlAddr cpu ctx.useEs then 0xFF else 0
    unfold helperByte at here
    dsimp only at here
    rw [if_neg memory, if_neg apart, if_pos rfl, zero_mod, zero_testBit] at here
    exact absurd (here.trans (ones_testBit less)) (by decide)
  exact ⟨same, same ▸ memory⟩

theorem CombinesAlways.noCommand (always : CombinesAlways ctx .indHl index addr target cpu)
    (range : InRange cpu) (less : index < 8) : hlAddr cpu ctx.useEs ≠ 0xFFFFB := by
  intro command
  have same := (always.sees range less).1
  have access := @ramAccess ctx cpu index range less addr fun _ => 2 ^ index
  have small : 2 ^ index < 2 ^ 8 := Nat.pow_lt_pow_right (by decide) less
  have byte : helperByte cpu (fun _ => 2 ^ index) 0xFFFFB = 2 ^ index := by
    unfold helperByte
    rw [if_neg (by decide), mod_eq_of_lt small]
  have cleared : clearedByte (2 ^ index) index = 0 := by
    rw [clearedByte_eq small less, Nat.div_self (Nat.two_pow_pos index)]
    omega
  rw [same, command, byte, cleared, mod_eq_of_lt small] at access
  have stores := (access.combines_iff.mp (always _ ramBus ramBus_coherent _ false)).2
  have state := (stores testBit_two_pow_self).2
  rw [access.afterClr1, bitStoredData_clear small less, cleared] at state
  rw [@indHl_store _ ramBus ctx ((withRam cpu fun _ => 2 ^ index).setBus fun _ => 2 ^ index)
    range] at state
  have there := congrFun state 0xFFFFB
  have left : ((writeByte ramBus 0xFFFFB 0).run (withRam cpu fun _ => 2 ^ index)).2.bus 0xFFFFB =
      2 ^ index := rfl
  have right : Function.update (fun _ : Nat => 2 ^ index) (hlAddr cpu ctx.useEs) (0 % 2 ^ 8)
      0xFFFFB = 0 := by
    rw [command, Function.update_self, zero_mod]
  have absurd' : 2 ^ index = 0 := left.symm.trans (there.trans right)
  exact absurd absurd' (Nat.two_pow_pos index).ne'

end

/-! ### All bits -/

/-- Operands of `BTCLR` whose bit is the same on both ways. -/
def BothWaysSame (cpu : Cpu) (useEs : Bool) (index addr : Nat) : BitOpKind → Prop
  | .sfr => SeesBit cpu (0xFFF00 + addr) index
  | .indHl => (useEs = true → cpu.es % 2 ^ 16 ≤ 0xF) ∧ hlAddr cpu useEs ∉ specialPaddrs
  | _ => True

/-- The kinds of bits in the entries of `BTCLR`. -/
def btclrKinds : List BitOpKind := [.saddr, .regA, .sfr, .indHl]

/-- `BTCLR` does what `BT` and `CLR1` do, whatever memory holds, exactly if both ways to the bit
are the same. -/
theorem btclr_combines_iff {cpu : Cpu} {kind : BitOpKind} {index addr : Nat} (ctx : Context)
    (target : Operand) (range : InRange cpu) (isKind : kind ∈ btclrKinds) (less : index < 8)
    (bytes : (bitOperand kind addr).InBytes) :
    CombinesAlways ctx kind index addr target cpu ↔ BothWaysSame cpu ctx.useEs index addr kind := by
  cases kind with
  | saddr =>
    refine iff_of_true (fun σ B coherent bus update => ?_) trivial
    have known := @saddr_known σ B ctx ⟨cpu, bus, update⟩ index addr bytes
    have byte : addr < 2 ^ 8 := bytes addr (by simp [bitOperand, Operand.encoded])
    exact (known.combines_iff coherent range less target).mpr (saddr_seesBit cpu index byte)
  | regA => exact iff_of_true (fun σ B _ bus update => regA_combines range less addr target) trivial
  | sfr =>
    have known (σ : Type) (B : Bus σ) (bus : σ) (update : Bool) :=
      @sfr_known σ B ctx ⟨cpu, bus, update⟩ index addr bytes
    refine ⟨fun always => ?_, fun sees σ B coherent bus update => ?_⟩
    · exact ((known _ ramBus (fun _ => 0) false).combines_iff ramBus_coherent range less
        target).mp (always _ ramBus ramBus_coherent _ false)
    · exact ((known σ B bus update).combines_iff coherent range less target).mpr sees
  | indHl =>
    constructor
    · intro always
      have sees := always.sees range less
      refine ⟨(indHl_paddr_iff cpu addr ctx.useEs).mp sees.1, fun special => ?_⟩
      rcases List.mem_cons.mp special with command | register
      · exact always.noCommand range less command
      · exact sees.2 register
    · rintro ⟨segment, memory⟩ σ B coherent bus update
      exact indHl_combines coherent range less addr target
        ((indHl_paddr_iff cpu addr ctx.useEs).mpr segment) memory
  | abs16 => exact absurd isKind (by decide)
  | cy => exact absurd isKind (by decide)

/-! ### `BTCLR [HL].7` at `PSW` -/

/-- `HL` has the address of `PSW`, and interrupts are enabled. -/
def hlAtPsw : Cpu := ((anyMachine.setReg 6 0xFA).setReg 7 0xFF).cpu

/-- Memory is 0 there, so that `BT` does not branch, but `BTCLR` does, and disables interrupts. -/
theorem btclr_psw : InRange { hlAtPsw with psw.ie := 1 } ∧
    ¬CombinesAlways ⟨false, 0, 0⟩ .indHl 7 0 (.rel8 0) { hlAtPsw with psw.ie := 1 } := by
  have inRange : InRange hlAtPsw := (anyMachine_inRange.setReg 6 (by decide)).setReg 7 (by decide)
  have range : InRange { hlAtPsw with psw.ie := 1 } :=
    { psw := ⟨by decide, by decide, by decide, by decide, by decide, by decide⟩
      regs_le := inRange.regs_le
      cs_le := by decide
      skipEn_le := by decide
      skipReq_le := by decide }
  refine ⟨range, fun always => ?_⟩
  have branch := (always _ ramBus ramBus_coherent (fun _ => 0) false).branch
  exact absurd branch (by decide +kernel)

/-- Bit 7 of the program status word, through the `sfr` form. -/
theorem btclr_combines_sample : CombinesAlways ⟨false, 0, 0⟩ .sfr 7 0xFA (.rel8 0) anyMachine.cpu ↔
    BothWaysSame anyMachine.cpu false 7 0xFA .sfr :=
  btclr_combines_iff ⟨false, 0, 0⟩ (.rel8 0) anyMachine_inRange (by decide) (by decide)
    (show ∀ byte ∈ [0xFA], byte < 2 ^ 8 by decide)

end Tlib.Rl78
