import Tlib.Rl78.MappedRegisters
import Tlib.Rl78.RegisterWidths

/-!
Contract: the frames that calls and interrupts leave on the stack, and the returns from them.

Owns: random access memory under the stack and what a frame holds. Does not own: the code that
runs between a call and its return, but that it leaves the stack pointer and the frames as they
were.
-/

namespace Tlib.Rl78

open Tlib.Library.Words Tlib.Library.StateTriples Function Nat

/-! ### Memory under the stack -/

def stackPaddr (sp : Nat) : Nat := 0xF0000 + sp

/-- Memory that keeps what was stored last, whichever way it is accessed. -/
structure Ram {σ : Type} (B : Bus σ) (region : Nat → Prop) where
  byte : Nat → σ → Nat
  load_byte : ∀ {a : Nat} (s : σ), region a → (B.load .mo8 a s).1 = byte a s
  load_keeps : ∀ {a : Nat} (memop : MemOp) (addr : Nat) (s : σ), region a →
    byte a (B.load memop addr s).2 = byte a s
  store_byte : ∀ {a addr : Nat} (data : Nat) (s : σ), region a → region addr →
    byte a (B.store .mo8 addr data s) = if a = addr then data % 2 ^ 8 else byte a s
  stbPhys_byte : ∀ {a addr : Nat} (data : Nat) (s : σ), region a → region addr →
    byte a (B.stbPhys addr data s) = if a = addr then data % 2 ^ 8 else byte a s
  lduwPhys_keeps : ∀ {a : Nat} (addr : Nat) (s : σ), region a →
    byte a (B.lduwPhys addr s).2 = byte a s

variable {σ : Type} {B : Bus σ} {region : Nat → Prop} {ram : Ram B region} {ctx : Context}
  {m : Machine σ} {cpu : Cpu} {mem : Nat → Nat} {sp : Nat}

/-- The registers, but for the stack pointer, and the bytes of the memory. -/
structure Holds (ram : Ram B region) (cpu : Cpu) (sp : Nat) (mem : Nat → Nat) (m : Machine σ) :
    Prop where
  cpu_eq : m.cpu = { cpu with sp := sp }
  mem_eq : ∀ a, region a → ram.byte a m.bus = mem a

def StackSegment (ctx : Context) (cpu : Cpu) : Prop := ctx.useEs = true → cpu.es = 0xF

theorem or_stack_segment {sp : Nat} (less : sp < 2 ^ 16) : sp ||| 0xF0000 = stackPaddr sp := by
  have sum : 2 ^ 16 * 0xF + sp = 2 ^ 16 * 0xF ||| sp := two_pow_add_eq_or_of_lt less 0xF
  rw [Nat.or_comm]
  exact sum.symm

theorem segment_eq (segment : StackSegment ctx cpu) :
    (if ctx.useEs then shl32 cpu.es 16 else 0xF0000) = 0xF0000 := by
  by_cases es : ctx.useEs = true
  · rw [if_pos es, segment es]
    rfl
  · exact if_neg es

section Bytes

variable (less : sp < 2 ^ 16) (segment : StackSegment ctx cpu)

include less segment

theorem stackAddr_holds : Triple (Holds ram cpu sp mem) (stackAddr ctx) fun addr m =>
    addr = stackPaddr sp ∧ Holds ram cpu sp mem m := by
  intro m holds
  refine ⟨?_, holds⟩
  show m.cpu.sp ||| (if ctx.useEs then shl32 m.cpu.es 16 else 0xF0000) = stackPaddr sp
  rw [holds.cpu_eq]
  rw [segment_eq segment]
  exact or_stack_segment less

theorem pushByte_holds (data : Nat) (inside : region (stackPaddr sp)) :
    Triple (Holds ram cpu sp mem) (pushByte B ctx data) fun _ =>
      Holds ram cpu sp (update mem (stackPaddr sp) (data % 2 ^ 8)) := by
  refine Triple.bind (stackAddr_holds less segment) fun addr => Triple.assume fun isAddr => ?_
  subst isAddr
  refine Triple.modify fun m holds => ⟨holds.cpu_eq, fun a isRam => ?_⟩
  have stored := ram.store_byte data m.bus isRam inside
  refine stored.trans ?_
  rw [update_apply, holds.mem_eq a isRam]

theorem popByte_holds (inside : region (stackPaddr sp)) :
    Triple (Holds ram cpu sp mem) (popByte B ctx) fun data m =>
      data = mem (stackPaddr sp) ∧ Holds ram cpu sp mem m := by
  refine Triple.bind (stackAddr_holds less segment) fun addr => Triple.assume fun isAddr => ?_
  subst isAddr
  intro m holds
  refine ⟨?_, holds.cpu_eq, fun a isRam => ?_⟩
  · exact (ram.load_byte m.bus inside).trans (holds.mem_eq _ inside)
  · exact (ram.load_keeps .mo8 _ m.bus isRam).trans (holds.mem_eq a isRam)

end Bytes

theorem moveSp_holds (change : Nat → Nat) :
    Triple (Holds ram cpu sp mem) (modify fun m => m.setSp (change m.cpu.sp)) fun _ =>
      Holds ram cpu (change sp) mem := by
  refine Triple.modify fun m holds => ⟨?_, holds.mem_eq⟩
  have isSp : m.cpu.sp = sp := congrArg Cpu.sp holds.cpu_eq
  rw [isSp]
  exact congrArg (fun cpu : Cpu => { cpu with sp := change sp }) holds.cpu_eq

theorem decSp_holds (less : sp + 1 < 2 ^ 16) :
    Triple (Holds ram cpu (sp + 1) mem) decSp fun _ => Holds ram cpu sp mem := by
  have moved : sub32 (sp + 1) 1 = sp := by
    unfold sub32
    omega
  have triple := @moveSp_holds σ B region ram cpu mem (sp + 1) fun sp => sub32 sp 1
  rw [moved] at triple
  exact triple

theorem incSp_holds (less : sp < 2 ^ 16) :
    Triple (Holds ram cpu sp mem) incSp fun _ => Holds ram cpu (sp + 1) mem := by
  have moved : add32 sp 1 = sp + 1 := by
    unfold add32
    omega
  rw [← moved]
  exact moveSp_holds fun sp => add32 sp 1

/-! ### Frames -/

/-- The four bytes from the stack pointer on. -/
structure Frame (mem : Nat → Nat) (sp pc : Nat) (psw : Option Nat) : Prop where
  pcl : mem (stackPaddr sp) = pc % 2 ^ 8
  pch : mem (stackPaddr (sp + 1)) = pc / 2 ^ 8 % 2 ^ 8
  pcs : mem (stackPaddr (sp + 2)) = pc / 2 ^ 16
  psw_eq : ∀ value, psw = some value → mem (stackPaddr (sp + 3)) = value

/-- The frame was put under what was there. -/
structure Pushed (mem mem' : Nat → Nat) (sp pc : Nat) (psw : Option Nat) : Prop where
  frame : Frame mem' sp pc psw
  above : ∀ a, stackPaddr (sp + 4) ≤ a → mem' a = mem a

/-- The bytes of a program counter, put on the stack one by one. -/
def pushPc (mem : Nat → Nat) (sp pcs pch pcl : Nat) : Nat → Nat :=
  update (update (update mem (stackPaddr (sp + 2)) pcs)
    (stackPaddr (sp + 1)) pch) (stackPaddr sp) pcl

theorem pushPc_other (pcs pch pcl : Nat) {a : Nat} (above : stackPaddr (sp + 3) ≤ a) :
    pushPc mem sp pcs pch pcl a = mem a := by
  unfold stackPaddr at above
  unfold pushPc
  rw [update_of_ne, update_of_ne, update_of_ne]
  all_goals
    unfold stackPaddr
    omega

theorem pushPc_frame {pcs pch pcl pc : Nat} {psw : Option Nat} (isPcl : pcl = pc % 2 ^ 8)
    (isPch : pch = pc / 2 ^ 8 % 2 ^ 8) (isPcs : pcs = pc / 2 ^ 16)
    (isPsw : ∀ value, psw = some value → mem (stackPaddr (sp + 3)) = value) :
    Frame (pushPc mem sp pcs pch pcl) sp pc psw := by
  have first : stackPaddr (sp + 1) ≠ stackPaddr sp := by
    unfold stackPaddr
    omega
  have second : stackPaddr (sp + 2) ≠ stackPaddr sp := by
    unfold stackPaddr
    omega
  have third : stackPaddr (sp + 2) ≠ stackPaddr (sp + 1) := by
    unfold stackPaddr
    omega
  refine ⟨?_, ?_, ?_, fun value isValue => ?_⟩
  · rw [← isPcl]
    exact update_self _ _ _
  · rw [← isPch]
    unfold pushPc
    rw [update_of_ne first, update_self]
  · rw [← isPcs]
    unfold pushPc
    rw [update_of_ne second, update_of_ne third, update_self]
  · rw [pushPc_other _ _ _ (Nat.le_refl _)]
    exact isPsw value isValue

/-- What is pushed for the program status word. -/
def savedPsw (savePsw : Bool) (psw : Psw) : Option Nat :=
  if savePsw then some (pswWord psw % 2 ^ 8) else none

def FrameIn (region : Nat → Prop) (sp : Nat) : Prop := ∀ i, i < 4 → region (stackPaddr (sp + i))

theorem pushPc_pushed {mem' : Nat → Nat} {pc : Nat} {psw : Option Nat}
    (above : ∀ a, stackPaddr (sp + 4) ≤ a → mem' a = mem a)
    (frame : Frame (pushPc mem' sp (pc / 2 ^ 16) (pc / 2 ^ 8 % 2 ^ 8) (pc % 2 ^ 8)) sp pc psw) :
    Pushed mem (pushPc mem' sp (pc / 2 ^ 16) (pc / 2 ^ 8 % 2 ^ 8) (pc % 2 ^ 8)) sp pc psw := by
  refine ⟨frame, fun a isAbove => ?_⟩
  rw [pushPc_other _ _ _ (by unfold stackPaddr at isAbove ⊢; omega)]
  exact above a isAbove

section PrepareCall

variable (room : sp + 4 < 2 ^ 16) (segment : StackSegment ctx cpu) (inside : FrameIn region sp)

include room segment inside

theorem pushReturnPc_holds (less : ctx.pc < 2 ^ 20) : Triple (Holds ram cpu (sp + 3) mem) (do
      decSp
      pushByte B ctx ((ctx.pc >>> 16) &&& 0x0F)
      decSp
      pushByte B ctx ((ctx.pc >>> 8) &&& 0xFF)
      decSp
      pushByte B ctx (ctx.pc &&& 0xFF)) fun _ =>
        Holds ram cpu sp
          (pushPc mem sp (ctx.pc / 2 ^ 16) (ctx.pc / 2 ^ 8 % 2 ^ 8) (ctx.pc % 2 ^ 8)) := by
  have isPcs : ((ctx.pc >>> 16) &&& 0x0F) % 2 ^ 8 = ctx.pc / 2 ^ 16 := by
    rw [and_low_nibble, shiftRight_eq_div_pow]
    omega
  have isPch : ((ctx.pc >>> 8) &&& 0xFF) % 2 ^ 8 = ctx.pc / 2 ^ 8 % 2 ^ 8 := by
    rw [and_low_byte, shiftRight_eq_div_pow]
    omega
  have isPcl : (ctx.pc &&& 0xFF) % 2 ^ 8 = ctx.pc % 2 ^ 8 := by
    rw [and_low_byte]
    omega
  rw [← isPcs, ← isPch, ← isPcl]
  refine Triple.bind (decSp_holds (by omega)) fun _ => ?_
  refine Triple.bind (pushByte_holds (by omega) segment _ (inside 2 (by omega))) fun _ => ?_
  refine Triple.bind (decSp_holds (by omega)) fun _ => ?_
  refine Triple.bind (pushByte_holds (by omega) segment _ (inside 1 (by omega))) fun _ => ?_
  refine Triple.bind (decSp_holds (by omega)) fun _ => ?_
  exact pushByte_holds (by omega) segment _ (inside 0 (by omega))

theorem rl78GenPrepareCall_holds (less : ctx.pc < 2 ^ 20) (savePsw : Bool) :
    Triple (Holds ram cpu (sp + 4) mem) (rl78GenPrepareCall B ctx savePsw) fun _ m =>
      ∃ mem', Holds ram cpu sp mem' m ∧ Pushed mem mem' sp ctx.pc (savedPsw savePsw cpu.psw) := by
  refine Triple.bind (decSp_holds (by omega)) fun _ => ?_
  cases savePsw with
  | false =>
    refine (pushReturnPc_holds room segment inside less).weaken (fun _ holds => holds) ?_
    intro _ m holds
    refine ⟨_, holds, pushPc_pushed (fun a _ => rfl) ?_⟩
    exact pushPc_frame rfl rfl rfl fun value none => by cases none
  | true =>
    have read : Triple (Holds ram cpu (sp + 3) mem) (loadPsw : Exec σ Nat) fun psw m =>
        psw = pswWord cpu.psw ∧ Holds ram cpu (sp + 3) mem m := by
      intro m holds
      refine ⟨?_, holds⟩
      show pswWord m.cpu.psw = pswWord cpu.psw
      rw [holds.cpu_eq]
    refine Triple.bind read fun psw => Triple.assume fun isPsw => ?_
    subst isPsw
    refine Triple.bind (pushByte_holds (by omega) segment _ (inside 3 (by omega))) fun _ => ?_
    refine (pushReturnPc_holds room segment inside less).weaken (fun _ holds => holds) ?_
    intro _ m holds
    refine ⟨_, holds, pushPc_pushed (fun a above => ?_) ?_⟩
    · refine update_of_ne ?_ _ _
      unfold stackPaddr at above ⊢
      omega
    · refine pushPc_frame rfl rfl rfl fun value isValue => ?_
      rw [update_self]
      exact Option.some.inj isValue

end PrepareCall

/-! ### Calls -/

structure StackHolds (ram : Ram B region) (sp : Nat) (mem : Nat → Nat) (m : Machine σ) : Prop where
  sp_eq : m.cpu.sp = sp
  mem_eq : ∀ a, region a → ram.byte a m.bus = mem a

theorem Holds.stack (holds : Holds ram cpu sp mem m) : StackHolds ram sp mem m :=
  ⟨congrArg Cpu.sp holds.cpu_eq, holds.mem_eq⟩

/-- A frame has been made, and the code is left for another block. -/
def Called (ram : Ram B region) (mem : Nat → Nat) (sp pc : Nat) (psw : Option Nat) (exit : Exit)
    (m : Machine σ) : Prop :=
  exit ≠ .fallThrough ∧ ∃ mem', StackHolds ram sp mem' m ∧ Pushed mem mem' sp pc psw

theorem genExitTb_called (dest : Nat) {pc : Nat} {psw : Option Nat} :
    Triple (fun m => ∃ mem', StackHolds ram sp mem' m ∧ Pushed mem mem' sp pc psw)
      (genExitTb dest) (Called ram mem sp pc psw) :=
  fun _ ⟨mem', holds, pushed⟩ => ⟨nofun, mem', ⟨holds.sp_eq, holds.mem_eq⟩, pushed⟩

theorem genGotoTb_called (slot dest : Nat) {pc : Nat} {psw : Option Nat} :
    Triple (fun m => ∃ mem', StackHolds ram sp mem' m ∧ Pushed mem mem' sp pc psw)
      (genGotoTb ctx slot dest) (Called ram mem sp pc psw) := by
  rintro m ⟨mem', holds, pushed⟩
  refine ⟨?_, mem', ⟨holds.sp_eq, holds.mem_eq⟩, pushed⟩
  show (if useGotoTb ctx dest then Exit.chain slot else .noChain) ≠ .fallThrough
  split <;> nofun

theorem rl78GenLw_holds (addr : Nat) :
    Triple (Holds ram cpu sp mem) (rl78GenLw B addr) fun _ => Holds ram cpu sp mem :=
  fun m holds => ⟨holds.cpu_eq, fun a isRam =>
    (ram.load_keeps .mo16 _ m.bus isRam).trans (holds.mem_eq a isRam)⟩

def callForm : Mnemonic → Operand → Bool
  | .call, .wordReg _ | .call, .abs16 _ | .call, .abs20 _ | .call, .rel16 _ => true
  | .callt, .callt _ => true
  | .brk, _ => true
  | _, _ => false

theorem callForm_template (mnemonic : Mnemonic) (op : Operand) :
    callForm mnemonic op.template = callForm mnemonic op := by
  cases op with
  | bit kind index addr => cases kind <;> cases mnemonic <;> rfl
  | _ => cases mnemonic <;> rfl

theorem entry_callForm (map : OpcodeMap) (byte : Nat) (calls : (map.entry byte).mnemonic.calls = true) :
    callForm (map.entry byte).mnemonic (map.entry byte).operand0 = true := by
  have all : ∀ insn ∈ map.table,
      insn.mnemonic.calls = true → callForm insn.mnemonic insn.operand0 = true := by
    cases map <;> decide +kernel
  exact map.entry_all all (by decide) byte calls

theorem Decoded.callForm {code : Nat → Nat} {pc : Nat} {ctx : DisasContext} {insn : Instruction}
    (decoded : Decoded code pc ctx insn) (calls : insn.mnemonic.calls = true) :
    callForm insn.mnemonic insn.operand0 = true := by
  rw [decoded.mnemonic] at calls ⊢
  rw [← callForm_template, decoded.template0]
  exact entry_callForm _ _ calls

section Calls

variable (room : sp + 4 < 2 ^ 16) (segment : StackSegment ctx cpu) (inside : FrameIn region sp)
  (less : ctx.pc < 2 ^ 20)

include room segment inside less

theorem prepareCall_stack (savePsw : Bool) :
    Triple (Holds ram cpu (sp + 4) mem) (rl78GenPrepareCall B ctx savePsw) fun _ m =>
      ∃ mem', StackHolds ram sp mem' m ∧ Pushed mem mem' sp ctx.pc (savedPsw savePsw cpu.psw) :=
  (rl78GenPrepareCall_holds room segment inside less savePsw).weaken (fun _ holds => holds)
    fun _ _ ⟨mem', holds, pushed⟩ => ⟨mem', holds.stack, pushed⟩

theorem callAbs_called (target : Nat) : Triple (Holds ram cpu (sp + 4) mem) (callAbs B ctx target)
      (Called ram mem sp ctx.pc none) := by
  refine Triple.bind (prepareCall_stack room segment inside less false) fun _ => ?_
  exact genGotoTb_called 1 target

theorem callLoaded_called {target : Exec σ Nat}
    (loaded : Triple (Holds ram cpu (sp + 4) mem) target fun _ => Holds ram cpu (sp + 4) mem) :
    Triple (Holds ram cpu (sp + 4) mem) (do
      let target ← target
      rl78GenPrepareCall B ctx false
      genExitTb target) (Called ram mem sp ctx.pc none) := by
  refine Triple.bind loaded fun value => ?_
  refine Triple.bind (prepareCall_stack room segment inside less false) fun _ => ?_
  exact genExitTb_called value

theorem transBrk_called : Triple (Holds ram cpu (sp + 4) mem) (transBrk B ctx)
      (Called ram mem sp ctx.pc (savedPsw true cpu.psw)) := by
  refine Triple.bind (rl78GenLw_holds _) fun target => ?_
  refine Triple.bind (prepareCall_stack room segment inside less true) fun _ => ?_
  refine Triple.bind (Triple.modify fun m ⟨mem', holds, pushed⟩ => ?_) fun _ => genExitTb_called target
  exact ⟨mem', ⟨holds.sp_eq, holds.mem_eq⟩, pushed⟩

theorem translate_called {insn : Instruction}
    (form : callForm insn.mnemonic insn.operand0 = true) :
    Triple (Holds ram cpu (sp + 4) mem) (translate B ctx insn)
      (Called ram mem sp ctx.pc (savedPsw (insn.mnemonic = .brk) cpu.psw)) := by
  unfold callForm at form
  unfold translate
  split at form
  next is op =>
    rw [is]
    unfold transCall
    rw [op]
    exact callLoaded_called room segment inside less fun m holds => holds
  iterate 3 next is op =>
    rw [is]
    unfold transCall
    rw [op]
    exact callAbs_called room segment inside less _
  next is op =>
    rw [is]
    unfold transCallt
    rw [op]
    exact callLoaded_called room segment inside less (rl78GenLw_holds _)
  next is =>
    rw [is]
    exact transBrk_called room segment inside less
  next => cases form

end Calls

theorem skipReq_holds (none : cpu.skipReq = 0) : Triple (Holds ram cpu sp mem) get fun read m =>
      read.cpu.skipReq = 0 ∧ Holds ram cpu sp mem m := by
  intro m holds
  refine ⟨?_, holds⟩
  show m.cpu.skipReq = 0
  rw [holds.cpu_eq]
  exact none

theorem setSkip_holds : Triple (Holds ram cpu sp mem) (modify fun m => m.setSkip 0 0) fun _ =>
      Holds ram { cpu with skipEn := 0, skipReq := 0 } sp mem := by
  refine Triple.modify fun m holds => ⟨?_, holds.mem_eq⟩
  exact congrArg (fun cpu : Cpu => { cpu with skipEn := 0, skipReq := 0 }) holds.cpu_eq

theorem block_leaves {block : Block} {left : Machine σ → Prop}
    (runs : block.skip = true → cpu.skipReq = 0)
    (leaves : ∀ skipEn skipReq, Triple (Holds ram { cpu with skipEn, skipReq } sp mem)
      (translate B block.ctx block.insn) fun exit m => exit ≠ .fallThrough ∧ left m) :
    Triple (Holds ram cpu sp mem) (block.run B) fun _ => left := by
  have update : Keeps (Holds ram cpu sp mem) (modify fun m => m.setUpdate false) :=
    Keeps.modify fun m holds => ⟨holds.cpu_eq, holds.mem_eq⟩
  refine Triple.bind update fun _ => ?_
  by_cases skip : block.skip = true
  · rw [if_pos skip]
    refine Triple.bind (skipReq_holds (runs skip)) fun read => Triple.assume fun isZero => ?_
    refine Triple.bind setSkip_holds fun _ => ?_
    rw [if_neg (not_not.mpr isZero)]
    refine Triple.bind (leaves 0 0) fun exit => ?_
    cases exit with
    | fallThrough => exact fun m here => absurd rfl here.1
    | chain slot => exact fun m here => here.2
    | noChain => exact fun m here => here.2
  · rw [if_neg skip]
    refine Triple.bind (leaves cpu.skipEn cpu.skipReq) fun exit => ?_
    cases exit with
    | fallThrough => exact fun m here => absurd rfl here.1
    | chain slot => exact fun m here => here.2
    | noChain => exact fun m here => here.2

theorem block_called {block : Block} {code : Nat → Nat} {pc : Nat} (room : sp + 4 < 2 ^ 16)
    (inside : FrameIn region sp) (segment : StackSegment block.ctx cpu)
    (less : block.ctx.pc < 2 ^ 20) (generated : Generated code pc block.skip block)
    (calls : block.insn.mnemonic.calls = true) (runs : block.skip = true → cpu.skipReq = 0) :
    Triple (Holds ram cpu (sp + 4) mem) (block.run B) fun _ m => ∃ mem', StackHolds ram sp mem' m ∧
        Pushed mem mem' sp block.ctx.pc (savedPsw (block.insn.mnemonic = .brk) cpu.psw) := by
  obtain ⟨ctx, decoded, _, _⟩ := generated.decoded
  have form := decoded.callForm calls
  refine block_leaves runs fun skipEn skipReq => ?_
  have segment' : StackSegment block.ctx { cpu with skipEn, skipReq } := segment
  exact translate_called room segment' inside less form

/-! ### Interrupts -/

theorem stbPhys_holds {addr : Nat} (data : Nat) (inside : region addr) :
    Triple (Holds ram cpu sp mem) (stbPhys B addr data) fun _ =>
      Holds ram cpu sp (update mem addr (data % 2 ^ 8)) := by
  refine Triple.modify fun m holds => ⟨holds.cpu_eq, fun a isRam => ?_⟩
  refine (ram.stbPhys_byte data m.bus isRam inside).trans ?_
  rw [update_apply, holds.mem_eq a isRam]

theorem pswWord_mod (psw : Psw) : pswWord psw % 2 ^ 8 = cpuPackPsw psw := by
  have packed : cpuPackPsw psw < 2 ^ 8 := by
    unfold cpuPackPsw
    omega
  rw [pswWord_eq]
  omega

theorem pushPc_ascending (pcs pch pcl psw : Nat) :
    update (update (update (update mem (stackPaddr sp) pcl)
      (stackPaddr (sp + 1)) pch) (stackPaddr (sp + 2)) pcs) (stackPaddr (sp + 3)) psw =
    pushPc (update mem (stackPaddr (sp + 3)) psw) sp pcs pch pcl := by
  have differ (i j : Nat) (ne : i ≠ j) : stackPaddr (sp + i) ≠ stackPaddr (sp + j) := by
    unfold stackPaddr
    omega
  have first := differ 0
  rw [Nat.add_zero] at first
  unfold pushPc
  rw [update_comm (differ 2 3 (by omega)), update_comm (differ 1 3 (by omega)),
    update_comm (first 3 (by omega)), update_comm (differ 1 2 (by omega)),
    update_comm (first 2 (by omega)), update_comm (first 1 (by omega))]

theorem vectorFetch_stack (exceptionIndex : Nat) : Triple (Holds ram cpu sp mem) (do
      let pc ← lduwPhys B (exceptionIndex * 2 + 4)
      modify fun m => m.setIe 0
      modify fun m => m.setIsp m.cpu.irqPriority
      modify fun m => m.setPc pc
      modify fun m => { m with cpu.irqIndex := -1 }) fun _ => StackHolds ram sp mem :=
  fun m holds => ⟨congrArg Cpu.sp holds.cpu_eq, fun a isRam =>
    (ram.lduwPhys_keeps _ m.bus isRam).trans (holds.mem_eq a isRam)⟩

theorem doInterrupt_pushed (exceptionIndex : Nat) (room : sp + 4 < 2 ^ 16)
    (inside : FrameIn region sp) (less : cpu.pc < 2 ^ 24) :
    Triple (Holds ram cpu (sp + 4) mem) (doInterrupt B exceptionIndex) fun _ m => ∃ mem',
      StackHolds ram sp mem' m ∧ Pushed mem mem' sp cpu.pc (savedPsw true cpu.psw) := by
  have moved : sub32 (sp + 4) 4 = sp := by
    unfold sub32
    omega
  have top (i : Nat) (small : i < 4) : add32 (stackPaddr sp) i = stackPaddr (sp + i) := by
    unfold add32 stackPaddr
    omega
  have bottom : 0xF0000 ||| sp = stackPaddr sp := by
    rw [Nat.or_comm]
    exact or_stack_segment (by omega)
  have isPcl : (cpu.pc &&& 0xFF) % 2 ^ 8 = cpu.pc % 2 ^ 8 := by
    rw [and_low_byte]
    omega
  have isPch : ((cpu.pc >>> 8) &&& 0xFF) % 2 ^ 8 = cpu.pc / 2 ^ 8 % 2 ^ 8 := by
    rw [and_low_byte, shiftRight_eq_div_pow]
    omega
  have isPcs : ((cpu.pc >>> 16) &&& 0xFF) % 2 ^ 8 = cpu.pc / 2 ^ 16 := by
    rw [and_low_byte, shiftRight_eq_div_pow]
    omega
  have read : Triple (Holds ram cpu (sp + 4) mem) get fun read m =>
      read.cpu = { cpu with sp := sp + 4 } ∧ Holds ram cpu (sp + 4) mem m :=
    fun m holds => ⟨holds.cpu_eq, holds⟩
  unfold doInterrupt
  refine Triple.bind read fun read => Triple.assume fun isCpu => ?_
  rw [isCpu]
  dsimp only
  rw [moved, bottom, top 1 (by omega), top 2 (by omega), top 3 (by omega)]
  have set : Triple (Holds ram cpu (sp + 4) mem) (modify fun m => m.setSp sp) fun _ =>
      Holds ram cpu sp mem := @moveSp_holds σ B region ram cpu mem (sp + 4) fun _ => sp
  refine Triple.bind set fun _ => ?_
  have first := inside 0 (by omega)
  rw [Nat.add_zero] at first
  refine Triple.bind (stbPhys_holds _ first) fun _ => ?_
  refine Triple.bind (stbPhys_holds _ (inside 1 (by omega))) fun _ => ?_
  refine Triple.bind (stbPhys_holds _ (inside 2 (by omega))) fun _ => ?_
  refine Triple.bind (stbPhys_holds _ (inside 3 (by omega))) fun _ => ?_
  rw [isPcl, isPch, isPcs, pushPc_ascending]
  refine (vectorFetch_stack exceptionIndex).weaken (fun _ holds => holds) fun _ m holds => ?_
  refine ⟨_, holds, pushPc_pushed (fun a above => ?_) ?_⟩
  · refine update_of_ne ?_ _ _
    unfold stackPaddr at above ⊢
    omega
  · refine pushPc_frame rfl rfl rfl fun value isValue => ?_
    rw [update_self]
    have packed := pswWord_mod cpu.psw
    have saved : pswWord cpu.psw % 2 ^ 8 = value := Option.some.inj isValue
    omega

/-! ### Returns -/

theorem cpuUnpackPsw_pack {psw : Psw} (range : PswInRange psw) :
    cpuUnpackPsw (cpuPackPsw psw) = psw := by
  obtain ⟨cy, isp, rbs, ac, z, ie⟩ := psw
  obtain ⟨cyLe, ispLe, rbsLe, acLe, zLe, ieLe⟩ := range
  dsimp only at cyLe ispLe rbsLe acLe zLe ieLe
  unfold cpuUnpackPsw cpuPackPsw extract
  rw [Psw.mk.injEq]
  dsimp only
  refine ⟨?_, ?_, ?_, ?_, ?_, ?_⟩ <;> omega

theorem storePsw_cpu (data : Nat) : ((storePsw data).run m).2.cpu =
    { m.cpu with psw := cpuUnpackPsw (data &&& 0xFF) } := by
  rw [unpackPsw_eq]
  rfl

theorem joinPc {pc : Nat} (less : pc < 2 ^ 24) :
    pc % 2 ^ 8 ||| shl32 (pc / 2 ^ 8 % 2 ^ 8) 8 ||| shl32 (pc / 2 ^ 16) 16 = pc := by
  have middle : shl32 (pc / 2 ^ 8 % 2 ^ 8) 8 = 2 ^ 8 * (pc / 2 ^ 8 % 2 ^ 8) := by
    unfold shl32
    omega
  have high : shl32 (pc / 2 ^ 16) 16 = 2 ^ 16 * (pc / 2 ^ 16) := by
    unfold shl32
    omega
  have low : pc % 2 ^ 8 + 2 ^ 8 * (pc / 2 ^ 8 % 2 ^ 8) < 2 ^ 16 := by omega
  rw [middle, high, Nat.or_comm (pc % 2 ^ 8), bytes_or _ (by omega), Nat.add_comm,
    Nat.or_comm, ← two_pow_add_eq_or_of_lt low]
  omega

section Returns

variable {pc : Nat} {psw : Option Nat} (room : sp + 4 < 2 ^ 16) (segment : StackSegment ctx cpu)
  (inside : FrameIn region sp) (frame : Frame mem sp pc psw) (less : pc < 2 ^ 24)

include room segment inside frame less

theorem rl78GenRet_holds (restorePsw : Bool) :
    Triple (Holds ram cpu sp mem) (rl78GenRet B ctx restorePsw) fun exit m =>
      exit = .noChain ∧ ∃ psw', Holds ram { cpu with psw := psw', pc := pc } (sp + 4) mem m ∧
        (restorePsw = true → psw' = cpuUnpackPsw (mem (stackPaddr (sp + 3)) &&& 0xFF)) := by
  have pop (i : Nat) (small : i < 4) : Triple (Holds ram cpu (sp + i) mem) (popByte B ctx)
      fun data m => data = mem (stackPaddr (sp + i)) ∧ Holds ram cpu (sp + i) mem m :=
    popByte_holds (by omega) segment (inside i small)
  have leave (psw' : Psw) : Triple (Holds ram { cpu with psw := psw' } (sp + 3) mem) (do
      incSp
      genExitTb (pc % 2 ^ 8 ||| shl32 (pc / 2 ^ 8 % 2 ^ 8) 8 ||| shl32 (pc / 2 ^ 16) 16))
      fun exit m => exit = .noChain ∧
        Holds ram { cpu with psw := psw', pc := pc } (sp + 4) mem m := by
    refine Triple.bind (incSp_holds (by omega)) fun _ => ?_
    rw [joinPc less]
    refine fun m holds => ⟨rfl, ?_, holds.mem_eq⟩
    exact congrArg (fun cpu : Cpu => { cpu with pc := pc }) holds.cpu_eq
  unfold rl78GenRet
  refine Triple.bind (pop 0 (by omega)) fun pcl => Triple.assume fun isPcl => ?_
  refine Triple.bind (incSp_holds (by omega)) fun _ => ?_
  refine Triple.bind (pop 1 (by omega)) fun pch => Triple.assume fun isPch => ?_
  refine Triple.bind (incSp_holds (by omega)) fun _ => ?_
  refine Triple.bind (pop 2 (by omega)) fun pcs => Triple.assume fun isPcs => ?_
  refine Triple.bind (incSp_holds (by omega)) fun _ => ?_
  rw [isPcl.trans frame.pcl, isPch.trans frame.pch, isPcs.trans frame.pcs]
  cases restorePsw with
  | false =>
    refine (leave cpu.psw).weaken (fun _ holds => holds) fun exit m left => ?_
    exact ⟨left.1, cpu.psw, left.2, nofun⟩
  | true =>
    refine Triple.bind (pop 3 (by omega)) fun data => Triple.assume fun isData => ?_
    have stored : Triple (Holds ram cpu (sp + 3) mem) (storePsw data) fun _ =>
        Holds ram { cpu with psw := cpuUnpackPsw (data &&& 0xFF) } (sp + 3) mem := by
      intro m holds
      refine ⟨?_, holds.mem_eq⟩
      rw [storePsw_cpu, holds.cpu_eq]
    refine Triple.bind stored fun _ => ?_
    refine (leave _).weaken (fun _ holds => holds) fun exit m left => ?_
    exact ⟨left.1, _, left.2, fun _ => by rw [isData]⟩

end Returns

theorem translate_of_returns {insn : Instruction} (returns : insn.mnemonic.returns = true) :
    translate B ctx insn = rl78GenRet B ctx (insn.mnemonic ≠ .ret) := by
  unfold Mnemonic.returns at returns
  unfold translate
  split at returns
  iterate 3 next is =>
    rw [is]
    rfl
  next => cases returns

/-- The frame has been taken. -/
structure Returned (ram : Ram B region) (mem : Nat → Nat) (sp pc : Nat) (restoresPsw : Bool)
    (m : Machine σ) : Prop where
  pc_eq : m.cpu.pc = pc
  sp_eq : m.cpu.sp = sp + 4
  mem_eq : ∀ a, region a → ram.byte a m.bus = mem a
  psw_eq : restoresPsw = true → m.cpu.psw = cpuUnpackPsw (mem (stackPaddr (sp + 3)) &&& 0xFF)

section ReturnBlocks

variable {pc : Nat} {psw : Option Nat} (room : sp + 4 < 2 ^ 16) (segment : StackSegment ctx cpu)
  (inside : FrameIn region sp) (frame : Frame mem sp pc psw) (less : pc < 2 ^ 24)

include room segment inside frame less

theorem translate_returned {insn : Instruction} (returns : insn.mnemonic.returns = true) :
    Triple (Holds ram cpu sp mem) (translate B ctx insn) fun exit m =>
      exit = .noChain ∧ Returned ram mem sp pc (insn.mnemonic ≠ .ret) m := by
  rw [translate_of_returns returns]
  refine (rl78GenRet_holds room segment inside frame less _).weaken (fun _ holds => holds) ?_
  intro exit m ⟨left, psw', holds, isPsw⟩
  refine ⟨left, congrArg Cpu.pc holds.cpu_eq, holds.stack.sp_eq, holds.mem_eq, fun restores => ?_⟩
  rw [← isPsw restores]
  exact congrArg Cpu.psw holds.cpu_eq

end ReturnBlocks

theorem block_returned {block : Block} {pc : Nat} {psw : Option Nat} (room : sp + 4 < 2 ^ 16)
    (segment : StackSegment block.ctx cpu) (inside : FrameIn region sp)
    (frame : Frame mem sp pc psw) (less : pc < 2 ^ 24)
    (returns : block.insn.mnemonic.returns = true) (runs : block.skip = true → cpu.skipReq = 0) :
    Triple (Holds ram cpu sp mem) (block.run B) fun _ =>
      Returned ram mem sp pc (block.insn.mnemonic ≠ .ret) := by
  refine block_leaves runs fun skipEn skipReq => ?_
  have segment' : StackSegment block.ctx { cpu with skipEn, skipReq } := segment
  refine (translate_returned room segment' inside frame less returns).weaken
    (fun _ holds => holds) fun exit m => ?_
  rintro ⟨rfl, returned⟩
  exact ⟨fun same => (by cases same), returned⟩

/-! ### Nested frames -/

/-- What makes a frame: a block with a call, or an interrupt that is accepted. -/
inductive Entry where
  | call (block : Block)
  | interrupt

namespace Entry

def run (B : Bus σ) : Entry → Exec σ Unit
  | .call block => do
    let _ ← block.run B
  | .interrupt => processInterrupt B

/-- The address of the next instruction. -/
def returnPc (cpu : Cpu) : Entry → Nat
  | .call block => block.ctx.pc
  | .interrupt => cpu.pc

def savesPsw : Entry → Bool
  | .call block => block.insn.mnemonic = .brk
  | .interrupt => true

/-- The matching return. -/
def leftBy : Entry → Mnemonic
  | .call block => if block.insn.mnemonic = .brk then .retb else .ret
  | .interrupt => .reti

def Makes (cpu : Cpu) : Entry → Prop
  | .call block => (∃ code pc, genIntermediateCode code pc block.skip = some block) ∧
      block.insn.mnemonic.calls = true ∧ (block.skip = true → cpu.skipReq = 0)
  | .interrupt => acceptsInterrupt cpu = true

/-- A frame is made on a stack in memory. -/
structure Possible (region : Nat → Prop) (cpu : Cpu) (entry : Entry) : Prop where
  makes : entry.Makes cpu
  psw : PswInRange cpu.psw
  sp_ge : 4 ≤ cpu.sp
  sp_lt : cpu.sp < 2 ^ 16
  inside : FrameIn region (cpu.sp - 4)

def Fits (cpu : Cpu) : Entry → Prop
  | .call block => StackSegment block.ctx cpu ∧ block.ctx.pc < 2 ^ 20
  | .interrupt => cpu.pc < 2 ^ 24

theorem Fits.returnPc_lt {entry : Entry} (fits : entry.Fits cpu) : entry.returnPc cpu < 2 ^ 24 := by
  cases entry with
  | call block => exact Nat.lt_trans fits.2 (by decide)
  | interrupt => exact fits

theorem leftBy_returns (entry : Entry) : entry.leftBy.returns = true := by
  unfold leftBy
  split
  next => split <;> rfl
  next => rfl

theorem leftBy_restores {entry : Entry} (saves : entry.savesPsw = true) : entry.leftBy ≠ .ret := by
  unfold savesPsw at saves
  unfold leftBy
  split at saves
  next =>
    rw [if_pos (of_decide_eq_true saves)]
    nofun
  next => nofun

end Entry

theorem holds_self (ram : Ram B region) (m : Machine σ) (room : 4 ≤ m.cpu.sp) :
    Holds ram m.cpu (m.cpu.sp - 4 + 4) (fun a => ram.byte a m.bus) m := by
  refine ⟨?_, fun a _ => rfl⟩
  rw [Nat.sub_add_cancel room]

theorem Entry.pushed (ram : Ram B region) {entry : Entry} (possible : entry.Possible region m.cpu)
    (fits : entry.Fits m.cpu) : ∃ mem', StackHolds ram (m.cpu.sp - 4) mem' ((entry.run B).run m).2 ∧
      Pushed (fun a => ram.byte a m.bus) mem' (m.cpu.sp - 4) (entry.returnPc m.cpu)
        (savedPsw entry.savesPsw m.cpu.psw) := by
  have start := holds_self ram m possible.sp_ge
  have room : m.cpu.sp - 4 + 4 < 2 ^ 16 := by
    have less := possible.sp_lt
    omega
  have makes := possible.makes
  cases entry with
  | call block =>
    obtain ⟨⟨code, pc, found⟩, calls, runs⟩ := makes
    exact block_called room possible.inside fits.1 fits.2 (genIntermediateCode_some found) calls
      runs m start
  | interrupt =>
    have accepted : acceptsInterrupt m.cpu = true := makes
    have taken : (processInterrupt B).run m = (doInterrupt B m.cpu.irqIndex.toNat).run m := by
      unfold processInterrupt
      rw [get_run, if_pos accepted]
    have run : ((Entry.interrupt.run B).run m).2 = ((doInterrupt B m.cpu.irqIndex.toNat).run m).2 :=
      congrArg Prod.snd taken
    rw [run]
    exact doInterrupt_pushed m.cpu.irqIndex.toNat room possible.inside fits m start

structure OpenFrame where
  entry : Entry
  cpu : Cpu

def OpenFrame.bottom (frame : OpenFrame) : Nat := frame.cpu.sp - 4

def lowest : List OpenFrame → Nat
  | [] => 2 ^ 16
  | frame :: _ => frame.bottom

structure Takes (block : Block) (entry : Entry) (cpu : Cpu) : Prop where
  generated : ∃ code pc, genIntermediateCode code pc block.skip = some block
  is : block.insn.mnemonic = entry.leftBy
  runs : block.skip = true → cpu.skipReq = 0

/-- Runs from any state, with the frames that are open. -/
inductive Runs (ram : Ram B region) : List OpenFrame → Machine σ → Prop
  | start (m : Machine σ) : Runs ram [] m
  | other {frames : List OpenFrame} {m m' : Machine σ} (runs : Runs ram frames m)
      (undisturbed : ∀ a, region a → stackPaddr (lowest frames) ≤ a →
        ram.byte a m'.bus = ram.byte a m.bus) : Runs ram frames m'
  | enter {frames : List OpenFrame} {m : Machine σ} (entry : Entry) (runs : Runs ram frames m)
      (possible : entry.Possible region m.cpu) (fits : entry.Fits m.cpu)
      (below : m.cpu.sp ≤ lowest frames) :
      Runs ram ({ entry := entry, cpu := m.cpu } :: frames) ((entry.run B).run m).2
  | leave {frame : OpenFrame} {frames : List OpenFrame} {m : Machine σ} (block : Block)
      (runs : Runs ram (frame :: frames) m) (takes : Takes block frame.entry m.cpu)
      (segment : StackSegment block.ctx m.cpu) (atFrame : m.cpu.sp = frame.bottom) :
      Runs ram frames ((block.run B).run m).2

def Stacked (region : Nat → Prop) (mem : Nat → Nat) : List OpenFrame → Prop
  | [] => True
  | frame :: frames =>
    (frame.entry.Possible region frame.cpu ∧ frame.entry.Fits frame.cpu ∧
      frame.cpu.sp ≤ lowest frames ∧
      Frame mem frame.bottom (frame.entry.returnPc frame.cpu)
        (savedPsw frame.entry.savesPsw frame.cpu.psw)) ∧
    Stacked region mem frames

theorem Frame.congr {mem' : Nat → Nat} {pc : Nat} {psw : Option Nat} (frame : Frame mem sp pc psw)
    (same : ∀ i, i < 4 → mem' (stackPaddr (sp + i)) = mem (stackPaddr (sp + i))) :
    Frame mem' sp pc psw :=
  ⟨(same 0 (by omega)).trans frame.pcl, (same 1 (by omega)).trans frame.pch,
    (same 2 (by omega)).trans frame.pcs,
    fun value isValue => (same 3 (by omega)).trans (frame.psw_eq value isValue)⟩

theorem Stacked.congr {mem' : Nat → Nat} {frames : List OpenFrame}
    (stacked : Stacked region mem frames)
    (same : ∀ a, region a → stackPaddr (lowest frames) ≤ a → mem' a = mem a) :
    Stacked region mem' frames := by
  induction frames with
  | nil => trivial
  | cons frame frames ih =>
    obtain ⟨⟨possible, fits, below, bytes⟩, rest⟩ := stacked
    have low : lowest (frame :: frames) = frame.cpu.sp - 4 := rfl
    refine ⟨⟨possible, fits, below, bytes.congr fun i small => ?_⟩,
      ih rest fun a isRam above => same a isRam ?_⟩
    · refine same _ (possible.inside i small) ?_
      unfold OpenFrame.bottom stackPaddr
      omega
    · unfold stackPaddr at above ⊢
      omega

theorem Stacked.returned {ram : Ram B region} {frame : OpenFrame} {frames : List OpenFrame}
    {block : Block} (stacked : Stacked region (fun a => ram.byte a m.bus) (frame :: frames))
    (takes : Takes block frame.entry m.cpu) (segment : StackSegment block.ctx m.cpu)
    (atFrame : m.cpu.sp = frame.bottom) :
    Returned ram (fun a => ram.byte a m.bus) frame.bottom (frame.entry.returnPc frame.cpu)
      (block.insn.mnemonic ≠ .ret) ((block.run B).run m).2 := by
  obtain ⟨⟨possible, fits, _, bytes⟩, _⟩ := stacked
  have room : frame.bottom + 4 < 2 ^ 16 := by
    have less := possible.sp_lt
    unfold OpenFrame.bottom
    omega
  have returns : block.insn.mnemonic.returns = true := by
    rw [takes.is]
    exact frame.entry.leftBy_returns
  have start : Holds ram m.cpu frame.bottom (fun a => ram.byte a m.bus) m := by
    refine ⟨?_, fun a _ => rfl⟩
    rw [← atFrame]
  exact block_returned room segment possible.inside bytes fits.returnPc_lt returns takes.runs m start

theorem Runs.stacked {ram : Ram B region} {frames : List OpenFrame} (runs : Runs ram frames m) :
    Stacked region (fun a => ram.byte a m.bus) frames := by
  induction runs with
  | start m => trivial
  | other runs undisturbed ih => exact ih.congr undisturbed
  | @enter frames m entry runs possible fits below ih =>
    obtain ⟨mem', holds, pushed⟩ := entry.pushed ram possible fits
    refine ⟨⟨possible, fits, below, ?_⟩, ih.congr fun a isRam above => ?_⟩
    · refine pushed.frame.congr fun i small => ?_
      exact holds.mem_eq _ (possible.inside i small)
    · refine (holds.mem_eq a isRam).trans (pushed.above a ?_)
      have ge := possible.sp_ge
      unfold stackPaddr at above ⊢
      omega
  | leave block runs takes segment atFrame ih =>
    have returned := ih.returned takes segment atFrame
    exact ih.2.congr fun a isRam _ => returned.mem_eq a isRam

/-- In every run whose calls, interrupts and returns meet the condition, a return restores the
program counter and the stack pointer from before the newest open frame was made, and the program
status word where the frame has it. -/
theorem frames_undone {ram : Ram B region} {frame : OpenFrame} {frames : List OpenFrame}
    {block : Block} (runs : Runs ram (frame :: frames) m)
    (takes : Takes block frame.entry m.cpu) (segment : StackSegment block.ctx m.cpu)
    (atFrame : m.cpu.sp = frame.bottom) :
    ((block.run B).run m).2.cpu.pc = frame.entry.returnPc frame.cpu ∧
      ((block.run B).run m).2.cpu.sp = frame.cpu.sp ∧
      (frame.entry.savesPsw = true → ((block.run B).run m).2.cpu.psw = frame.cpu.psw) := by
  have stacked := runs.stacked
  have returned := stacked.returned takes segment atFrame
  obtain ⟨⟨possible, _, _, bytes⟩, _⟩ := stacked
  refine ⟨returned.pc_eq, ?_, fun saves => ?_⟩
  · have ge := possible.sp_ge
    rw [returned.sp_eq]
    unfold OpenFrame.bottom
    omega
  · have restores : decide (block.insn.mnemonic ≠ .ret) = true := by
      rw [takes.is]
      exact decide_eq_true (Entry.leftBy_restores saves)
    have byte : ram.byte (stackPaddr (frame.bottom + 3)) m.bus = cpuPackPsw frame.cpu.psw := by
      refine bytes.psw_eq _ ?_
      unfold savedPsw
      rw [if_pos saves, pswWord_mod]
    have packed : cpuPackPsw frame.cpu.psw < 256 := by
      unfold cpuPackPsw
      omega
    rw [returned.psw_eq restores]
    rw [byte, and_low_byte, mod_eq_of_lt packed, cpuUnpackPsw_pack possible.psw]

/-! ### A call with the prefix -/

/-- Memory at every address. -/
def flatBus : Bus (Nat → Nat) where
  load memop addr s :=
    match memop with
    | .mo8 => (s addr % 2 ^ 8, s)
    | .mo16 => (s addr % 2 ^ 8 + 2 ^ 8 * (s (addr + 1) % 2 ^ 8), s)
  store memop addr data s :=
    match memop with
    | .mo8 => update s addr (data % 2 ^ 8)
    | .mo16 => update (update s addr (data % 2 ^ 8)) (addr + 1)
        (data / 2 ^ 8 % 2 ^ 8)
  readHost paddr s := (s paddr % 2 ^ 8, s)
  writeHost paddr data s := update s paddr (data % 2 ^ 8)
  lduwPhys paddr s := (s paddr % 2 ^ 8 + 2 ^ 8 * (s (paddr + 1) % 2 ^ 8), s)
  stbPhys paddr data s := update s paddr (data % 2 ^ 8)
  load_lt := plainLoad_lt
  readHost_lt := plainByte_lt
  lduwPhys_lt := plainWord_lt

def flatRam : Ram flatBus fun _ => True where
  byte a s := s a % 2 ^ 8
  load_byte _ _ := rfl
  load_keeps memop _ _ _ := by cases memop <;> rfl
  store_byte data s _ _ := by
    show update s _ (data % 2 ^ 8) _ % 2 ^ 8 = _
    rw [update_apply]
    split
    · exact mod_mod _ _
    · rfl
  stbPhys_byte data s _ _ := by
    show update s _ (data % 2 ^ 8) _ % 2 ^ 8 = _
    rw [update_apply]
    split
    · exact mod_mod _ _
    · rfl
  lduwPhys_keeps _ _ _ := rfl

/-- `CALL !1234H` at address 0. -/
def callCode (address : Nat) : Nat := [0xFD, 0x34, 0x12].getD address 0

def esCallCode (address : Nat) : Nat := [0x11, 0xFD, 0x34, 0x12].getD address 0

/-- `RET` at every address. -/
def retCode (_ : Nat) : Nat := 0xD7

def callBlock : Block :=
  { ctx := { useEs := false, pc := 3, tbPc := 0 }
    skip := false
    insn := { mnemonic := .call, operand0 := .abs16 0x1234 } }

def esCallBlock : Block :=
  { ctx := { useEs := true, pc := 4, tbPc := 0 }
    skip := false
    insn := { mnemonic := .call, operand0 := .abs16 0x1234 } }

def retBlock : Block :=
  { ctx := { useEs := false, pc := 0x1235, tbPc := 0x1234 }
    skip := false
    insn := { mnemonic := .ret } }

/-- A stack below `FE00H`, in empty memory; `ES` is 0. -/
def stackMachine : Machine (Nat → Nat) :=
  { cpu := { anyMachine.cpu with sp := 0xFE00 }
    bus := fun _ => 0
    update := false }

theorem stackMachine_possible {block : Block}
    (generated : ∃ code pc, genIntermediateCode code pc block.skip = some block)
    (calls : block.insn.mnemonic.calls = true) :
    (Entry.call block).Possible (fun _ => True) stackMachine.cpu :=
  { makes := ⟨generated, calls, fun _ => rfl⟩
    psw := ⟨by decide, by decide, by decide, by decide, by decide, by decide⟩
    sp_ge := by decide
    sp_lt := by decide
    inside := fun _ _ => trivial }

theorem retBlock_takes {block : Block} {cpu : Cpu} (isCall : block.insn.mnemonic = .call) :
    Takes retBlock (.call block) cpu := by
  refine ⟨⟨retCode, 0x1234, by decide +kernel⟩, ?_, nofun⟩
  unfold Entry.leftBy
  dsimp only
  rw [isCall]
  rfl

/-- A call with the return right behind it. -/
theorem frames_undone_call :
    ((retBlock.run flatBus).run (((Entry.call callBlock).run flatBus).run stackMachine).2).2.cpu.pc
        = 3 ∧
      ((retBlock.run flatBus).run
        (((Entry.call callBlock).run flatBus).run stackMachine).2).2.cpu.sp = 0xFE00 := by
  have possible := @stackMachine_possible callBlock
    ⟨callCode, 0, by decide +kernel⟩ rfl
  have runs : Runs flatRam [{ entry := .call callBlock, cpu := stackMachine.cpu }]
      (((Entry.call callBlock).run flatBus).run stackMachine).2 :=
    .enter _ (.start stackMachine) possible ⟨nofun, by decide⟩ (by decide)
  have undone := frames_undone runs (retBlock_takes rfl) nofun (by decide +kernel)
  exact ⟨undone.1, undone.2.1⟩

/-- The prefix moves the frame into another segment, where the return does not look for it. -/
theorem esCall_notUndone : (Entry.call esCallBlock).Possible (fun _ => True) stackMachine.cpu ∧
      Takes retBlock (.call esCallBlock)
        (((Entry.call esCallBlock).run flatBus).run stackMachine).2.cpu ∧
      ((retBlock.run flatBus).run
        (((Entry.call esCallBlock).run flatBus).run stackMachine).2).2.cpu.pc ≠
          (Entry.call esCallBlock).returnPc stackMachine.cpu :=
  ⟨stackMachine_possible ⟨esCallCode, 0, by decide +kernel⟩ rfl, retBlock_takes rfl,
    by decide +kernel⟩

end Tlib.Rl78
