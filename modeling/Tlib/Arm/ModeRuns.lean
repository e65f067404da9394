import Tlib.Arm.ModeBanks

/-!
Contract: modes and cross-mode accesses of the 32-bit core.

Owns: `cpsr_write`, the helpers that reach the registers of other modes, and runs of them against
one register file for each mode.
-/

namespace Tlib.Arm.ModeRuns

open Function Tlib.Arm.ModeBanks

def modeSys : Mode := 0x1f

/-- USR, FIQ, IRQ, SVC, ABT, UND and SYS. -/
def modes : List Mode := [0x10, 0x11, 0x12, 0x13, 0x17, 0x1b, 0x1f]

def bankNumber (mode : Mode) : Option Nat :=
  match mode.toNat with
  | 0x10 | 0x00 | 0x1f => some 0
  | 0x13 | 0x03 => some 1
  | 0x17 => some 2
  | 0x1b => some 3
  | 0x12 | 0x02 => some 4
  | 0x11 | 0x01 => some 5
  | _ => none

def banking : Banking := ⟨bankNumber, bankNumber⟩

/-- `CACHED_CPSR_BITS`: T, GE, IT, Q and NZCV. -/
def cachedCpsrBits : Word := 0xfe0ffc20

structure Env where
  uncachedCpsr : Word
  file : RegisterFile

def Env.mode (env : Env) : Mode := env.uncachedCpsr.setWidth 5

/-- `cpsr_write`, the flags aside. -/
def Env.cpsrWrite (env : Env) (val mask : Word) : Option Env :=
  let switched :=
    if (((env.uncachedCpsr ^^^ val) &&& mask).setWidth 5 : Mode) ≠ 0 then
      env.file.switchMode banking env.mode (val.setWidth 5)
    else some env.file
  let mask := mask &&& ~~~cachedCpsrBits
  switched.map (Env.mk ((env.uncachedCpsr &&& ~~~mask) ||| (val &&& mask)))

section Helpers

variable (f : RegisterFile) (mode : Mode)

/-- `HELPER(get_user_reg)`, which also brings the register up to date in USR and SYS. -/
def getUserReg : GeneralReg → Word × RegisterFile
  | .r13 =>
    (f.bankedR13 0, if mode = modeUsr ∨ mode = modeSys then f.setReg .r13 (f.bankedR13 0) else f)
  | .r14 =>
    (f.bankedR14 0, if mode = modeUsr ∨ mode = modeSys then f.setReg .r14 (f.bankedR14 0) else f)
  | .high i =>
    if mode = modeFiq then
      (f.usrRegs i, if mode = modeUsr ∨ mode = modeSys then f.setReg (.high i) (f.usrRegs i) else f)
    else (f.regs (8 + i), f)
  | .low r => (f.regs r, f)

def setUserReg (r : GeneralReg) (val : Word) : RegisterFile :=
  match r with
  | .r13 => f.setBankedR13 0 val
  | .r14 => f.setBankedR14 0 val
  | .high i => if mode = modeFiq then f.setUsrReg i val else f.setReg (.high i) val
  | .low r => f.setReg (.low r) val

def getR13Banked (target : Mode) : Option Word :=
  if mode = target then some (f.regs 13) else (bankNumber target).map f.bankedR13

def setR13Banked (target : Mode) (val : Word) : Option RegisterFile :=
  if mode = target then some (f.setReg .r13 val)
  else (bankNumber target).map (f.setBankedR13 · val)

end Helpers

inductive Access where
  | cpsrWrite (val mask : Word)
  | readReg (r : GeneralReg)
  | writeReg (r : GeneralReg) (val : Word)
  | readSpsr
  | writeSpsr (val : Word)
  | getUserReg (r : GeneralReg)
  | setUserReg (r : GeneralReg) (val : Word)
  | getR13Banked (mode : Mode)
  | setR13Banked (mode : Mode) (val : Word)

/-- The core after an access and what the access reads; `none` is an abort. -/
def Env.access (env : Env) : Access → Option (Env × Option Word)
  | .cpsrWrite val mask => (env.cpsrWrite val mask).map (·, none)
  | .readReg r => some (env, some (env.file.regs r.index))
  | .writeReg r val => some ({ env with file := env.file.setReg r val }, none)
  | .readSpsr => some (env, some env.file.spsr)
  | .writeSpsr val => some ({ env with file := { env.file with spsr := val } }, none)
  | .getUserReg r =>
    let (val, file) := Tlib.Arm.ModeRuns.getUserReg env.file env.mode r
    some ({ env with file := file }, some val)
  | .setUserReg r val =>
    some ({ env with file := Tlib.Arm.ModeRuns.setUserReg env.file env.mode r val }, none)
  | .getR13Banked mode =>
    (Tlib.Arm.ModeRuns.getR13Banked env.file env.mode mode).map fun val => (env, some val)
  | .setR13Banked mode val =>
    (Tlib.Arm.ModeRuns.setR13Banked env.file env.mode mode val).map fun file =>
      ({ env with file := file }, none)

def Env.run : List Access → Env → Option (Env × List (Option Word))
  | [], env => some (env, [])
  | access :: rest, env =>
    (env.access access).bind fun next =>
      (run rest next.1).map fun last => (last.1, next.2 :: last.2)

/-! ### One register file for each mode -/

def bank (mode : Mode) : Nat := (bankNumber mode).getD 0

/-- What the accesses mean: a mode and the last value written to each register. -/
structure Machine where
  mode : Mode
  file : ArchReg → Word

namespace Machine

variable (m : Machine)

def named (r : GeneralReg) : ArchReg := r.named m.mode (bank m.mode) (bank m.mode)

def write (r : ArchReg) (val : Word) : Machine := { m with file := update m.file r val }

def access : Access → Machine × Option Word
  | .cpsrWrite val mask =>
    (if (mask.setWidth 5 : Mode) = 0 then m else { m with mode := val.setWidth 5 }, none)
  | .readReg r => (m, some (m.file (m.named r)))
  | .writeReg r val => (m.write (m.named r) val, none)
  | .readSpsr => (m, some (m.file (.spsr (bank m.mode))))
  | .writeSpsr val => (m.write (.spsr (bank m.mode)) val, none)
  | .getUserReg r => (m, some (m.file (r.named modeUsr 0 0)))
  | .setUserReg r val => (m.write (r.named modeUsr 0 0) val, none)
  | .getR13Banked mode => (m, some (m.file (.r13 (bank mode))))
  | .setR13Banked mode val => (m.write (.r13 (bank mode)) val, none)

def run : List Access → Machine → Machine × List (Option Word)
  | [], m => (m, [])
  | access :: rest, m =>
    let last := run rest (m.access access).1
    (last.1, (m.access access).2 :: last.2)

end Machine

def Env.machine (env : Env) : Machine := ⟨env.mode, env.file.view banking env.mode⟩

/-- The mode changes and banks in question: a write selects all mode bits or none. -/
def Access.InModes : Access → Prop
  | .cpsrWrite val mask =>
    (mask.setWidth 5 : Mode) = 0 ∨ (mask.setWidth 5 : Mode) = 0x1f ∧ val.setWidth 5 ∈ modes
  | .getR13Banked mode => mode ∈ modes
  | .setR13Banked mode _ => mode ∈ modes
  | _ => True

def Access.Harmless (f : RegisterFile) (mode : Mode) : Access → Prop
  | .getUserReg .r13 => bank mode = 0 → f.bankedR13 0 = f.regs 13
  | .getUserReg .r14 => bank mode = 0 → f.bankedR14 0 = f.regs 14
  | .setUserReg .r13 val => bank mode = 0 → f.regs 13 = val
  | .setUserReg .r14 val => bank mode = 0 → f.regs 14 = val
  | .getR13Banked target =>
    mode ≠ target → bank mode = bank target → f.bankedR13 (bank target) = f.regs 13
  | .setR13Banked target val => mode ≠ target → bank mode = bank target → f.regs 13 = val
  | _ => True

theorem bankNumber_of_modes {mode : Mode} (inModes : mode ∈ modes) :
    bankNumber mode = some (bank mode) := by
  have all : ∀ mode ∈ modes, bankNumber mode = some (bank mode) := by decide
  exact all mode inModes

theorem bank_eq_zero_iff {mode : Mode} (inModes : mode ∈ modes) :
    bank mode = 0 ↔ mode = modeUsr ∨ mode = modeSys := by
  have all : ∀ mode ∈ modes, (bank mode = 0 ↔ mode = modeUsr ∨ mode = modeSys) := by decide
  exact all mode inModes

section Helpers

variable {f : RegisterFile} {mode : Mode} (inModes : mode ∈ modes)

include inModes

theorem regs_view (r : GeneralReg) :
    f.regs r.index = f.view banking mode (r.named mode (bank mode) (bank mode)) :=
  RegisterFile.regs_index (bankNumber_of_modes inModes) (bankNumber_of_modes inModes) r

theorem setReg_view (r : GeneralReg) (val : Word) : (f.setReg r val).view banking mode =
    update (f.view banking mode) (r.named mode (bank mode) (bank mode)) val :=
  RegisterFile.setReg_view (bankNumber_of_modes inModes) (bankNumber_of_modes inModes) r val

theorem view_bank {α : Type} (i : Nat) (x y : α) :
    (if banking.bankNumber mode = some i then x else y) = if bank mode = i then x else y := by
  refine if_congr ?_ rfl rfl
  show bankNumber mode = some i ↔ _
  rw [bankNumber_of_modes inModes, Option.some_inj]

theorem getUserReg_view {r : GeneralReg} (harmless : (Access.getUserReg r).Harmless f mode) :
    getUserReg f mode r = (f.view banking mode (r.named modeUsr 0 0), f) := by
  have user := bank_eq_zero_iff inModes
  cases r with
  | low r => rfl
  | high i =>
    show _ = (if mode = modeFiq then _ else _, f)
    rw [getUserReg]
    by_cases fiq : mode = modeFiq
    · have notUser : ¬(mode = modeUsr ∨ mode = modeSys) := by
        rw [fiq]
        decide
      rw [if_pos fiq, if_pos fiq, if_neg notUser]
    · rw [if_neg fiq, if_neg fiq]
  | r13 =>
    rw [getUserReg, GeneralReg.named, RegisterFile.view, view_bank inModes]
    by_cases inUse : bank mode = 0
    · rw [if_pos inUse, if_pos (user.mp inUse), harmless inUse]
      exact congrArg (Prod.mk _) (RegisterFile.setReg_self .r13)
    · rw [if_neg inUse, if_neg (mt user.mpr inUse)]
  | r14 =>
    have here : f.view banking mode (.r14 0) = if bank mode = 0 then f.regs 14 else f.bankedR14 0 :=
      view_bank inModes 0 _ _
    rw [getUserReg, GeneralReg.named, here]
    by_cases inUse : bank mode = 0
    · rw [if_pos inUse, if_pos (user.mp inUse), harmless inUse]
      exact congrArg (Prod.mk _) (RegisterFile.setReg_self .r14)
    · rw [if_neg inUse, if_neg (mt user.mpr inUse)]

theorem setUserReg_view {r : GeneralReg} {val : Word}
    (harmless : (Access.setUserReg r val).Harmless f mode) :
    (setUserReg f mode r val).view banking mode =
      update (f.view banking mode) (r.named modeUsr 0 0) val := by
  have here := bankNumber_of_modes inModes
  cases r with
  | low r => exact setReg_view inModes (.low r) val
  | high i =>
    rw [setUserReg]
    by_cases fiq : mode = modeFiq
    · rw [if_pos fiq]
      exact RegisterFile.setUsrReg_view fiq i val
    · have named : (GeneralReg.high i).named mode (bank mode) (bank mode) = .usr i := if_neg fiq
      rw [if_neg fiq, setReg_view inModes, named]
      rfl
  | r13 => exact RegisterFile.setBankedR13_view here harmless
  | r14 => exact RegisterFile.setBankedR14_view here harmless

theorem getR13Banked_view {target : Mode} (domain : target ∈ modes)
    (harmless : (Access.getR13Banked target).Harmless f mode) :
    getR13Banked f mode target = some (f.view banking mode (.r13 (bank target))) := by
  rw [getR13Banked, RegisterFile.view, view_bank inModes, bankNumber_of_modes domain]
  by_cases same : mode = target
  · rw [if_pos same, same, if_pos rfl]
  · rw [if_neg same]
    by_cases inUse : bank mode = bank target
    · rw [if_pos inUse, ← harmless same inUse]
      rfl
    · rw [if_neg inUse]
      rfl

theorem setR13Banked_view {target : Mode} {val : Word} (domain : target ∈ modes)
    (harmless : (Access.setR13Banked target val).Harmless f mode) :
    ∃ f', setR13Banked f mode target val = some f' ∧
      f'.view banking mode = update (f.view banking mode) (.r13 (bank target)) val := by
  rw [setR13Banked, bankNumber_of_modes domain]
  by_cases same : mode = target
  · rw [if_pos same, ← same]
    exact ⟨_, rfl, setReg_view inModes .r13 val⟩
  · rw [if_neg same]
    exact ⟨_, rfl, RegisterFile.setBankedR13_view (bankNumber_of_modes inModes) (harmless same)⟩

end Helpers

section Step

variable {env : Env} (inModes : env.mode ∈ modes)

include inModes

theorem cpsrWrite_machine {val mask : Word} (domain : (Access.cpsrWrite val mask).InModes) :
    ∃ env', env.cpsrWrite val mask = some env' ∧ env'.mode ∈ modes ∧
      env'.machine = (env.machine.access (.cpsrWrite val mask)).1 := by
  have changed : (((env.uncachedCpsr ^^^ val) &&& mask).setWidth 5 : Mode) =
      (env.mode ^^^ val.setWidth 5) &&& mask.setWidth 5 := by
    rw [BitVec.setWidth_and, BitVec.setWidth_xor]
    rfl
  have written := @written_mode cachedCpsrBits (by decide) env.uncachedCpsr val mask
  unfold Env.cpsrWrite
  rcases domain with none | ⟨all, target⟩
  · rw [none] at written
    have kept : _ = env.uncachedCpsr.setWidth 5 :=
      written.trans (by simpa using and_modeBits (env.uncachedCpsr.setWidth 5))
    rw [changed, none, if_neg (fun differ => differ BitVec.and_zero)]
    refine ⟨_, rfl, (congrArg (· ∈ modes) kept).mpr inModes, ?_⟩
    rw [Machine.access, if_pos none, Env.machine, Env.machine, Env.mode, kept]
    rfl
  · rw [all] at written
    have moved : _ = val.setWidth 5 :=
      written.trans (by simpa using and_modeBits (val.setWidth 5))
    obtain ⟨file, switched, same⟩ := @RegisterFile.switchMode_view banking env.file
      (val.setWidth 5) env.mode _ _ _ _ (bankNumber_of_modes inModes) (bankNumber_of_modes inModes)
      (bankNumber_of_modes target) (bankNumber_of_modes target)
    have after : (if (((env.uncachedCpsr ^^^ val) &&& mask).setWidth 5 : Mode) ≠ 0 then
        env.file.switchMode banking env.mode (val.setWidth 5) else some env.file) = some file := by
      split_ifs with differ
      · exact switched
      · rw [changed, all, and_modeBits, not_not] at differ
        rw [← switched, RegisterFile.switchMode, if_pos (BitVec.xor_eq_zero_iff.mp differ).symm]
    have selects : mask.setWidth 5 ≠ (0 : Mode) := by
      rw [all]
      decide
    rw [after]
    refine ⟨_, rfl, (congrArg (· ∈ modes) moved).mpr target, ?_⟩
    rw [Machine.access, if_neg selects, Env.machine, Env.machine, Env.mode, moved]
    exact congrArg (Machine.mk _) same

theorem access_machine {access : Access} (domain : access.InModes)
    (harmless : access.Harmless env.file env.mode) :
    ∃ env', env.access access = some (env', (env.machine.access access).2) ∧
      env'.mode ∈ modes ∧ env'.machine = (env.machine.access access).1 := by
  cases access with
  | cpsrWrite val mask =>
    obtain ⟨env', done, stays, same⟩ := cpsrWrite_machine inModes domain
    refine ⟨env', ?_, stays, same⟩
    rw [Env.access, done]
    rfl
  | readReg r =>
    exact ⟨env, congrArg (fun val => some (env, some val)) (regs_view inModes r), inModes, rfl⟩
  | writeReg r val =>
    exact ⟨_, rfl, inModes, congrArg (Machine.mk env.mode) (setReg_view inModes r val)⟩
  | readSpsr =>
    have here : env.machine.file (.spsr (bank env.mode)) = env.file.spsr :=
      if_pos (bankNumber_of_modes inModes)
    exact ⟨env, congrArg (fun val => some (env, some val)) here.symm, inModes, rfl⟩
  | writeSpsr val =>
    exact ⟨_, rfl, inModes, congrArg (Machine.mk env.mode)
      (@RegisterFile.setSpsr_view banking _ _ _ (bankNumber_of_modes inModes) val)⟩
  | getUserReg r =>
    refine ⟨env, ?_, inModes, rfl⟩
    rw [Env.access, getUserReg_view inModes harmless]
    rfl
  | setUserReg r val =>
    exact ⟨_, rfl, inModes, congrArg (Machine.mk env.mode) (setUserReg_view inModes harmless)⟩
  | getR13Banked mode =>
    refine ⟨env, ?_, inModes, rfl⟩
    rw [Env.access, getR13Banked_view inModes domain harmless]
    rfl
  | setR13Banked mode val =>
    obtain ⟨file, done, same⟩ := setR13Banked_view inModes domain harmless
    refine ⟨{ env with file := file }, ?_, inModes, congrArg (Machine.mk env.mode) same⟩
    rw [Env.access, done]
    rfl

end Step

/-! ### Runs -/

/-- A run all of whose accesses are harmless. -/
inductive HarmlessRun : Env → List Access → Prop
  | nil (env : Env) : HarmlessRun env []
  | cons {env : Env} {access : Access} {rest : List Access} (domain : access.InModes)
      (harmless : access.Harmless env.file env.mode)
      (next : ∀ env' result, env.access access = some (env', result) → HarmlessRun env' rest) :
      HarmlessRun env (access :: rest)

/-- In a harmless run no access aborts, and every read returns the last value written. -/
theorem run_machine {env : Env} (inModes : env.mode ∈ modes) {accesses : List Access}
    (run : HarmlessRun env accesses) :
    ∃ env', env.run accesses = some (env', (env.machine.run accesses).2) ∧
      env'.machine = (env.machine.run accesses).1 := by
  induction run with
  | nil env => exact ⟨env, rfl, rfl⟩
  | @cons env access rest domain harmless next ih =>
    obtain ⟨first, done, stays, same⟩ := access_machine inModes domain harmless
    obtain ⟨last, later, after⟩ := ih first _ done stays
    rw [same] at later after
    refine ⟨last, ?_, after⟩
    rw [Env.run, done, Option.bind_some, later]
    rfl

def svcEnv : Env := ⟨0x13, ⟨fun _ => 0, 0, fun _ => 0, fun _ => 0, fun _ => 0, fun _ => 0, fun _ => 0⟩⟩

/-- SVC writes the user's stack pointer and reads it in SYS. -/
theorem run_machine_sample :
    ∃ env', svcEnv.run [.setUserReg .r13 7, .cpsrWrite 0x1f 0x1f, .readReg .r13] =
      some (env', [none, none, some 7]) := by
  have run : HarmlessRun svcEnv [.setUserReg .r13 7, .cpsrWrite 0x1f 0x1f, .readReg .r13] := by
    refine .cons trivial (fun is => absurd is (by decide)) fun _ _ first => ?_
    exact .cons (Or.inr (by decide)) trivial fun _ _ _ =>
      .cons trivial trivial fun _ _ _ => .nil _
  obtain ⟨env', done, _⟩ := run_machine (by decide) run
  exact ⟨env', done⟩

/-- In SYS the bank is written, and the register in use is read. -/
theorem user_stack_lost : let env : Env := { svcEnv with uncachedCpsr := 0x1f }
    (env.run [.setUserReg .r13 5, .readReg .r13]).map (·.2) = some [none, some 0] ∧
      (env.machine.run [.setUserReg .r13 5, .readReg .r13]).2 = [none, some 5] := by
  decide

end Tlib.Arm.ModeRuns
