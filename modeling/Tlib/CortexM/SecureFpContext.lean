import Tlib.CortexM.ExceptionUndo

/-!
Contract: `VLSTM` and `VLLDM`, which keep the Secure floating-point context over a call of
Non-secure code.

Owns: the two helpers, and when they restore the context, hide it and report a pending one. Does not
own: the activities that run in between, nor `MSR` to `CONTROL`.
-/

namespace Tlib.CortexM

open Tlib.Library.WordStack

/-- The banked bits of `FPCCR`, at their positions. -/
def Fpccr.word (f : Fpccr) : Word :=
  bitIf f.lspact 0 ||| bitIf f.user 1 ||| bitIf f.thread 3 ||| bitIf f.aspen 31

/-- The position of the bit, which the code takes for its mask. -/
def armFpccrLspact : Word := 0#32

/-- The test for `LSERR`. -/
def Cpu.vlstmLserr (cpu : Cpu) : Bool := (cpu.fpccr cpu.fpccrS).word &&& armFpccrLspact ≠ 0#32

/-- `cpu_loop_exit_restore` with a fault that names the instruction. -/
def Cpu.secureFaultAt (cpu : Cpu) (status : Word) : Outcome :=
  (cpu.setSecureFaultAddress (cpu.pc - 2#32)).secureFault (status ||| bitIf true 6)

def Cpu.vlstmWords (F : Features) (cpu : Cpu) : List Word :=
  cpu.lowWords ++ [cpu.fpscr] ++
    ([if F.mve then cpu.vpr else 0xBADCAFFE#32] ++ if cpu.ts then cpu.calleeWords else [])

/-- The calls of `vlstm_store_helper`, and whether any has failed. -/
def Cpu.vlstmStores (cpu : Cpu) (address : Word) : List Word → Cpu × Bool
  | low :: high :: rest =>
    match cpu.getPhysAddr .store address cpu.secure (!cpu.inPrivilegedMode) with
    | .success =>
      { cpu with
        memory := store (store cpu.memory address low) (address + 4#32) high }.vlstmStores
          (address + 8#32) rest
    | refusal =>
      (((cpu.accessRefused address cpu.secure refusal).vlstmStores address rest).1, true)
  | _ => (cpu, false)

def Cpu.setFpca (cpu : Cpu) (fpca : Bool) : Cpu := { cpu with fpca := fpca }

def Cpu.v8mVlstm (F : Features) (cpu : Cpu) (address : Word) : Outcome :=
  if cpu.vlstmLserr then cpu.secureFaultAt (bitIf true 7)
  else if cpu.lspen then .done ((cpu.fpccrUpdate address).setFpca false)
  else
    let stored := cpu.vlstmStores address (cpu.vlstmWords F)
    if stored.2 then (stored.1.invalidateVfpRegs cpu.ts).secureFaultAt (bitIf true 3)
    else .done ((stored.1.invalidateVfpRegs cpu.ts).setFpca false)

/-- The calls of `vlldm_load_helper`; a refused one leaves `scratch` as it was. -/
def Cpu.vlldmLoads (cpu : Cpu) (address : Word) (scratch : Word × Word) :
    Nat → Cpu × List Word × Bool
  | 0 => (cpu, [], false)
  | n + 1 =>
    match cpu.getPhysAddr .load address cpu.secure (!cpu.inPrivilegedMode) with
    | .success =>
      let val := (load cpu.memory address, load cpu.memory (address + 4#32))
      let rest := cpu.vlldmLoads (address + 8#32) val n
      (rest.1, val.1 :: val.2 :: rest.2.1, rest.2.2)
    | refusal =>
      let rest := (cpu.accessRefused address cpu.secure refusal).vlldmLoads address scratch n
      (rest.1, scratch.1 :: scratch.2 :: rest.2.1, true)

def Cpu.unpackFp (cpu : Cpu) (words : List Word) : Cpu :=
  { cpu with
    s := fun i =>
      if i.val < 16 then words.getD i.val 0
      else if cpu.ts then words.getD (i.val + 2) 0
      else cpu.s i
    fpscr := words.getD 16 0
    vpr := words.getD 17 0 }

def Cpu.v8mVlldm (cpu : Cpu) (address : Word) : Outcome :=
  if (cpu.fpccr true).lspact then
    .done ({ cpu with
      fpccr := setBank cpu.fpccr true { cpu.fpccr true with lspact := false } }.setFpca true)
  else
    let loads := cpu.vlldmLoads address (0, 0) (9 + if cpu.ts then 8 else 0)
    if loads.2.2 then
      ((loads.1.unpackFp loads.2.1).invalidateVfpRegs true).secureFaultAt (bitIf true 3)
    else .done ((loads.1.unpackFp loads.2.1).setFpca true)

def lazyPlace (address : Word) : Word := address &&& 0xfffffff8#32

def Cpu.SavedArea (F : Features) (cpu : Cpu) (address b : Word) : Prop :=
  if cpu.lspen then Within (lazyPlace address) (4 * (cpu.lazyWords F true).length) b
  else Within address (4 * (cpu.vlstmWords F).length) b

/-- What `VLSTM` and `VLLDM` promise of every run between them whose code leaves `CONTROL.FPCA`,
`FPCCR` and `FPCAR` to the hardware. Non-secure code that sets `CONTROL.FPCA` by `MSR` is left out: the
next exception makes the pending context its own. -/
structure KeepsContext (F : Features) (E : Environment) (cpu : Cpu) (address : Word) : Prop where
  restores : ∀ stored frames last loaded, cpu.v8mVlstm F address = .done stored →
    (∀ b, cpu.SavedArea F address b → frames b) → Activity F E frames stored last →
    last.secure = true → last.v8mVlldm address = .done loaded → SameContext F cpu loaded
  hides : ∀ stored last seen, cpu.ts = true → cpu.v8mVlstm F address = .done stored →
    KeepsFp stored last → last.fpLspSaveToStack F = .done seen →
    seen.s = (fun _ => 0) ∧ seen.fpscr = 0 ∧ seen.vpr = 0
  reports : cpu.vlstmLserr = true ↔ (cpu.fpccr cpu.fpccrS).lspact = true

structure ContextAt (cpu : Cpu) (m : Memory 32) (base : Word) : Prop where
  low : Holds m base (cpu.lowWords ++ [cpu.fpscr])
  callee : cpu.ts = true → Holds m (base + BitVec.ofNat 32 (4 * 18)) cpu.calleeWords

def Cpu.ContextReadable (F : Features) (cpu : Cpu) (address : Word) : Prop :=
  (cpu.fpccr cpu.fpccrS).lspact = false ∧ (cpu.lspen = true →
    ∀ m, Holds m (lazyPlace address) (cpu.lazyWords F true) → ContextAt cpu m address)

variable {F : Features} {E : Environment} {cpu last : Cpu} {address : Word}

theorem vlstmStores_done {words : List Word} (even : words.length % 2 = 0)
    (fine : (cpu.vlstmStores address words).2 = false) :
    (cpu.vlstmStores address words).1 =
      { cpu with memory := storeAll cpu.memory address words } := by
  fun_induction Cpu.vlstmStores cpu address words with
  | case1 cpu address low high rest success ih =>
    rw [List.length_cons, List.length_cons] at even
    rw [ih (by omega) fine]
    show _ = { cpu with memory := storeAll (store _ _ _) (address + 4#32 + 4#32) rest }
    rw [BitVec.add_assoc]
    rfl
  | case2 => cases fine
  | case3 words cpu address short =>
    match words with
    | [] => rfl
    | [_] => cases even
    | low :: high :: rest => exact absurd rfl (short low high rest)

theorem vlldmLoads_done {n : Nat} {scratch : Word × Word}
    (fine : (cpu.vlldmLoads address scratch n).2.2 = false) :
    (cpu.vlldmLoads address scratch n).1 = cpu ∧ ∀ i < 2 * n,
      (cpu.vlldmLoads address scratch n).2.1.getD i 0 =
        load cpu.memory (address + BitVec.ofNat 32 (4 * i)) := by
  induction n generalizing address scratch with
  | zero => exact ⟨rfl, fun i inside => absurd inside (Nat.not_lt_zero i)⟩
  | succ n ih =>
    unfold Cpu.vlldmLoads at fine ⊢
    split at fine
    · obtain ⟨same, words⟩ := ih fine
      refine ⟨same, fun i inside => ?_⟩
      match i with
      | 0 => exact congrArg (load cpu.memory) (add_zero address).symm
      | 1 => rfl
      | i + 2 =>
        have word := words i (by omega)
        rw [show address + 8#32 = address + BitVec.ofNat 32 8 from rfl, add_add_ofNat,
          show 8 + 4 * i = 4 * (i + 2) by omega] at word
        exact word
    · cases fine

theorem vlldmLoads_granted {n : Nat} {scratch : Word × Word}
    (granted : cpu.getPhysAddr = fun _ _ _ _ => .success) :
    (cpu.vlldmLoads address scratch n).2.2 = false := by
  induction n generalizing address scratch with
  | zero => rfl
  | succ n ih =>
    unfold Cpu.vlldmLoads
    rw [granted]
    exact ih

theorem lspStoreAll_granted {words : List Word} {bank : Bool}
    (granted : cpu.getPhysAddr = fun _ _ _ _ => .success) :
    (cpu.lspStoreAll address bank words).2 = false := by
  induction words generalizing cpu address with
  | nil => rfl
  | cons word words ih =>
    have first : cpu.lspStoreHelper address word bank =
        ({ cpu with memory := store cpu.memory address word }, address + 4#32, true) := by
      unfold Cpu.lspStoreHelper
      rw [granted]
    unfold Cpu.lspStoreAll
    rw [first]
    exact ih granted

theorem contextAt_of_holds {m : Memory 32} {base word : Word}
    (holds : Holds m base (cpu.lowWords ++ [cpu.fpscr] ++
      ([word] ++ if cpu.ts then cpu.calleeWords else []))) : ContextAt cpu m base := by
  obtain ⟨low, -, above⟩ := context_of_holds holds
  apply ContextAt.mk low
  intro stack
  rw [stack] at above
  exact above

theorem contextAt_of_lazyWords {m : Memory 32} {base : Word} (v8 : F.v8 = true)
    (holds : Holds m base (cpu.lazyWords F true)) : ContextAt cpu m base := by
  unfold Cpu.lazyWords at holds
  rw [v8, if_pos rfl, Bool.true_and] at holds
  exact contextAt_of_holds holds

theorem vlstmWords_length (F : Features) (cpu : Cpu) :
    (cpu.vlstmWords F).length = 18 + if cpu.ts then 16 else 0 := by
  unfold Cpu.vlstmWords Cpu.lowWords Cpu.calleeWords
  cases cpu.ts <;> simp

theorem vlldm_same_iff {loaded : Cpu} (v8 : F.v8 = true) (secure : cpu.secure = true)
    (ts : last.ts = cpu.ts) (quiet : (last.fpccr true).lspact = false)
    (done : last.v8mVlldm address = .done loaded) :
    SameContext F cpu loaded ↔ ContextAt cpu last.memory address := by
  unfold Cpu.v8mVlldm at done
  rw [quiet, if_neg Bool.false_ne_true] at done
  dsimp only at done
  have room (i : Nat) (inside : i < 18 ∨ last.ts = true ∧ i < 34) :
      i < 2 * (9 + if last.ts then 8 else 0) := by
    rcases inside with few | ⟨stack, few⟩
    · omega
    · rw [stack, if_pos rfl]
      omega
  generalize (9 + if last.ts then 8 else 0) = n at done room
  cases refused : (last.vlldmLoads address (0, 0) n).2.2 with
  | true =>
    rw [refused] at done
    cases done
  | false =>
    obtain ⟨same, words⟩ := vlldmLoads_done refused
    rw [refused, same] at done
    cases done
    generalize (last.vlldmLoads address (0, 0) n).2.1 = read at words
    have low : (last.unpackFp read).lowWords = cpu.lowWords ↔
        Holds last.memory address cpu.lowWords := by
      unfold Cpu.lowWords
      rw [List.ofFn_inj, holds_ofFn, funext_iff]
      apply forall_congr'
      intro i
      rw [← words i (room _ (by omega))]
      show (if i.val < 16 then read.getD i 0 else _) = _ ↔ _
      rw [if_pos i.isLt]
    have callee (stack : cpu.ts = true) : (last.unpackFp read).calleeWords = cpu.calleeWords ↔
        Holds last.memory (address + BitVec.ofNat 32 (4 * 18)) cpu.calleeWords := by
      unfold Cpu.calleeWords
      rw [List.ofFn_inj, holds_ofFn, funext_iff]
      apply forall_congr'
      intro i
      rw [add_add_ofNat, show 4 * 18 + 4 * i.val = 4 * (16 + i + 2) by omega,
        ← words _ (room _ (.inr ⟨ts.trans stack, by omega⟩))]
      show (if 16 + i.val < 16 then _
        else if last.ts then read.getD (16 + i + 2) 0 else _) = _ ↔ _
      rw [if_neg (by omega), ts, if_pos stack]
    have fpscr : (last.unpackFp read).fpscr =
        load last.memory (address + BitVec.ofNat 32 (4 * 16)) := words 16 (room _ (by omega))
    have count : cpu.lowWords.length = 16 := by
      unfold Cpu.lowWords
      rw [List.length_ofFn]
    constructor
    · intro context
      constructor
      · rw [holds_append, count]
        exact ⟨low.mp context.low, fpscr.symm.trans context.fpscr, trivial⟩
      · intro stack
        exact (callee stack).mp (context.callee (by rw [v8, secure, stack]; rfl))
    · intro context
      obtain ⟨registers, status, -⟩ := holds_append.mp context.low
      refine ⟨low.mpr registers, fpscr.trans status, fun wide => ?_⟩
      simp only [Bool.and_eq_true] at wide
      exact (callee wide.2).mpr (context.callee wide.2)

theorem vlldm_granted (address : Word) (quiet : (cpu.fpccr true).lspact = false)
    (granted : cpu.getPhysAddr = fun _ _ _ _ => .success) :
    ∃ loaded, cpu.v8mVlldm address = .done loaded := by
  have fine : (cpu.vlldmLoads address (0, 0) (9 + if cpu.ts then 8 else 0)).2.2 = false :=
    vlldmLoads_granted granted
  unfold Cpu.v8mVlldm
  rw [quiet, if_neg Bool.false_ne_true]
  dsimp only
  rw [fine]
  exact ⟨_, rfl⟩

/-- Where lazy preservation would put the context. -/
def Cpu.vlstmFrame (F : Features) (cpu : Cpu) (address : Word) : FpFrame :=
  { bank := true
    base := lazyPlace address
    words := cpu.lazyWords F true
    small := lazyWords_length_le cpu true }

theorem vlstmLserr_never (cpu : Cpu) : cpu.vlstmLserr = false := by
  unfold Cpu.vlstmLserr armFpccrLspact
  rw [BitVec.and_zero]
  rfl

theorem vlstm_lazy (lazy : cpu.lspen = true) :
    cpu.v8mVlstm F address = .done ((cpu.fpccrUpdate address).setFpca false) := by
  unfold Cpu.v8mVlstm
  rw [vlstmLserr_never, lazy]
  rfl

theorem vlstm_pending (secure : cpu.secure = true) (quiet : cpu.Quiet) :
    (cpu.vlstmFrame F address).Pending F ((cpu.fpccrUpdate address).setFpca false) := by
  constructor
  · show (setBank cpu.fpccr cpu.secure _ true).lspact = true
    rw [secure]
    rfl
  · show (setBank cpu.fpccr cpu.secure _ false).lspact = false
    rw [secure]
    exact quiet false
  · rfl
  · exact secure
  · show setBank cpu.fpcar cpu.secure (address &&& 0xfffffff8#32) true &&& 0xfffffff8#32 = _
    rw [secure]
    show address &&& 0xfffffff8#32 &&& 0xfffffff8#32 = _
    rw [BitVec.and_assoc]
    rfl
  · rfl

def Cpu.setMemory (cpu : Cpu) (m : Memory 32) : Cpu := { cpu with memory := m }

theorem vlstm_eager {stored : Cpu} (eager : cpu.lspen = false)
    (done : cpu.v8mVlstm F address = .done stored) :
    stored = ((cpu.setMemory (storeAll cpu.memory address (cpu.vlstmWords F))).invalidateVfpRegs
      cpu.ts).setFpca false := by
  unfold Cpu.v8mVlstm at done
  rw [vlstmLserr_never, eager] at done
  have even : (cpu.vlstmWords F).length % 2 = 0 := by
    rw [vlstmWords_length]
    split <;> rfl
  dsimp only at done
  cases refused : (cpu.vlstmStores address (cpu.vlstmWords F)).2 with
  | true =>
    rw [refused] at done
    cases done
  | false =>
    rw [refused, vlstmStores_done even refused] at done
    cases done
    rfl

def Cpu.OwnerPends (cpu : Cpu) : Prop := ∀ bank, (cpu.fpccr bank).lspact = true → cpu.fpccrS = bank

theorem Cpu.OwnerPends.quiet (owner : cpu.OwnerPends)
    (clear : (cpu.fpccr cpu.fpccrS).lspact = false) : cpu.Quiet := by
  intro bank
  cases active : (cpu.fpccr bank).lspact with
  | false => rfl
  | true =>
    rw [owner bank active, active] at clear
    cases clear

theorem invalidateVfpRegs_ts (cpu : Cpu) (shouldClear : Bool) :
    (cpu.invalidateVfpRegs shouldClear).ts = cpu.ts := by
  unfold Cpu.invalidateVfpRegs
  split <;> rfl

theorem vlstm_kept {stored : Cpu} {frames : Word → Prop}
    (secure : cpu.secure = true) (quiet : cpu.Quiet) (readable : cpu.ContextReadable F address)
    (done : cpu.v8mVlstm F address = .done stored)
    (area : ∀ b, cpu.SavedArea F address b → frames b)
    (run : Activity F E frames stored last) :
    last.ts = cpu.ts ∧ ((cpu.vlstmFrame F address).Pending F last ∨
      (last.Quiet ∧ ContextAt cpu last.memory address)) := by
  unfold Cpu.SavedArea at area
  cases lazy : cpu.lspen with
  | true =>
    rw [lazy] at area
    rw [vlstm_lazy lazy] at done
    cases done
    have start : Preserved F (some (cpu.vlstmFrame F address)) True
        ((cpu.fpccrUpdate address).setFpca false) := .inl (vlstm_pending secure quiet)
    have covered (frame : FpFrame) (same : some (cpu.vlstmFrame F address) = some frame)
        (b : Word) (contains : frame.Contains b) : frames b := by
      cases same
      exact area b contains
    obtain ⟨-, preserved⟩ := run.preserved (fun _ => False.elim) (fun _ _ _ _ => id)
      (fun _ => covered) start
    apply And.intro run.ts
    rcases preserved with pending | ⟨after, held⟩
    · exact .inl pending
    · exact .inr ⟨after, readable.2 lazy _ (held trivial)⟩
  | false =>
    simp only [lazy, Bool.false_eq_true, if_false] at area
    have state := vlstm_eager lazy done
    generalize spilled : storeAll cpu.memory address (cpu.vlstmWords F) = m at state
    obtain ⟨memory, fpccr⟩ := invalidateVfpRegs_memory (cpu.setMemory m) cpu.ts
    have few : 4 * (cpu.vlstmWords F).length ≤ 2 ^ 32 := by
      rw [vlstmWords_length]
      split <;> decide
    have holds : Holds stored.memory address (cpu.vlstmWords F) := by
      rw [state]
      show Holds ((cpu.setMemory m).invalidateVfpRegs cpu.ts).memory address (cpu.vlstmWords F)
      rw [memory]
      show Holds m address (cpu.vlstmWords F)
      rw [← spilled]
      exact storeAll_holds few (by decide)
    have before : Preserved F none False stored := by
      intro bank
      rw [state]
      show (((cpu.setMemory m).invalidateVfpRegs cpu.ts).fpccr bank).lspact = false
      rw [fpccr]
      exact quiet bank
    have kept : Agree (Within address (4 * (cpu.vlstmWords F).length)) stored.memory last.memory ∧
        Preserved F none False last :=
      run.preserved area (fun _ same => nomatch same) False.elim before
    have held : Holds last.memory address (cpu.vlstmWords F) :=
      holds.of_agree kept.1 few (by decide)
    constructor
    · rw [run.ts, state]
      exact invalidateVfpRegs_ts (cpu.setMemory m) cpu.ts
    · exact .inr ⟨kept.2, contextAt_of_holds held⟩

theorem vlstm_restores {stored loaded : Cpu} {frames : Word → Prop} (v8 : F.v8 = true)
    (secure : cpu.secure = true) (quiet : cpu.Quiet) (readable : cpu.ContextReadable F address)
    (done : cpu.v8mVlstm F address = .done stored)
    (area : ∀ b, cpu.SavedArea F address b → frames b)
    (run : Activity F E frames stored last) (loads : last.v8mVlldm address = .done loaded) :
    SameContext F cpu loaded := by
  obtain ⟨ts, pending | ⟨after, context⟩⟩ := vlstm_kept secure quiet readable done area run
  · have active : (last.fpccr true).lspact = true := pending.active
    unfold Cpu.v8mVlldm at loads
    rw [active] at loads
    cases loads
    have same : (last.setFpca true).lazyWords F cpu.secure = cpu.lazyWords F cpu.secure := by
      rw [secure]
      exact pending.words
    obtain ⟨low, fpscr, callee⟩ := sameContext_of_lazyWords ts same
    exact ⟨low, fpscr, callee⟩
  · exact (vlldm_same_iff v8 secure ts (after true) loads).mpr context

theorem vlstm_hides {stored seen : Cpu} (secure : cpu.secure = true) (quiet : cpu.Quiet)
    (ts : cpu.ts = true) (done : cpu.v8mVlstm F address = .done stored)
    (keeps : KeepsFp stored last) (saved : last.fpLspSaveToStack F = .done seen) :
    seen.s = (fun _ => 0) ∧ seen.fpscr = 0 ∧ seen.vpr = 0 := by
  cases lazy : cpu.lspen with
  | true =>
    rw [vlstm_lazy lazy] at done
    cases done
    rw [save_pending ((vlstm_pending secure quiet).congr keeps) saved, keeps.ts]
    show (Cpu.invalidateVfpRegs _ cpu.ts).s = _ ∧ (Cpu.invalidateVfpRegs _ cpu.ts).fpscr = _ ∧
      (Cpu.invalidateVfpRegs _ cpu.ts).vpr = _
    rw [ts]
    exact ⟨rfl, rfl, rfl⟩
  | false =>
    have state := vlstm_eager lazy done
    rw [ts] at state
    have after : last.Quiet := by
      intro bank
      rw [keeps.lspact, state]
      exact quiet bank
    rw [save_quiet after saved, keeps.s, keeps.fpscr, keeps.vpr, state]
    exact ⟨rfl, rfl, rfl⟩

theorem save_granted {frame : FpFrame} (pending : frame.Pending F cpu)
    (granted : cpu.getPhysAddr = fun _ _ _ _ => .success) :
    cpu.fpLspSaveToStack F =
      .done ((cpu.stored frame).invalidateVfpRegs (frame.bank && cpu.ts)) := by
  have needed : cpu.needFpLazyStatePreservation = true := by
    unfold Cpu.needFpLazyStatePreservation
    rw [pending.owner]
    exact pending.active
  have fine : (cpu.lazyStores F).2 = false := lspStoreAll_granted granted
  have saved : cpu.fpLspSaveToStack F =
      .done ((cpu.lazyStores F).1.invalidateVfpRegs (cpu.fpccrS && cpu.ts)) := by
    unfold Cpu.fpLspSaveToStack
    rw [if_pos needed, fine]
    rfl
  rw [saved, save_pending pending saved]

theorem invalidateVfpRegs_writeFp (cpu : Cpu) (shouldClear : Bool) (s : Fin 32 → Word)
    (fpscr vpr : Word) :
    (cpu.invalidateVfpRegs shouldClear).writeFp s fpscr vpr = cpu.writeFp s fpscr vpr := by
  unfold Cpu.invalidateVfpRegs
  split <;> rfl

theorem FpFrame.Pending.stores {frame : FpFrame} {frames : Word → Prop} {m : Memory 32}
    (pending : frame.Pending F cpu) (inside : ∀ b, frames b → frame.Contains b)
    (holds : Holds m frame.base frame.words) :
    ∃ last, Activity F E frames cpu last ∧ last.secure = cpu.secure ∧ last.ts = cpu.ts ∧
      last.Quiet ∧ last.memory = m ∧ last.getPhysAddr = fun _ _ _ _ => .success := by
  let granting : Cpu := { cpu with getPhysAddr := fun _ _ _ _ => .success }
  have keeps : KeepsFp cpu granting := ⟨rfl, rfl, rfl, rfl, rfl, rfl, rfl, fun _ => rfl⟩
  have saved : Activity F E frames cpu
      ((granting.stored frame).writeFp cpu.s cpu.fpscr cpu.vpr) := by
    rw [← invalidateVfpRegs_writeFp _ (frame.bank && granting.ts)]
    exact .withoutContext (.code (.start _ _) ⟨keeps, Agree.refl _ _⟩)
      (save_granted (pending.congr keeps) rfl) _ _ _
  have few := frame.small
  have words : Holds (granting.stored frame).memory frame.base frame.words :=
    storeAll_holds (by omega) (by decide)
  have run : Activity F E frames cpu
      (((granting.stored frame).writeFp cpu.s cpu.fpscr cpu.vpr).setMemory m) := by
    apply saved.code
    refine ⟨⟨rfl, rfl, rfl, rfl, rfl, rfl, rfl, fun _ => rfl⟩, ?_⟩
    exact (words.agree holds).mono inside
  have same : ((granting.stored frame).writeFp cpu.s cpu.fpscr cpu.vpr).setMemory m =
      { cpu.clearLspact with memory := m, getPhysAddr := fun _ _ _ _ => .success } := rfl
  rw [same] at run
  exact ⟨_, run, rfl, rfl, fun _ => rfl, rfl, rfl⟩

theorem readable_of_restores (v8 : F.v8 = true) (secure : cpu.secure = true)
    (quiet : cpu.Quiet) (keeps : KeepsContext F E cpu address) :
    cpu.ContextReadable F address := by
  refine ⟨quiet _, fun lazy m holds => ?_⟩
  have inside : ∀ b, cpu.SavedArea F address b → (cpu.vlstmFrame F address).Contains b := by
    intro b area
    unfold Cpu.SavedArea at area
    rw [if_pos lazy] at area
    exact area
  obtain ⟨last, run, state, ts, after, memory, granted⟩ :=
    (vlstm_pending secure quiet).stores (E := E) inside holds
  obtain ⟨loaded, loads⟩ := vlldm_granted address (after true) granted
  rw [← memory]
  apply (vlldm_same_iff v8 secure ts (after true) loads).mp
  exact keeps.restores _ _ _ _ (vlstm_lazy lazy) (fun _ => id) run
    (state.trans secure) loads

/-- The context is kept exactly when nothing was pending and it can be read back. -/
theorem keepsContext_iff (trustzone : F.hasTrustzone = true) (secure : cpu.secure = true)
    (owner : cpu.OwnerPends) :
    KeepsContext F E cpu address ↔ cpu.ContextReadable F address := by
  have v8 := F.v8_of_trustzone trustzone
  constructor
  · intro keeps
    have reports := keeps.reports
    rw [vlstmLserr_never] at reports
    have clear : (cpu.fpccr cpu.fpccrS).lspact = false :=
      Bool.eq_false_iff.mpr fun active => Bool.false_ne_true (reports.mpr active)
    exact readable_of_restores v8 secure (owner.quiet clear) keeps
  · intro readable
    have quiet := owner.quiet readable.1
    constructor
    · intro stored frames last loaded done area run _ loads
      exact vlstm_restores v8 secure quiet readable done area run loads
    · intro stored last seen ts done keeps saved
      exact vlstm_hides secure quiet ts done keeps saved
    · rw [vlstmLserr_never, readable.1]

theorem readable_of_aligned (v8 : F.v8 = true) (aligned : DoubleAligned address)
    (clear : (cpu.fpccr cpu.fpccrS).lspact = false) : cpu.ContextReadable F address := by
  refine ⟨clear, fun _ m holds => ?_⟩
  unfold lazyPlace at holds
  rw [aligned.masked] at holds
  exact contextAt_of_lazyWords v8 holds

theorem keepsContext_atRest : KeepsContext .v8m allNonSecure (Cpu.atRest true) 0x1000#32 := by
  apply (keepsContext_iff rfl rfl _).mpr
  · exact readable_of_aligned rfl (by decide) rfl
  · intro bank active
    cases active

/-- A Secure state with a context of its own that is still pending. -/
def Cpu.owing : Cpu :=
  { Cpu.atRest true with
    fpccrS := true
    fpccr := setBank (Cpu.atRest true).fpccr true
      { (Cpu.atRest true).fpccr true with lspact := true } }

/-- `VLSTM` does not report the context that is pending. -/
theorem pending_unreported : Cpu.owing.OwnerPends ∧ Cpu.owing.needFpLazyStatePreservation = true ∧
      Cpu.owing.vlstmLserr = false ∧
      ¬ KeepsContext .v8m allNonSecure Cpu.owing 0x1000#32 := by
  refine ⟨?_, rfl, rfl, ?_⟩
  · intro bank active
    cases bank with
    | true => rfl
    | false => cases active
  · intro keeps
    have reported : Cpu.owing.vlstmLserr = true := keeps.reports.mpr rfl
    cases reported

end Tlib.CortexM
