import Tlib.Library.FirstMatch
import Tlib.Riscv.PmpWrites

/-!
Contract: the cached bounds of PMP entries against the registers they come from.

Owns: the value of the preceding address register that each cached start still stands for.
-/

namespace Tlib.Riscv

open Tlib.Library.FirstMatch Option
open Tlib.Softmmu

/-- The bounds that `pmp_update_rule` caches for these registers. -/
def cachedAddr (H : PmpHart) (aField : PmpAmatch) (prevAddr thisAddr : Nat) : PmpAddr :=
  { sa := (ruleBounds H aField prevAddr thisAddr).1 &&& H.pmpAddrMask
    ea := (ruleBounds H aField prevAddr thisAddr).2 &&& H.pmpAddrMask }

/-- The bounds that `pmp_update_rule` would compute for the entry now. -/
def PmpState.ruleAddr (H : PmpHart) (s : PmpState) (index : Nat) : PmpAddr :=
  cachedAddr H (s.pmp index).aField (s.prevAddr index) (s.pmp index).addrReg

/-- Every cached range is up to date, and so is the number of rules. -/
structure Coherent (H : PmpHart) (s : PmpState) : Prop where
  addr : ∀ index < H.pmpEntryCount, s.addr index = s.ruleAddr H index
  numRules : s.numRules = countRules H s

/-- The write makes `pmp_update_rule` run for the entry. -/
def updatesRule (H : PmpHart) (s : PmpState) (w : CsrWrite) (index : Nat) : Bool :=
  match w with
  | .pmpcfg regIndex val =>
    (List.range (H.longBits / 8)).any fun i =>
      index = baseOffset H regIndex + i && takesByte H s index (cfgVal val i)
  | .pmpaddr addrIndex _ => index = addrIndex && !writeIgnored H s addrIndex
  | .mseccfg _ => false

/-- For each entry the preceding address register at the latest update of its rule. -/
abbrev RuleStarts := Nat → Option Nat

def RuleStarts.after (H : PmpHart) (s : PmpState) (w : CsrWrite) (starts : RuleStarts) :
    RuleStarts :=
  fun index => if updatesRule H s w index then some (s.prevAddr index) else starts index

/-- Runs of writes to the PMP registers since reset, with the cached starts. -/
inductive PmpRun (H : PmpHart) : RuleStarts → PmpState → Prop
  | reset : PmpRun H (fun _ => none) pmpReset
  | write {starts : RuleStarts} {s s' : PmpState} {w : CsrWrite} : PmpRun H starts s →
      applyWrite H s w = some s' → PmpRun H (starts.after H s w) s'

section Tracking

variable {H : PmpHart} {s s' : PmpState} {starts starts' : RuleStarts} {index : Nat}

/-- A cached range is made of the entry's own registers and the recorded start. -/
structure Tracked (H : PmpHart) (starts : RuleStarts) (s : PmpState) : Prop where
  numRules : s.numRules = countRules H s
  untouched : ∀ index, starts index = none →
    s.addr index = { sa := 0, ea := 0 } ∧ (s.pmp index).aField = .off
  cached : ∀ index start, starts index = some start →
    s.addr index = cachedAddr H (s.pmp index).aField start (s.pmp index).addrReg

theorem Tracked.congr (tracked : Tracked H starts s) (same : ∀ index, starts' index = starts index) :
    Tracked H starts' s := by
  have eq : starts' = starts := funext same
  rw [eq]
  exact tracked

theorem Tracked.update (tracked : Tracked H starts s) (entry : PmpEntry) :
    Tracked H (Function.update starts index (some (s.prevAddr index)))
      (pmpUpdateRule H (s.setEntry index entry) index) where
  numRules := rfl
  untouched := by
    intro other none'
    have ne : other ≠ index := by
      intro same
      rw [same, Function.update_self] at none'
      cases none'
    rw [Function.update_of_ne ne] at none'
    obtain ⟨addr, off⟩ := tracked.untouched other none'
    unfold pmpUpdateRule
    dsimp only
    rw [Function.update_of_ne ne, s.setEntry_of_ne entry ne]
    exact ⟨addr, off⟩
  cached := by
    intro other start recorded
    unfold pmpUpdateRule
    dsimp only
    by_cases same : other = index
    · subst same
      rw [Function.update_self] at recorded
      have prev : (s.setEntry other entry).prevAddr other = s.prevAddr other := by
        unfold PmpState.prevAddr
        split
        · rw [s.setEntry_of_ne entry (by omega)]
        · rfl
      rw [Function.update_self, prev, some.inj recorded]
      rfl
    · rw [Function.update_of_ne same] at recorded
      rw [Function.update_of_ne same, s.setEntry_of_ne entry same]
      exact tracked.cached other start recorded

theorem tracked_pmpReset : Tracked H (fun _ => none) pmpReset where
  numRules := synced_pmpReset.numRules
  untouched _ _ := by
    simp [pmpReset, PmpEntry.aField, pmpGetAField]
  cached _ _ recorded := by cases recorded

theorem Tracked.pmpWriteCfg {val : Nat} (tracked : Tracked H starts s)
    (written : pmpWriteCfg H s index val = some s') :
    Tracked H (if takesByte H s index val then
      Function.update starts index (some (s.prevAddr index)) else starts) s' := by
  rcases pmpWriteCfg_cases written with ⟨taken, rfl⟩ | ⟨stored, taken, _, _, rfl⟩
  · rw [taken]
    exact tracked
  · rw [taken]
    exact tracked.update _

theorem SameButCfg.takesByte {other val : Nat} (same : SameButCfg s s' index)
    (behind : index < other) : takesByte H s' other val = takesByte H s other val := by
  unfold Riscv.takesByte pmpValidateConfiguration
  rw [same.writeIgnored behind, same.mseccfg]

theorem Tracked.pmpcfg_bytes {base val : Nat} (indices : List Nat)
    (ascending : indices.Pairwise (· < ·)) :
    ∀ {s : PmpState} {starts : RuleStarts}, Tracked H starts s →
      indices.foldlM (fun s i => Riscv.pmpWriteCfg H s (base + i) (cfgVal val i)) s = some s' →
      Tracked H (fun index =>
        if indices.any fun i => index = base + i && Riscv.takesByte H s index (cfgVal val i)
        then some (s.prevAddr index) else starts index) s' := by
  induction indices with
  | nil =>
    intro s starts tracked done
    cases done
    exact tracked.congr fun _ => by simp
  | cons i rest ih =>
    intro s starts tracked done
    obtain ⟨middle, first, later⟩ := bind_eq_some_iff.mp done
    rw [List.pairwise_cons] at ascending
    have same := pmpWriteCfg_same first
    refine (ih ascending.2 (tracked.pmpWriteCfg first) later).congr ?_
    intro index
    have byteLater : (rest.any fun j => index = base + j &&
          Riscv.takesByte H middle index (cfgVal val j)) =
        rest.any fun j => index = base + j && Riscv.takesByte H s index (cfgVal val j) := by
      rw [Bool.eq_iff_iff, List.any_eq_true, List.any_eq_true]
      refine exists_congr fun j => and_congr_right fun member => ?_
      by_cases here : index = base + j
      · have behind : base + i < base + j := Nat.add_lt_add_left (ascending.1 j member) base
        rw [here, same.takesByte behind]
      · simp [here]
    rw [List.any_cons, byteLater, same.prevAddr]
    by_cases taken : rest.any fun j =>
        index = base + j && Riscv.takesByte H s index (cfgVal val j)
    · simp [taken]
    · by_cases here : index = base + i
      · subst here
        cases byte : Riscv.takesByte H s (base + i) (cfgVal val i) <;> simp
      · cases byte : Riscv.takesByte H s (base + i) (cfgVal val i) <;> simp [here]

theorem Tracked.applyWrite {w : CsrWrite} (tracked : Tracked H starts s)
    (written : applyWrite H s w = some s') : Tracked H (starts.after H s w) s' := by
  cases w with
  | pmpcfg regIndex val =>
    change pmpcfgCsrWrite H s regIndex val = some s' at written
    unfold pmpcfgCsrWrite at written
    split at written
    · cases written
    · split at written
      · cases written
      · exact tracked.pmpcfg_bytes _ List.pairwise_lt_range written
  | pmpaddr addrIndex val =>
    change pmpaddrCsrWrite H s addrIndex val = some s' at written
    unfold pmpaddrCsrWrite at written
    split at written
    · cases written
    · split at written
      next ignored =>
        have closed : writeIgnored H s addrIndex = true := ignored
        rw [← some.inj written]
        exact tracked.congr fun index => by simp [RuleStarts.after, updatesRule, closed]
      next taken =>
        have open' : writeIgnored H s addrIndex = false := by simpa [writeIgnored] using taken
        rw [← some.inj written]
        refine (tracked.update _).congr fun index => ?_
        by_cases here : index = addrIndex
        · subst here
          simp [RuleStarts.after, updatesRule, open']
        · simp [RuleStarts.after, updatesRule, here]
  | mseccfg val =>
    change mseccfgCsrWrite H s val = some s' at written
    unfold mseccfgCsrWrite at written
    split at written
    · rw [← some.inj written]
      exact ⟨tracked.numRules, tracked.untouched, tracked.cached⟩
    · cases written

theorem PmpRun.tracked (run : PmpRun H starts s) : Tracked H starts s := by
  induction run with
  | reset => exact tracked_pmpReset
  | write _ written ih => exact ih.applyWrite written

theorem cachedAddr_eq_iff {aField : PmpAmatch} {start prevAddr thisAddr : Nat} :
    cachedAddr H aField start thisAddr = cachedAddr H aField prevAddr thisAddr ↔
      (aField = .tor → 4 * start % H.addressSpace = 4 * prevAddr % H.addressSpace) := by
  cases aField with
  | off => simp [cachedAddr, ruleBounds]
  | na4 => simp [cachedAddr, ruleBounds]
  | napot => simp [cachedAddr, ruleBounds]
  | tor =>
    simp [cachedAddr, ruleBounds, PmpHart.shiftLeft_two, PmpHart.and_pmpAddrMask, PmpHart.toUlong_mod]

theorem ruleAddr_ne_of_off (off : (s.pmp index).aField = .off) :
    ({ sa := 0, ea := 0 } : PmpAddr) ≠ s.ruleAddr H index := by
  have whole : H.allOnes &&& H.pmpAddrMask = H.pmpAddrMask := by
    unfold PmpHart.allOnes PmpHart.pmpAddrMask
    rw [Nat.and_comm, Nat.and_two_pow_sub_one_eq_mod]
    refine Nat.mod_eq_of_lt ?_
    have := Nat.two_pow_pos H.pmpaddrBits
    have := Nat.pow_le_pow_right (n := 2) (by decide) H.pmpaddrBits_le
    omega
  have positive : 0 < H.pmpAddrMask := by
    have := Nat.pow_le_pow_right (n := 2) (by decide) H.pmpaddrBits_pos
    unfold PmpHart.pmpAddrMask
    omega
  unfold PmpState.ruleAddr cachedAddr
  rw [off]
  intro same
  have last : 0 = H.allOnes &&& H.pmpAddrMask := congrArg PmpAddr.ea same
  omega

/-- After any run of writes the cached ranges and the number of rules are the ones
`pmp_update_rule` would compute exactly if every rule has been updated and the
address register before each TOR entry is, where it counts, the one of that update. -/
theorem coherent_iff_starts (run : PmpRun H starts s) :
    Coherent H s ↔ ∀ index < H.pmpEntryCount, ∃ start, starts index = some start ∧
      ((s.pmp index).aField = .tor →
        4 * start % H.addressSpace = 4 * s.prevAddr index % H.addressSpace) := by
  have tracked := run.tracked
  constructor
  · intro coherent index less
    have same := coherent.addr index less
    cases recorded : starts index with
    | none =>
      obtain ⟨empty, off⟩ := tracked.untouched index recorded
      rw [empty] at same
      exact absurd same (ruleAddr_ne_of_off off)
    | some start =>
      rw [tracked.cached index start recorded] at same
      exact ⟨start, rfl, cachedAddr_eq_iff.mp same⟩
  · intro starts
    refine ⟨?_, tracked.numRules⟩
    intro index less
    obtain ⟨start, recorded, same⟩ := starts index less
    rw [tracked.cached index start recorded]
    exact cachedAddr_eq_iff.mpr same

end Tracking

def applyWrites (H : PmpHart) :
    List CsrWrite → RuleStarts → PmpState → Option (RuleStarts × PmpState)
  | [], starts, s => some (starts, s)
  | w :: rest, starts, s =>
    (applyWrite H s w).bind fun s' => applyWrites H rest (starts.after H s w) s'

theorem PmpRun.applyWrites {H : PmpHart} {starts' : RuleStarts} {s' : PmpState}
    (writes : List CsrWrite) :
    ∀ {starts : RuleStarts} {s : PmpState}, PmpRun H starts s →
      Riscv.applyWrites H writes starts s = some (starts', s') → PmpRun H starts' s' := by
  induction writes with
  | nil =>
    intro starts s run done
    cases done
    exact run
  | cons w rest ih =>
    intro starts s run done
    obtain ⟨middle, first, later⟩ := bind_eq_some_iff.mp done
    exact ih (run.write first) later

def runOf (writes : List CsrWrite) : RuleStarts × PmpState :=
  (applyWrites sampleHart writes (fun _ => none) pmpReset).getD (fun _ => none, pmpReset)

theorem pmpRun_runOf {writes : List CsrWrite}
    (accepted : (applyWrites sampleHart writes (fun _ => none) pmpReset).isSome = true) :
    PmpRun sampleHart (runOf writes).1 (runOf writes).2 := by
  refine PmpRun.reset.applyWrites writes ?_
  obtain ⟨reached, done⟩ := isSome_iff_exists.mp accepted
  unfold runOf
  rw [done]
  rfl

/-- Entry 1 ends at `0x1000`, and starts where entry 0 says. -/
def torLast : List CsrWrite := [.pmpaddr 0 0x100, .pmpaddr 1 0x400, .pmpcfg 0 0x0900, .pmpcfg 2 0]

def torFirst : List CsrWrite := [.pmpaddr 1 0x400, .pmpcfg 0 0x0900, .pmpcfg 2 0, .pmpaddr 0 0x100]

theorem coherent_iff_starts_sample : Coherent sampleHart (runOf torLast).2 ↔
      ∀ index < sampleHart.pmpEntryCount, ∃ start, (runOf torLast).1 index = some start ∧
        (((runOf torLast).2.pmp index).aField = .tor → 4 * start % sampleHart.addressSpace =
            4 * (runOf torLast).2.prevAddr index % sampleHart.addressSpace) :=
  coherent_iff_starts (pmpRun_runOf (by decide))

/-- The same registers, written in two orders, with different ranges in force. -/
theorem coherent_breaks_by_order : PmpRun sampleHart (runOf torFirst).1 (runOf torFirst).2 ∧
      ¬ Coherent sampleHart (runOf torFirst).2 ∧
      (∀ index < 2, (runOf torFirst).2.pmp index = (runOf torLast).2.pmp index) ∧
      (runOf torFirst).2.addr 1 = { sa := 0, ea := 0xFFF } ∧
      (runOf torLast).2.addr 1 = { sa := 0x400, ea := 0xFFF } := by
  have stale : (runOf torFirst).2.addr 1 = { sa := 0, ea := 0xFFF } := by decide
  have last : (runOf torLast).2.addr 1 = { sa := 0x400, ea := 0xFFF } := by decide
  refine ⟨pmpRun_runOf (by decide), ?_, by decide, stale, last⟩
  intro coherent
  have same := coherent.addr 1 (by decide)
  cases same

end Tlib.Riscv
