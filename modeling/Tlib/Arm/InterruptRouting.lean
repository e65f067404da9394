import Mathlib.Tactic.SplitIfs

/-!
Contract: which interrupts the 64-bit core takes, and at which exception level.

Owns: the table of targets with its masks, `process_interrupt_v8a_aarch64` with the aborts on its
way, and what the architecture asks of a choice. Does not own: the entry into the handler.
-/

namespace Tlib.Arm.InterruptRouting

structure Scr where
  (ns eel2 ea irq fiq rw nmea : Bool)

structure Hcr where
  (tge amo imo fmo e2h rw : Bool)

def Scr.bits (scr : Scr) : List Bool := [scr.ns, scr.eel2, scr.ea, scr.irq, scr.fiq, scr.rw]

def Hcr.bits (hcr : Hcr) : List Bool := [hcr.tge, hcr.amo, hcr.imo, hcr.fmo, hcr.e2h, hcr.rw]

/-! ### The table of targets -/

inductive Target where
  | el (el : Nat)
  | ignored
  | abort
  deriving DecidableEq

/-- A test of both registers, and the target for each current EL; `none` stands for `-1`. -/
structure Row where
  (scr hcr : List (Option Bool))
  targets : List Target

/-- `check_scr_el3` and `check_hcr_el2` -/
def check (pattern : List (Option Bool)) (bits : List Bool) : Bool :=
  (pattern.zip bits).all fun field => field.1.all (· == field.2)

section

open Target

local instance bitClear : OfNat (Option Bool) 0 := ⟨some false⟩
local instance bitSet : OfNat (Option Bool) 1 := ⟨some true⟩

def rows : List Row :=
  let x : Option Bool := none
  let never := [ignored, ignored, ignored, ignored]
  [⟨[0, 0, 0, 0, 0, 0], [], [ignored, ignored, abort, ignored]⟩,
    ⟨[0, 0, 0, 0, 0, 1], [], [el 1, el 1, abort, ignored]⟩,
    ⟨[0, 0, 1, 1, 1, x], [], [el 3, el 3, abort, el 3]⟩,
    ⟨[0, 1, 0, 0, 0, x], [0, 0, 0, 0, 0, 0], never⟩,
    ⟨[0, 1, 0, 0, 0, x], [0, 0, 0, 0, 0, 1], [el 1, el 1, ignored, ignored]⟩,
    ⟨[0, 1, 0, 0, 0, x], [0, 0, 0, 0, 1, x], [el 1, el 1, ignored, ignored]⟩,
    ⟨[0, 1, 0, 0, 0, x], [0, 1, 1, 1, x, x], [el 2, el 2, el 2, ignored]⟩,
    ⟨[0, 1, 0, 0, 0, x], [1, x, x, x, x, x], [el 2, abort, el 2, ignored]⟩,
    ⟨[0, 1, 1, 1, 1, x], [0, x, x, x, x, x], [el 3, el 3, el 3, el 3]⟩,
    ⟨[0, 1, 1, 1, 1, x], [1, x, x, x, x, x], [el 3, abort, el 3, el 3]⟩,
    ⟨[1, x, 0, 0, 0, 0], [0, 0, 0, 0, x, x], never⟩,
    ⟨[1, x, 0, 0, 0, 0], [0, 1, 1, 1, x, x], never⟩,
    ⟨[1, x, 0, 0, 0, 0], [1, x, x, x, x, x], [ignored, abort, ignored, ignored]⟩,
    ⟨[1, x, 0, 0, 0, 1], [0, 0, 0, 0, 0, 0], never⟩,
    ⟨[1, x, 0, 0, 0, 1], [0, 0, 0, 0, 0, 1], [el 1, el 1, ignored, ignored]⟩,
    ⟨[1, x, 0, 0, 0, 1], [0, 0, 0, 0, 1, x], [el 1, el 1, ignored, ignored]⟩,
    ⟨[1, x, 0, 0, 0, 1], [0, 1, 1, 1, x, x], [el 2, el 2, el 2, ignored]⟩,
    ⟨[1, x, 0, 0, 0, 1], [1, x, x, x, x, x], [el 2, abort, el 2, ignored]⟩,
    ⟨[1, x, 1, 1, 1, x], [0, x, x, x, x, x], [el 3, el 3, el 3, el 3]⟩,
    ⟨[1, x, 1, 1, 1, x], [1, x, x, x, x, x], [el 3, abort, el 3, el 3]⟩,
    ⟨[1, x, 1, 0, 0, x], [], never⟩]

end

def establishInterruptsTargetEl (currentEl : Nat) (scr : Scr) (hcr : Hcr) : Target :=
  match rows.find? fun row => check row.scr scr.bits && check row.hcr hcr.bits with
  | some row => row.targets.getD currentEl .abort
  | none => .abort

/-! ### The core -/

structure Core where
  (hasEl2 hasEl3 vhe : Bool)
  scr : Scr
  hcr : Hcr
  currentEl : Nat
  (pstateA pstateI pstateF pstateSp pstateAllint : Bool)
  (sctlrNmi sctlrSpintmask : Nat → Bool)
  (vfnmi vinmi : Bool)

inductive Interrupt where
  | fiq
  | irq
  | vfiq
  | virq
  | vserr
  deriving DecidableEq

inductive Outcome where
  | abort
  | notTaken
  | taken (interrupt : Interrupt) (targetEl : Nat)
  deriving DecidableEq

def interruptMasked (pstateMaskBit sctlrNmi allintmask superpriority : Bool) : Bool :=
  if pstateMaskBit then !sctlrNmi || allintmask || !superpriority else sctlrNmi && allintmask

namespace Core

variable (core : Core)

def isEl2Enabled : Bool :=
  core.hasEl2 && (!(core.hasEl3 && !core.scr.ns) || core.scr.eel2)

def scrEff : Scr :=
  if core.hasEl3 then core.scr else ⟨false, true, false, false, false, true, false⟩

/-- `arm_hcr_el2_eff`, and what stands for it without EL2. -/
def hcrEff : Hcr :=
  if core.isEl2Enabled then
    if core.vhe && core.hcr.tge && core.hcr.e2h then
      { core.hcr with amo := false, fmo := false, imo := false, rw := true }
    else if core.hcr.tge then { core.hcr with amo := true, fmo := true, imo := true }
    else core.hcr
  else ⟨false, false, false, false, false, core.scrEff.rw⟩

def masked (bit : Bool) (targetEl : Nat) (superpriority ignorePstateAif : Bool) : Bool :=
  interruptMasked (bit && !ignorePstateAif) (core.sctlrNmi targetEl)
    (core.pstateAllint || (core.pstateSp && core.sctlrSpintmask targetEl)) superpriority

def irqMasked : Nat → Bool → Bool → Bool := core.masked core.pstateI

def fiqMasked : Nat → Bool → Bool → Bool := core.masked core.pstateF

def ignorePstateAif (targetEl : Nat) : Bool :=
  decide (core.currentEl < targetEl) &&
    (targetEl == 3 || (targetEl == 2 && !(core.hcrEff.e2h && core.hcrEff.tge)))

/-- `do_interrupt` for a target in AArch64 state: it has no entry for a virtual SError. -/
def doInterrupt (interrupt : Interrupt) (targetEl : Nat) : Outcome :=
  if targetEl < core.currentEl ∨ targetEl = 0 then .abort
  else if interrupt = .vserr then .abort
  else .taken interrupt targetEl

/-- The branches for VFIQ and VIRQ. -/
def processVirtual (targetEl : Nat) (interrupt : Interrupt) (masked : Bool) : Outcome :=
  if 1 < core.currentEl then .notTaken
  else if targetEl ≠ 1 then .abort
  else if targetEl == core.currentEl && masked then .notTaken
  else core.doInterrupt interrupt targetEl

def vserrMasked (targetEl : Nat) : Bool :=
  if targetEl = core.currentEl then !core.scrEff.nmea && !core.pstateA
  else core.irqMasked targetEl false (core.ignorePstateAif targetEl)

def processInterruptV8aAarch64 (request : Interrupt → Bool) : Outcome :=
  match establishInterruptsTargetEl core.currentEl core.scrEff core.hcrEff with
  | .abort => .abort
  | .ignored => .notTaken
  | .el targetEl =>
    if targetEl < core.currentEl then .notTaken
    else if request .fiq then
      if core.fiqMasked targetEl false (core.ignorePstateAif targetEl) then .notTaken
      else core.doInterrupt .fiq targetEl
    else if request .irq then
      if core.irqMasked targetEl false (core.ignorePstateAif targetEl) then .notTaken
      else core.doInterrupt .irq targetEl
    else if request .vfiq then
      core.processVirtual targetEl .vfiq (core.fiqMasked targetEl core.vfnmi false)
    else if request .virq then
      core.processVirtual targetEl .virq (core.irqMasked targetEl core.vinmi false)
    else if request .vserr then
      if core.vserrMasked targetEl then .notTaken else core.doInterrupt .vserr targetEl
    else .notTaken

/-! ### What the architecture asks -/

/-- The target of a physical interrupt by its own bits of both registers and TGE. -/
def routed (scr hcr tge : Bool) : Nat := if scr then 3 else if tge || hcr then 2 else 1

def targetEl : Interrupt → Nat
  | .fiq => routed core.scrEff.fiq core.hcrEff.fmo core.hcrEff.tge
  | .irq => routed core.scrEff.irq core.hcrEff.imo core.hcrEff.tge
  | _ => 1

/-- A virtual interrupt can be taken, if it is not masked. -/
def isVirtual (hcr : Bool) : Bool := decide (core.currentEl ≤ 1) && hcr && !core.hcrEff.tge

/-- The interrupt is one to be taken; the masks are those of its own target. -/
def due (interrupt : Interrupt) : Bool :=
  let target := core.targetEl interrupt
  match interrupt with
  | .fiq => decide (core.currentEl ≤ target) &&
      !core.fiqMasked target false (core.ignorePstateAif target)
  | .irq => decide (core.currentEl ≤ target) &&
      !core.irqMasked target false (core.ignorePstateAif target)
  | .vfiq => core.isVirtual core.hcrEff.fmo && !core.fiqMasked 1 core.vfnmi false
  | .virq => core.isVirtual core.hcrEff.imo && !core.irqMasked 1 core.vinmi false
  | .vserr => core.isVirtual core.hcrEff.amo && !core.pstateA

/-- An interrupt that is due is taken where there is one, at its own target. -/
def Sound (request : Interrupt → Bool) : Outcome → Prop
  | .abort => False
  | .notTaken => ∀ interrupt, request interrupt = true → core.due interrupt = false
  | .taken interrupt targetEl =>
    request interrupt = true ∧ core.due interrupt = true ∧ targetEl = core.targetEl interrupt

/-- The lower levels are in AArch64 state, and the current one can be entered. -/
structure Reachable : Prop where
  scr : core.scrEff.rw = true
  hcr : core.hcrEff.rw = true
  le : core.currentEl ≤ 3
  el1 : core.currentEl = 1 → core.hcrEff.tge = false
  el2 : core.currentEl = 2 → core.isEl2Enabled = true

end Core

/-- The three types of interrupts are routed alike. -/
def uniform (scr : Scr) (hcr : Hcr) : Bool :=
  scr.ea == scr.irq && scr.irq == scr.fiq &&
    (scr.irq || hcr.tge || (hcr.amo == hcr.imo && hcr.imo == hcr.fmo))

/-- The setting of the last row. -/
def onlyEa (scr : Scr) : Bool := scr.ns && scr.ea && !scr.irq && !scr.fiq

set_option synthInstance.maxSize 512 in
theorem rows_eq : ∀ ns eel2 ea irq fiq tge amo imo fmo e2h : Bool, ∀ el < 4,
    (el = 1 → tge = false) → (el = 2 → (ns || eel2) = true) →
    ((ns || eel2) = false → (tge || amo || imo || fmo) = false) →
    establishInterruptsTargetEl el ⟨ns, eel2, ea, irq, fiq, true, false⟩
        ⟨tge, amo, imo, fmo, e2h, true⟩ =
      if uniform ⟨ns, eel2, ea, irq, fiq, true, false⟩ ⟨tge, amo, imo, fmo, e2h, true⟩ then
        if Core.routed irq imo tge < el then .ignored else .el (Core.routed irq imo tge)
      else if onlyEa ⟨ns, eel2, ea, irq, fiq, true, false⟩ then .ignored else .abort := by
  decide +kernel

namespace Core

variable {core : Core} {request : Interrupt → Bool}

theorem establish_eq (reach : core.Reachable) :
    establishInterruptsTargetEl core.currentEl core.scrEff core.hcrEff =
      if uniform core.scrEff core.hcrEff then
        if core.targetEl .irq < core.currentEl then .ignored else .el (core.targetEl .irq)
      else if onlyEa core.scrEff then .ignored else .abort := by
  have usable : core.isEl2Enabled = true → (core.scrEff.ns || core.scrEff.eel2) = true := by
    unfold isEl2Enabled scrEff
    cases core.hasEl3 <;> simp
  have off : core.isEl2Enabled = false →
      (core.hcrEff.tge || core.hcrEff.amo || core.hcrEff.imo || core.hcrEff.fmo) = false := by
    intro off
    simp [hcrEff, off]
  have small := reach.le
  obtain ⟨scr, hcr, -, el1, el2⟩ := reach
  unfold targetEl
  revert scr hcr el1 usable off
  rcases core.scrEff with ⟨ns, eel2, ea, irq, fiq, rw, nmea⟩
  rcases core.hcrEff with ⟨tge, amo, imo, fmo, e2h, rw'⟩
  rintro usable off rfl rfl el1
  refine rows_eq ns eel2 ea irq fiq tge amo imo fmo e2h core.currentEl (by omega) el1
    (usable ∘ el2) fun unusable => off ?_
  exact Bool.eq_false_iff.mpr fun on => Bool.false_ne_true (unusable.symm.trans (usable on))

theorem routed_pos (scr hcr tge : Bool) : 1 ≤ routed scr hcr tge := by
  unfold routed
  split_ifs <;> decide

theorem doInterrupt_eq {interrupt : Interrupt} {target : Nat} (enters : interrupt ≠ .vserr)
    (reaches : core.currentEl ≤ target) (pos : 1 ≤ target) :
    core.doInterrupt interrupt target = .taken interrupt target := by
  unfold doInterrupt
  rw [if_neg (by omega), if_neg enters]

theorem doInterrupt_vserr (target : Nat) : core.doInterrupt .vserr target = .abort := by
  unfold doInterrupt
  rw [if_pos rfl, ite_self]

theorem targetEl_fiq (same : uniform core.scrEff core.hcrEff = true) :
    core.targetEl .fiq = core.targetEl .irq := by
  simp only [uniform, Bool.and_eq_true, beq_iff_eq, Bool.or_eq_true] at same
  obtain ⟨⟨-, fiq⟩, bits⟩ := same
  rcases bits with (irq | tge) | bits
  · simp [targetEl, routed, ← fiq, irq]
  · simp [targetEl, routed, ← fiq, tge]
  · simp [targetEl, routed, ← fiq, bits]

theorem due_virtual (same : uniform core.scrEff core.hcrEff = true)
    (quiet : 1 < core.currentEl ∨ core.targetEl .irq = 1) {interrupt : Interrupt}
    (notFiq : interrupt ≠ .fiq) (notIrq : interrupt ≠ .irq) : core.due interrupt = false := by
  have never : core.isVirtual core.hcrEff.fmo = false ∧ core.isVirtual core.hcrEff.imo = false ∧
      core.isVirtual core.hcrEff.amo = false := by
    unfold isVirtual
    rcases quiet with above | low
    · simp [Nat.not_le.mpr above]
    · simp only [targetEl, routed] at low
      simp only [uniform, Bool.and_eq_true, beq_iff_eq, Bool.or_eq_true] at same
      by_cases irq : core.scrEff.irq = true
      · rw [if_pos irq] at low
        cases low
      · rw [if_neg irq] at low
        by_cases route : (core.hcrEff.tge || core.hcrEff.imo) = true
        · rw [if_pos route] at low
          cases low
        · rw [Bool.or_eq_true, not_or, Bool.not_eq_true, Bool.not_eq_true] at route
          obtain ⟨amo, imo⟩ := same.2.resolve_left (not_or.mpr ⟨irq, by simp [route.1]⟩)
          simp [← imo, amo, route.2]
  cases interrupt <;> simp_all [due]

theorem due_below (same : uniform core.scrEff core.hcrEff = true)
    (below : core.targetEl .irq < core.currentEl) (interrupt : Interrupt) :
    core.due interrupt = false := by
  have above : 1 < core.currentEl := Nat.lt_of_le_of_lt (routed_pos _ _ _) below
  cases interrupt with
  | fiq => simp [due, targetEl_fiq same, Nat.not_le.mpr below]
  | irq => simp [due, Nat.not_le.mpr below]
  | vfiq | virq | vserr => exact due_virtual same (Or.inl above) (by decide) (by decide)

/-- The branches for VFIQ and VIRQ do no harm. -/
def VirtualQuiet (core : Core) (masked : Bool) : Prop :=
  1 < core.currentEl ∨ core.targetEl .irq = 1 ∧ core.currentEl = 1 ∧ masked = true

def NothingDue (core : Core) (request : Interrupt → Bool) : Prop :=
  ∀ interrupt, request interrupt = true → core.due interrupt = false

/-- The settings are uniform, and no other interrupt is due. -/
def Fits (core : Core) (request : Interrupt → Bool) : Prop :=
  if uniform core.scrEff core.hcrEff then
    if request .fiq then core.due .fiq = true ∨ core.NothingDue request
    else if request .irq then core.due .irq = true ∨ core.NothingDue request
    else if request .vfiq then core.VirtualQuiet (core.fiqMasked 1 core.vfnmi false)
    else if request .virq then core.VirtualQuiet (core.irqMasked 1 core.vinmi false)
    else if request .vserr then core.targetEl .irq < core.currentEl ∨
      core.vserrMasked (core.targetEl .irq) = true ∧ core.due .vserr = false
    else True
  else onlyEa core.scrEff = true ∧ core.NothingDue request

theorem processVirtual_sound_iff (same : uniform core.scrEff core.hcrEff = true)
    (notFiq : ¬request .fiq = true) (notIrq : ¬request .irq = true) {interrupt : Interrupt}
    (virtual : interrupt = .vfiq ∨ interrupt = .virq) (masked : Nat → Bool) :
    core.Sound request (core.processVirtual (core.targetEl .irq) interrupt
        (masked (core.targetEl .irq))) ↔ core.VirtualQuiet (masked 1) := by
  have none (quiet : 1 < core.currentEl ∨ core.targetEl .irq = 1) : core.NothingDue request := by
    intro other requested
    refine due_virtual same quiet ?_ ?_
    · rintro rfl
      exact notFiq requested
    · rintro rfl
      exact notIrq requested
  unfold processVirtual VirtualQuiet
  by_cases above : 1 < core.currentEl
  · rw [if_pos above]
    exact iff_of_true (none (Or.inl above)) (Or.inl above)
  rw [if_neg above, or_iff_right above]
  by_cases notEl1 : core.targetEl .irq = 1
  · rw [if_neg (not_not_intro notEl1), notEl1]
    by_cases quiet : (1 == core.currentEl && masked 1) = true
    · rw [if_pos quiet]
      rw [Bool.and_eq_true, beq_iff_eq] at quiet
      exact iff_of_true (none (Or.inr notEl1)) ⟨rfl, quiet.1.symm, quiet.2⟩
    · rw [if_neg quiet]
      refine iff_of_false (fun sound => ?_) fun fits => quiet (by simp [fits.2.1, fits.2.2])
      rw [doInterrupt_eq (by rintro rfl; simp at virtual) (Nat.not_lt.mp above) (Nat.le_refl 1)]
        at sound
      have due : core.due interrupt = true := sound.2.1
      rw [due_virtual same (Or.inr notEl1) (by rintro rfl; simp at virtual)
        (by rintro rfl; simp at virtual)] at due
      cases due
  · rw [if_pos notEl1]
    exact iff_of_false id fun fits => notEl1 fits.1

theorem physical_sound_iff {interrupt : Interrupt} {target : Nat} {masked : Bool}
    (requested : request interrupt = true) (due : core.due interrupt = !masked)
    (routes : target = core.targetEl interrupt) (physical : interrupt ≠ .vserr)
    (reaches : core.currentEl ≤ target) (pos : 1 ≤ target) :
    core.Sound request (if masked then .notTaken else core.doInterrupt interrupt target) ↔
      core.due interrupt = true ∨ core.NothingDue request := by
  rw [doInterrupt_eq physical reaches pos]
  cases masked with
  | true => simp [due, Sound, NothingDue]
  | false => simp [due, Sound, requested, routes]

theorem vserr_sound_iff (reaches : core.currentEl ≤ core.targetEl .irq) {masked : Bool}
    (only : ∀ interrupt, request interrupt = true ↔ interrupt = .vserr) :
    core.Sound request
        (if masked then .notTaken else core.doInterrupt .vserr (core.targetEl .irq)) ↔
      core.targetEl .irq < core.currentEl ∨ masked = true ∧ core.due .vserr = false := by
  rw [or_iff_right (Nat.not_lt.mpr reaches), doInterrupt_vserr]
  cases masked with
  | true => simp [Sound, only]
  | false => simp [Sound]

/-- The core does what the architecture asks exactly where the setting and the requests fit. -/
theorem processInterrupt_sound_iff (core : Core) (reach : core.Reachable)
    (request : Interrupt → Bool) :
    core.Sound request (core.processInterruptV8aAarch64 request) ↔ core.Fits request := by
  unfold processInterruptV8aAarch64 Fits
  rw [establish_eq reach]
  by_cases same : uniform core.scrEff core.hcrEff = true
  · rw [if_pos same, if_pos same]
    by_cases below : core.targetEl .irq < core.currentEl
    · have none : core.NothingDue request := fun other _ => due_below same below other
      have above : 1 < core.currentEl := Nat.lt_of_le_of_lt (routed_pos _ _ _) below
      rw [if_pos below]
      refine iff_of_true none ?_
      simp [VirtualQuiet, none, above, below]
    · have reaches := Nat.not_lt.mp below
      rw [if_neg below]
      dsimp only
      rw [if_neg below]
      by_cases fiq : request .fiq = true
      · rw [if_pos fiq, if_pos fiq]
        exact physical_sound_iff fiq (by simp [due, targetEl_fiq same, reaches])
          (targetEl_fiq same).symm (by decide) reaches (routed_pos _ _ _)
      rw [if_neg fiq, if_neg fiq]
      by_cases irq : request .irq = true
      · rw [if_pos irq, if_pos irq]
        exact physical_sound_iff irq (by simp [due, reaches]) rfl (by decide) reaches
          (routed_pos _ _ _)
      rw [if_neg irq, if_neg irq]
      by_cases vfiq : request .vfiq = true
      · rw [if_pos vfiq, if_pos vfiq]
        exact processVirtual_sound_iff same fiq irq (by decide)
          (core.fiqMasked · core.vfnmi false)
      rw [if_neg vfiq, if_neg vfiq]
      by_cases virq : request .virq = true
      · rw [if_pos virq, if_pos virq]
        exact processVirtual_sound_iff same fiq irq (by decide)
          (core.irqMasked · core.vinmi false)
      rw [if_neg virq, if_neg virq]
      by_cases vserr : request .vserr = true
      · rw [if_pos vserr, if_pos vserr]
        refine vserr_sound_iff reaches fun interrupt => ?_
        cases interrupt <;> simp_all
      rw [if_neg vserr, if_neg vserr]
      refine iff_of_true (fun interrupt requested => ?_) trivial
      cases interrupt <;> contradiction
  · rw [if_neg same, if_neg same]
    cases onlyEa core.scrEff with
    | true => simp [Sound, NothingDue]
    | false => simp [Sound]

end Core

/-- A core in AArch64 state at EL1, with all masks clear. -/
def el1Core (scr : Scr) (hcr : Hcr) : Core :=
  ⟨true, true, true, scr, hcr, 1, false, false, false, false, false, fun _ => false,
    fun _ => false, false, false⟩

def ownRouting : Core :=
  el1Core ⟨true, false, false, false, false, true, false⟩ ⟨false, false, true, false, false, true⟩

def virtualInterrupts : Core :=
  el1Core ⟨true, false, false, false, false, true, false⟩ ⟨false, true, true, true, false, true⟩

theorem ownRouting_reachable : ownRouting.Reachable :=
  ⟨rfl, rfl, by decide, fun _ => rfl, by decide⟩

theorem virtualInterrupts_reachable : virtualInterrupts.Reachable :=
  ⟨rfl, rfl, by decide, fun _ => rfl, by decide⟩

/-- A physical IRQ with everything routed to EL2. -/
theorem processInterrupt_sound_iff_sample : virtualInterrupts.Sound (· == .irq)
    (virtualInterrupts.processInterruptV8aAarch64 (· == .irq)) :=
  (Core.processInterrupt_sound_iff virtualInterrupts virtualInterrupts_reachable _).mpr (Or.inl rfl)

/-- IRQ alone is routed to EL2, or a virtual IRQ is pending where physical ones are: an abort. -/
theorem routing_aborts : (ownRouting.Reachable ∧ ownRouting.due .irq = true ∧
      ownRouting.processInterruptV8aAarch64 (· == .irq) = .abort ∧
      ¬ownRouting.Sound (· == .irq) (ownRouting.processInterruptV8aAarch64 (· == .irq))) ∧
    virtualInterrupts.Reachable ∧ virtualInterrupts.due .virq = true ∧
    virtualInterrupts.processInterruptV8aAarch64 (· == .virq) = .abort :=
  ⟨⟨ownRouting_reachable, rfl, rfl, id⟩, virtualInterrupts_reachable, rfl, rfl⟩

end Tlib.Arm.InterruptRouting
