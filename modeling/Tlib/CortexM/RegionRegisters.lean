import Mathlib.Logic.Function.Basic
import Tlib.CortexM.State

/-!
Contract: the region registers of the v8-M protection unit as a board reaches them.

Owns: the calls for `RNR`, `RBAR` and `RLAR` with their aliases.
-/

namespace Tlib.CortexM

inductive RegionRegister where
  | rbar
  | rlar
  deriving DecidableEq, Repr

/-- `pmsav8` of one Security state, with arrays of `MAX_MPU_REGIONS`. -/
structure Pmsav8Bank where
  rnr : Word
  registers : RegionRegister → Fin 256 → Word

abbrev Pmsav8Banks := Bool → Pmsav8Bank

def Pmsav8Banks.reset : Pmsav8Banks := fun _ => ⟨0, fun _ _ => 0⟩

def element (index : Word) : Option (Fin 256) :=
  if inside : index.toNat < 256 then some ⟨index.toNat, inside⟩ else none

def Pmsav8Bank.index (bank : Pmsav8Bank) (regionOffset : Word) : Word :=
  if 0#32 < regionOffset then (bank.rnr <<< 2) + regionOffset else bank.rnr

/-- `RNR`, with its two low bits replaced by the number of the alias. -/
def Pmsav8Bank.named (bank : Pmsav8Bank) (regionOffset : Word) : Word :=
  if regionOffset = 0#32 then bank.rnr else (bank.rnr &&& ~~~3#32) + regionOffset

def Pmsav8Banks.setRegister (banks : Pmsav8Banks) (register : RegionRegister) (value : Word)
    (secure : Bool) (n : Fin 256) : Pmsav8Banks :=
  setBank banks secure
    { banks secure with
      registers := Function.update (banks secure).registers register
        (Function.update ((banks secure).registers register) n value) }

def tlibSetPmsav8Rnr (value : Word) (secure : Bool) (banks : Pmsav8Banks) : Pmsav8Banks :=
  if 256#32 < value then banks else setBank banks secure { banks secure with rnr := value }

def tlibSetPmsav8Rbar (value regionOffset : Word) (secure : Bool) (banks : Pmsav8Banks) :
    Option Pmsav8Banks :=
  (element ((banks secure).index regionOffset)).map (banks.setRegister .rbar value secure)

/-- The read of `rbar` for the log has the same index. -/
def tlibSetPmsav8Rlar (value regionOffset : Word) (secure : Bool) (banks : Pmsav8Banks) :
    Option Pmsav8Banks :=
  (element ((banks secure).index regionOffset)).map (banks.setRegister .rlar value secure)

def tlibGetPmsav8Rbar (regionOffset : Word) (secure : Bool) (banks : Pmsav8Banks) : Option Word :=
  (element ((banks secure).index regionOffset)).map ((banks secure).registers .rbar)

def tlibGetPmsav8Rlar (regionOffset : Word) (secure : Bool) (banks : Pmsav8Banks) : Option Word :=
  (element ((banks secure).index regionOffset)).map ((banks secure).registers .rlar)

inductive Pmsav8Call where
  | setRnr (value : Word) (secure : Bool)
  | set (register : RegionRegister) (value regionOffset : Word) (secure : Bool)
  | getRnr (secure : Bool)
  | get (register : RegionRegister) (regionOffset : Word) (secure : Bool)

/-- The state after the call and what it returns; `none` for an index out of bounds. -/
def Pmsav8Call.run (banks : Pmsav8Banks) : Pmsav8Call → Option (Pmsav8Banks × Word)
  | .setRnr value secure => some (tlibSetPmsav8Rnr value secure banks, 0)
  | .set .rbar value offset secure => (tlibSetPmsav8Rbar value offset secure banks).map (·, 0)
  | .set .rlar value offset secure => (tlibSetPmsav8Rlar value offset secure banks).map (·, 0)
  | .getRnr secure => some (banks, (banks secure).rnr)
  | .get .rbar offset secure => (tlibGetPmsav8Rbar offset secure banks).map (banks, ·)
  | .get .rlar offset secure => (tlibGetPmsav8Rlar offset secure banks).map (banks, ·)

/-- The same on the region that is named; there is no region 256. -/
def Pmsav8Call.specified (banks : Pmsav8Banks) : Pmsav8Call → Option (Pmsav8Banks × Word)
  | .setRnr value secure =>
    some (if value < 256#32 then setBank banks secure { banks secure with rnr := value }
      else banks, 0)
  | .set register value offset secure =>
    (element ((banks secure).named offset)).map fun n =>
      (banks.setRegister register value secure n, 0)
  | .getRnr secure => some (banks, (banks secure).rnr)
  | .get register offset secure =>
    (element ((banks secure).named offset)).map fun n =>
      (banks, (banks secure).registers register n)

/-- The aliases that there are. -/
def Pmsav8Call.HasAlias : Pmsav8Call → Prop
  | .set _ _ offset _ | .get _ offset _ => offset ≤ 3#32
  | _ => True

/-- `RNR` is not set to 256, and the other aliases are used for the first four regions only. -/
def Pmsav8Call.Meets (banks : Pmsav8Banks) : Pmsav8Call → Prop
  | .setRnr value _ => value ≠ 256#32
  | .getRnr _ => True
  | .set _ _ offset secure | .get _ offset secure => offset = 0#32 ∨ (banks secure).rnr = 0#32

/-- The states that runs reach from reset. -/
inductive Pmsav8Banks.Reached : Pmsav8Banks → Prop
  | reset : Reached .reset
  | call {banks banks' : Pmsav8Banks} {call : Pmsav8Call} {value : Word} (before : Reached banks)
      (aliased : call.HasAlias) (meets : call.Meets banks)
      (result : call.run banks = some (banks', value)) : Reached banks'

variable {banks : Pmsav8Banks}

theorem index_eq_named {bank : Pmsav8Bank} {offset : Word}
    (meets : offset = 0#32 ∨ bank.rnr = 0#32) : bank.index offset = bank.named offset := by
  unfold Pmsav8Bank.index Pmsav8Bank.named
  by_cases zero : offset = 0#32
  · rw [if_pos zero, zero]
    rfl
  · have pos : 0#32 < offset := by
      exact Nat.pos_of_ne_zero fun toNat => zero (BitVec.eq_of_toNat_eq toNat)
    rw [if_pos pos, if_neg zero, meets.resolve_left zero]
    rfl

theorem named_inside {bank : Pmsav8Bank} {offset : Word} (meets : offset = 0#32 ∨ bank.rnr = 0#32)
    (aliased : offset ≤ 3#32) (bounded : bank.rnr < 256#32) :
    ∃ n, element (bank.named offset) = some n := by
  have inside : (bank.named offset).toNat < 256 := by
    rw [← index_eq_named meets]
    unfold Pmsav8Bank.index
    split
    · rename_i pos
      have zero : offset ≠ 0#32 := by
        rintro rfl
        exact absurd pos (by decide)
      rw [meets.resolve_left zero, BitVec.zero_shiftLeft, BitVec.zero_add]
      exact Nat.lt_of_le_of_lt aliased (by decide)
    · exact bounded
  exact ⟨⟨_, inside⟩, dif_pos inside⟩

theorem call_named {call : Pmsav8Call} (bounded : ∀ secure, (banks secure).rnr < 256#32)
    (aliased : call.HasAlias) (meets : call.Meets banks) :
    call.run banks = call.specified banks ∧ (call.run banks).isSome = true := by
  cases call with
  | setRnr value secure =>
    refine ⟨?_, rfl⟩
    have same : ¬256#32 < value ↔ value < 256#32 := by
      have ne : value.toNat ≠ 256 := fun toNat => meets (BitVec.eq_of_toNat_eq toNat)
      show ¬256 < value.toNat ↔ value.toNat < 256
      omega
    simp only [Pmsav8Call.run, Pmsav8Call.specified, tlibSetPmsav8Rnr, ← same, ite_not]
  | getRnr secure => exact ⟨rfl, rfl⟩
  | set register value offset secure =>
    obtain ⟨n, found⟩ := named_inside meets aliased (bounded secure)
    cases register <;>
      simp [Pmsav8Call.run, Pmsav8Call.specified, tlibSetPmsav8Rbar, tlibSetPmsav8Rlar,
        index_eq_named meets, found]
  | get register offset secure =>
    obtain ⟨n, found⟩ := named_inside meets aliased (bounded secure)
    cases register <;>
      simp [Pmsav8Call.run, Pmsav8Call.specified, tlibGetPmsav8Rbar, tlibGetPmsav8Rlar,
        index_eq_named meets, found]

theorem reached_bounded (reached : banks.Reached) (secure : Bool) :
    (banks secure).rnr < 256#32 := by
  induction reached generalizing secure with
  | reset => exact (by decide : (0#32 : Word) < 256#32)
  | @call before after call value _ aliased meets result ih =>
    rw [(call_named ih aliased meets).1] at result
    have banked (written : Bool) (bank : Pmsav8Bank) (less : bank.rnr < 256#32) :
        (setBank before written bank secure).rnr < 256#32 := by
      by_cases same : secure = written
      · rw [same, setBank_same]
        exact less
      · rw [setBank_other _ _ same]
        exact ih secure
    cases call with
    | setRnr number written =>
      cases result
      split
      · rename_i less
        exact banked written _ less
      · exact ih secure
    | getRnr read =>
      cases result
      exact ih secure
    | set register number offset written =>
      obtain ⟨n, -, stored⟩ := Option.map_eq_some_iff.mp result
      cases stored
      exact banked written _ (ih written)
    | get register offset read =>
      obtain ⟨n, -, kept⟩ := Option.map_eq_some_iff.mp result
      cases kept
      exact ih secure

/-- In runs whose calls all meet the condition, each call is on the region that it names, and in
bounds. -/
theorem regionRegisters_named (reached : banks.Reached) (call : Pmsav8Call)
    (aliased : call.HasAlias) (meets : call.Meets banks) :
    call.run banks = call.specified banks ∧ (call.run banks).isSome = true :=
  call_named (reached_bounded reached) aliased meets

/-- The second alias of `RLAR`, after reset. -/
theorem regionRegisters_named_sample : (Pmsav8Call.set .rlar 0x21#32 2#32 true).run .reset =
      (Pmsav8Call.set .rlar 0x21#32 2#32 true).specified .reset :=
  (regionRegisters_named .reset (.set .rlar 0x21#32 2#32 true)
    (by decide : 2#32 ≤ 3#32) (.inr rfl)).1

/-- `RNR` may be 256, and then the base register is not in the array. -/
theorem beyond_regions :
    ¬∀ (value _offset : Word) (call : Pmsav8Call) (secure : Bool), call.HasAlias →
      (call.run (tlibSetPmsav8Rnr value secure .reset)).isSome = true := by
  intro claimed
  have inside := claimed 256#32 0#32 (.get .rbar 0#32 false) false
    (by decide : 0#32 ≤ 3#32)
  revert inside
  decide

end Tlib.CortexM
