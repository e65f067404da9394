import Tlib.CortexM.RegionMatches

/-!
Contract: what the protection unit grants against the rules of the architecture.

Owns: the rules in terms of the regions that match, and the one kind of fetch that departs from
them.
-/

namespace Tlib.CortexM

/-- `AP` of a region permits reading. -/
def Regions.readable (regions : Regions) (n : Nat) (isUser : Bool) : Bool :=
  (regions.rbar n).getLsbD 1 || !isUser

/-- What a region permits; fetches also need `AP` to permit reading. -/
def Regions.permits (regions : Regions) (v81m : Bool) (n : Nat) (isUser : Bool) : AccessType → Bool
  | .load => regions.readable n isUser
  | .store => regions.readable n isUser && !(regions.rbar n).getLsbD 2
  | .fetch =>
    regions.readable n isUser && !(regions.rbar n).getLsbD 0 &&
      (isUser || !(v81m && (regions.rlar n).getLsbD 4))

/-- The background map: without the unit, and for privileged accesses with `PRIVDEFENA`. -/
def Pmsav8.hasBackground (mpu : Pmsav8) (isUser : Bool) : Bool :=
  !mpu.enabled || !isUser && mpu.privdefena

def Pmsav8.matching (mpu : Pmsav8) (count : Nat) (address : Word) : List Nat :=
  if mpu.enabled then mpu.regions.matching count address else []

/-- The decision that the architecture asks for. -/
def Pmsav8.specified (v81m : Bool) (mpu : Pmsav8) (count : Nat) (address : Word)
    (access : AccessType) (isUser : Bool) : Bool :=
  (access ≠ .fetch || decide (address < 0xE0000000#32)) && match mpu.matching count address with
    | [] => mpu.hasBackground isUser && (defaultMapping address).allows access
    | [n] => mpu.regions.permits v81m n isUser access
    | _ => false

def Pmsav8.FetchesUnreadable (mpu : Pmsav8) (count : Nat) (address : Word) (access : AccessType)
    (isUser : Bool) : Prop :=
  access = .fetch ∧ isUser = true ∧ address < 0xE0000000#32 ∧
    ∃ n, mpu.matching count address = [n] ∧ (mpu.regions.rbar n).getLsbD 1 = false ∧
      (mpu.regions.rbar n).getLsbD 0 = false

theorem enforceXn_allows (address : Word) (prot : Prot) (access : AccessType) :
    (enforceXn address prot).allows access =
      ((access ≠ .fetch || decide (address < 0xE0000000#32)) && prot.allows access) := by
  unfold enforceXn
  by_cases high : 0xE0000000#32 ≤ address
  · rw [if_pos high, decide_eq_false (BitVec.not_lt.mpr high)]
    cases access <;> rfl
  · rw [if_neg high, decide_eq_true (BitVec.not_le.mp high), Bool.or_true, Bool.true_and]

theorem pmsav8Prot_eq (v81m : Bool) (mpu : Pmsav8) (count : Nat) (address : Word)
    (isUser : Bool) :
    pmsav8Prot v81m mpu (pmsav8GetRegion mpu count address).found address isUser =
      match mpu.matching count address with
      | [] =>
        if mpu.hasBackground isUser then some (enforceXn address (defaultMapping address))
        else none
      | [n] => some (enforceXn address
          (regionProt v81m (mpu.regions.rbar n) (mpu.regions.rlar n) isUser))
      | _ => none := by
  have found := congrArg Prod.snd (getRegion_foundBy mpu count address)
  dsimp only at found
  unfold pmsav8Prot Pmsav8.matching Pmsav8.hasBackground
  rw [found]
  cases mpu.enabled with
  | false => rfl
  | true =>
    match mpu.regions.matching count address with
    | [] => rfl
    | [_] => rfl
    | _ :: _ :: _ => rfl

theorem checkAccess_granted (v81m : Bool) (mpu : Pmsav8) (count : Nat) (address : Word)
    (access : AccessType) (isUser : Bool) :
    (pmsav8CheckAccess v81m mpu count address access isUser).granted =
      match pmsav8Prot v81m mpu (pmsav8GetRegion mpu count address).found address isUser with
      | none => false
      | some prot => prot.allows access := by
  unfold pmsav8CheckAccess
  dsimp only
  cases pmsav8Prot v81m mpu (pmsav8GetRegion mpu count address).found address isUser with
  | none => rfl
  | some prot => rfl

/-- The decision is that of the architecture, except for fetches of user code from a region that
it may not read. -/
theorem checkAccess_specified_iff (v81m : Bool) (mpu : Pmsav8) (count : Nat) (address : Word)
    (access : AccessType) (isUser : Bool) :
    (pmsav8CheckAccess v81m mpu count address access isUser).granted =
        mpu.specified v81m count address access isUser ↔
      ¬mpu.FetchesUnreadable count address access isUser := by
  rw [checkAccess_granted, pmsav8Prot_eq]
  unfold Pmsav8.specified Pmsav8.FetchesUnreadable
  match mpu.matching count address with
  | [] =>
    refine iff_of_true ?_ (by simp)
    cases mpu.hasBackground isUser with
    | false => simp
    | true => exact enforceXn_allows address (defaultMapping address) access
  | _ :: _ :: _ => exact iff_of_true (by simp) (by simp)
  | [n] =>
    dsimp only
    rw [enforceXn_allows]
    simp only [List.cons.injEq, and_true, exists_eq_left']
    cases access with
    | load => simp [Prot.allows, regionProt, Regions.permits, Regions.readable]
    | store => simp [Prot.allows, regionProt, Regions.permits, Regions.readable]
    | fetch =>
      by_cases low : address < 0xE0000000#32
      · simp only [low, Prot.allows, regionProt, Regions.permits, Regions.readable]
        cases (mpu.regions.rbar n).getLsbD 0 <;> cases (mpu.regions.rbar n).getLsbD 1 <;>
          cases isUser <;> simp
      · simp [low]

def Pmsav8.privileged : Pmsav8 :=
  { enabled := true, privdefena := false, regions := ⟨fun _ => 0, fun _ => 0xFFFFFFE1#32⟩ }

/-- User code fetches from a region that it may not read. -/
theorem unreadable_fetched :
    ¬∀ (v81m : Bool) (mpu : Pmsav8) (count : Nat) (address : Word) (access : AccessType)
      (isUser : Bool), (pmsav8CheckAccess v81m mpu count address access isUser).granted =
        mpu.specified v81m count address access isUser := by
  intro claimed
  have decided := claimed false .privileged 1 0x1000#32 .fetch true
  revert decided
  decide

end Tlib.CortexM
