import Mathlib.Data.List.Nodup
import Mathlib.Logic.Function.Basic
import Tlib.Tcg.ConstantFolding

/-!
Contract: the optimizer pass over the intermediate code of a block, which propagates constants and
copies.

Owns: the classes of copies with their representatives, what `tcg_constant_folding` puts in place of
each operation, and that every run of a block is a run of the optimized block.

Does not own: the folding of constants. Moves between temps of different widths, which truncate, are
outside of the statement: a class that mixes widths can get a representative that is too narrow.
-/

namespace Tlib.Tcg

open Function List
open BitVec hiding cons

/-! ### Temps -/

/-- What the optimizer has to know of the temps of a block. -/
structure TCGContext where
  nbGlobals : Nat
  /-- `tcg_arg_is_local` -/
  isLocal : TCGArg → Bool
  width : TCGArg → Width

/-- `TCG_TEMP_UNDEF` is treated as `TCG_TEMP_ANY` everywhere. -/
inductive TempState where
  | any
  | const (val : BitVec 64)
  | copy (of : TCGArg)
  | hasCopy
  deriving DecidableEq

/-- `temps`. The ring of `next_copy` from a representative on is the list of its copies. -/
structure Temps where
  state : TCGArg → TempState
  copies : TCGArg → List TCGArg

namespace Temps

variable (C : TCGContext) (m : Temps)

def cleared : Temps := ⟨fun _ => .any, fun _ => []⟩

def known (t : TCGArg) : Option (BitVec 64) :=
  match m.state t with
  | .const val => some val
  | _ => none

/-- A representative without copies is in no class. -/
def classOf : List TCGArg → TempState
  | [] => .any
  | _ :: _ => .hasCopy

def resetTemp (temp : TCGArg) : Temps :=
  match m.state temp with
  | .hasCopy =>
    -- the first copy that is no global takes the place of the representative
    match (m.copies temp).dropWhile (· < C.nbGlobals) with
    | [] =>
      { state := fun t => if t = temp ∨ t ∈ m.copies temp then .any else m.state t
        copies := update m.copies temp [] }
    | base :: later =>
      let rest := later ++ (m.copies temp).takeWhile (· < C.nbGlobals)
      { state := fun t =>
          if t = temp then .any
          else if t = base then classOf rest
          else if t ∈ m.copies temp then .copy base
          else m.state t
        copies := update (update m.copies temp []) base rest }
  | .copy rep =>
    let rest := (m.copies rep).erase temp
    { state := update (update m.state rep (classOf rest)) temp .any
      copies := update m.copies rep rest }
  | _ => { m with state := update m.state temp .any }

/-- `dst` becomes a copy of `src`, the first in its ring. -/
def link (dst src : TCGArg) : Temps where
  state := update (update m.state src .hasCopy) dst (.copy src)
  copies := update m.copies src (dst :: if m.state src = .hasCopy then m.copies src else [])

/-- Neither is a global, and both are local or neither is. -/
def Linkable (dst src : TCGArg) : Prop :=
  C.nbGlobals ≤ src ∧ C.nbGlobals ≤ dst ∧ C.isLocal src = C.isLocal dst

instance (dst src : TCGArg) : Decidable (Linkable C dst src) :=
  inferInstanceAs (Decidable (_ ∧ _ ∧ _))

end Temps

/-! ### Operations -/

/-- An operation that the optimizer does not know. -/
structure Other where
  /-- The opcode with its constant arguments. -/
  code : Nat
  (outs ins : List TCGArg)
  /-- Without `TCG_OPF_CALL_CLOBBER` and `TCG_OPF_SIDE_EFFECTS`. -/
  propagates : Bool
  /-- A call that is neither constant nor pure. -/
  trashesGlobals : Bool
  /-- A label, a jump or a branch. -/
  endsBlock : Bool
  deriving DecidableEq

def Other.trashed (C : TCGContext) (insn : Other) : List TCGArg :=
  (if insn.trashesGlobals then range C.nbGlobals else []) ++ insn.outs

inductive Operation where
  | nop
  | mov (w : Width) (dst src : TCGArg)
  | movi (w : Width) (dst : TCGArg) (val : BitVec 64)
  | unary (w : Width) (op : Unary) (dst x : TCGArg)
  | binary (w : Width) (op : Binary) (dst x y : TCGArg)
  | other (insn : Other)
  deriving DecidableEq

namespace Temps

variable (C : TCGContext) (H : Host) (m : Temps) (w : Width) (dst : TCGArg)

/-- `none` stands for a failed assertion. -/
def tcgOptGenMov (src : TCGArg) : Option (Operation × Temps) :=
  let m := m.resetTemp C dst
  match m.state src with
  | .copy _ => none
  | .const _ => if Linkable C dst src then none else some (.mov w dst src, m)
  | _ => some (.mov w dst src, if Linkable C dst src then m.link dst src else m)

def tcgOptGenMovi (val : BitVec 64) : Operation × Temps :=
  (.movi w dst val,
    { m.resetTemp C dst with state := update (m.resetTemp C dst).state dst (.const val) })

/-- Copy propagation of one argument. -/
def propagate (t : TCGArg) : TCGArg :=
  match m.state t with
  | .copy rep => rep
  | _ => t

def foldMov (src : TCGArg) : Option (Operation × Temps) :=
  if m.state src = .copy dst ∨ dst = src then some (.nop, m)
  else
    match m.known src with
    | some val => some (m.tcgOptGenMovi C w dst val)
    | none => m.tcgOptGenMov C w dst src

def foldUnary (op : Unary) (x : TCGArg) : Operation × Temps :=
  match m.known x with
  | some val => m.tcgOptGenMovi C w dst (cutTo w (doConstantFolding1 op val))
  | none => (.unary w op dst x, m.resetTemp C dst)

/-- The cases for two operands, after the exchange. -/
def foldOrdered (op : Binary) (x y : TCGArg) : Option (Operation × Temps) :=
  if op.keepsFirst && (m.known x).isNone && m.known y = some 0 then
    if m.state dst = .copy x ∨ dst = x then some (.nop, m) else m.tcgOptGenMov C w dst x
  else if op = .mul && m.known y = some 0 then some (m.tcgOptGenMovi C w dst 0)
  else if (op = .or || op = .and) && x = y then
    if x = dst then some (.nop, m) else m.tcgOptGenMov C w dst x
  else
    match m.known x, m.known y with
    | some xVal, some yVal =>
      some (m.tcgOptGenMovi C w dst (cutTo w (doConstantFolding2 H w op xVal yVal)))
    | _, _ => some (.binary w op dst x y, m.resetTemp C dst)

/-- A constant of a commutative operation becomes the second operand. -/
def foldBinary (op : Binary) (x y : TCGArg) : Option (Operation × Temps) :=
  if op.commutes && (m.known x).isSome then m.foldOrdered C H w dst op y x
  else m.foldOrdered C H w dst op x y

/-- The operation with its inputs replaced, and the temps without those that it may change. -/
def foldOther (insn : Other) : Operation × Temps :=
  (.other (if insn.propagates then { insn with ins := insn.ins.map m.propagate } else insn),
    if insn.endsBlock then cleared else (insn.trashed C).foldl (resetTemp C) m)

/-- One turn of the loop of `tcg_constant_folding`. -/
def foldOperation : Operation → Option (Operation × Temps)
  | .nop => some (.nop, m)
  | .mov w dst src => m.foldMov C w dst (m.propagate src)
  | .movi w dst val => some (m.tcgOptGenMovi C w dst val)
  | .unary w op dst x => some (m.foldUnary C w dst op (m.propagate x))
  | .binary w op dst x y => m.foldBinary C H w dst op (m.propagate x) (m.propagate y)
  | .other insn => some (m.foldOther C insn)

/-- The loop, from the state that the operations before have left. -/
def foldFrom (m : Temps) : List Operation → Option (List Operation)
  | [] => some []
  | op :: ops => do
    let (folded, m) ← m.foldOperation C H op
    return folded :: (← foldFrom m ops)

end Temps

def tcgConstantFolding (C : TCGContext) (H : Host) (ops : List Operation) :
    Option (List Operation) :=
  Temps.cleared.foldFrom C H ops

/-! ### Runs -/

/-- The values of the temps, those of 32 bits extended by zeros, and all else: memory and devices. -/
structure Machine (W : Type) where
  env : TCGArg → BitVec 64
  world : W

section Runs

variable {W : Type} (C : TCGContext)

/-- What an unknown operation may do with the values of its inputs. -/
abbrev Behaviour (W : Type) := Nat → List (BitVec 64) → W → List (BitVec 64) → W → Prop

def Narrow (env : TCGArg → BitVec 64) : Prop := ∀ t, cutTo (C.width t) (env t) = env t

def Machine.set (s : Machine W) (dst : TCGArg) (val : BitVec 64) : Machine W :=
  { s with env := update s.env dst val }

@[simp] theorem Machine.set_same (s : Machine W) (dst : TCGArg) (val : BitVec 64) :
    (s.set dst val).env dst = val := update_self ..

theorem Machine.set_other (s : Machine W) {dst t : TCGArg} (val : BitVec 64) (ne : t ≠ dst) :
    (s.set dst val).env t = s.env t := update_of_ne ne ..

theorem Machine.set_env (s : Machine W) (dst : TCGArg) : s.set dst (s.env dst) = s := by
  unfold Machine.set
  rw [update_eq_self]

theorem Narrow.set {s : Machine W} (narrow : Narrow C s.env) {dst : TCGArg} {val : BitVec 64}
    (cut : cutTo (C.width dst) val = val) : Narrow C (s.set dst val).env := by
  intro t
  by_cases same : t = dst
  · rw [same, Machine.set_same, cut]
  · rw [s.set_other val same, narrow]

/-- The operation takes the first state to the second. -/
def Operation.Steps (B : Behaviour W) (s : Machine W) : Operation → Machine W → Prop
  | .nop, s' => s' = s
  | .mov w dst src, s' => s' = s.set dst (cutTo w (s.env src))
  | .movi w dst val, s' => s' = s.set dst (cutTo w val)
  | .unary w op dst x, s' => s' = s.set dst ((op.eval ((s.env x).setWidth w.bits)).setWidth 64)
  | .binary w op dst x y, s' =>
    ∃ r, op.eval ((s.env x).setWidth w.bits) ((s.env y).setWidth w.bits) = some r ∧
      s' = s.set dst (r.setWidth 64)
  | .other insn, s' =>
    B insn.code (insn.ins.map s.env) s.world (insn.outs.map s'.env) s'.world ∧ Narrow C s'.env ∧
      (insn.endsBlock = false → ∀ t, t ∉ insn.trashed C → s'.env t = s.env t)

/-- The states of a run, with the one it begins in. -/
inductive Operation.Runs (B : Behaviour W) : Machine W → List Operation → List (Machine W) → Prop
  | nil (s : Machine W) : Runs B s [] [s]
  | cons {s s' : Machine W} {op : Operation} {ops : List Operation} {states : List (Machine W)}
      (first : op.Steps C B s s') (rest : Runs B s' ops states) : Runs B s (op :: ops) (s :: states)

/-- The widths are those of the temps (`ext32s` and `ext32u` also take a narrow one), a constant
fits, and `or` and `and` have two operands: `tcg_gen_or` and `tcg_gen_and` emit a move for one. -/
def Operation.Typed : Operation → Prop
  | .nop | .other _ => True
  | .mov w dst src => C.width dst = w ∧ C.width src = w
  | .movi w dst val => C.width dst = w ∧ Fits w val.toNat
  | .unary w op dst x =>
    C.width dst = w ∧ (C.width x = w ∨ w = .i64 ∧ (op = .ext32s ∨ op = .ext32u))
  | .binary w op dst x y =>
    C.width dst = w ∧ C.width x = w ∧ C.width y = w ∧ (op = .or ∨ op = .and → x ≠ y)

end Runs

/-! ### Classes -/

namespace Temps

variable {C : TCGContext} {m m' : Temps} {env env' : TCGArg → BitVec 64} {temp t c r : TCGArg}
  {val : BitVec 64}

/-- The lists are the classes of the states, of one width each, and constants fit their temps. -/
structure Shape (C : TCGContext) (m : Temps) : Prop where
  member : ∀ c r, m.state c = .copy r ↔ c ∈ m.copies r
  hasCopy : ∀ r, m.state r = .hasCopy ↔ m.copies r ≠ []
  nodup : ∀ r, (m.copies r).Nodup
  inner : ∀ r, ∀ c ∈ m.copies r, C.nbGlobals ≤ c
  width : ∀ c r, m.state c = .copy r → C.width c = C.width r
  fits : ∀ t val, m.state t = .const val → Fits (C.width t) val.toNat

/-- What is recorded of the temps holds of their values. -/
structure Knows (C : TCGContext) (m : Temps) (env : TCGArg → BitVec 64) : Prop where
  const : ∀ t val, m.state t = .const val → env t = cutTo (C.width t) val
  copy : ∀ c r, m.state c = .copy r → env c = env r

theorem classOf_eq_hasCopy {rest : List TCGArg} : classOf rest = .hasCopy ↔ rest ≠ [] := by
  cases rest <;> simp [classOf]

theorem classOf_ne_const {rest : List TCGArg} : classOf rest ≠ .const val := by
  cases rest <;> simp [classOf]

theorem classOf_ne_copy {rest : List TCGArg} : classOf rest ≠ .copy r := by
  cases rest <;> simp [classOf]

theorem Shape.representative (shape : m.Shape C) (copy : m.state c = .copy r) :
    m.state r = .hasCopy :=
  (shape.hasCopy r).mpr (ne_nil_of_mem ((shape.member c r).mp copy))

theorem Shape.ne (shape : m.Shape C) (copy : m.state c = .copy r) : c ≠ r := by
  rintro rfl
  rw [shape.representative copy] at copy
  cases copy

theorem Shape.copies_eq_nil (shape : m.Shape C) (other : m.state r ≠ .hasCopy) :
    m.copies r = [] := by
  by_contra some_
  exact other ((shape.hasCopy r).mpr some_)

theorem cleared_shape : cleared.Shape C where
  member _ _ := iff_of_false nofun not_mem_nil
  hasCopy _ := iff_of_false nofun (not_not_intro rfl)
  nodup _ := nodup_nil
  inner _ _ := nofun
  width _ _ := nofun
  fits _ _ := nofun

theorem cleared_knows : cleared.Knows C env where
  const _ _ := nofun
  copy _ _ := nofun

/-- A representative is replaced by its first copy. -/
theorem Shape.resetTemp_hasCopy (shape : m.Shape C) (class_ : m.state temp = .hasCopy) :
    ∃ base later, m.copies temp = base :: later ∧ m.resetTemp C temp =
      { state := fun t =>
          if t = temp then .any
          else if t = base then classOf later
          else if t ∈ m.copies temp then .copy base
          else m.state t
        copies := update (update m.copies temp []) base later } := by
  cases ring : m.copies temp with
  | nil => exact absurd ring ((shape.hasCopy temp).mp class_)
  | cons base later =>
    have inner : ¬base < C.nbGlobals := Nat.not_lt.mpr (shape.inner temp base (by simp [ring]))
    refine ⟨base, later, rfl, ?_⟩
    unfold resetTemp
    rw [class_, ring]
    simp [inner]

/-- What `reset_temp` leaves: the temp is in no class, and nothing new is recorded but a new
representative for the copies of an old one. -/
structure Reset (m m' : Temps) (temp : TCGArg) : Prop where
  any : m'.state temp = .any
  const : ∀ t val, m'.state t = .const val → t ≠ temp ∧ m.state t = .const val
  copy : ∀ c r, m'.state c = .copy r → c ≠ temp ∧ r ≠ temp ∧
    (m.state c = .copy r ∨ m.state c = .copy temp ∧ m.state r = .copy temp)
  member : ∀ c r, m'.state c = .copy r ↔ c ∈ m'.copies r
  hasCopy : ∀ r, m'.state r = .hasCopy ↔ m'.copies r ≠ []
  nodup : ∀ r, (m'.copies r).Nodup

theorem Reset.shape (reset : Reset m m' temp) (shape : m.Shape C) : m'.Shape C := by
  refine ⟨reset.member, reset.hasCopy, reset.nodup, fun r c inside => ?_, fun c r copy => ?_,
    fun t val const => shape.fits t val (reset.const t val const).2⟩
  · obtain ⟨-, -, copy | ⟨copy, -⟩⟩ := reset.copy c r ((reset.member c r).mpr inside)
    · exact shape.inner r c ((shape.member c r).mp copy)
    · exact shape.inner temp c ((shape.member c temp).mp copy)
  · obtain ⟨-, -, same | ⟨first, second⟩⟩ := reset.copy c r copy
    · exact shape.width c r same
    · exact (shape.width c temp first).trans (shape.width r temp second).symm

theorem Shape.not_copy_of_nil (shape : m.Shape C) (none_ : m.copies r = []) (c : TCGArg) :
    m.state c ≠ .copy r := by
  rw [Ne, shape.member, none_]
  exact not_mem_nil

theorem Shape.reset_of_hasCopy (shape : m.Shape C) (class_ : m.state temp = .hasCopy) :
    Reset m (m.resetTemp C temp) temp := by
  obtain ⟨base, later, ring, eq⟩ := shape.resetTemp_hasCopy class_
  have member (c : TCGArg) : c ∈ base :: later ↔ m.state c = .copy temp := by
    rw [shape.member, ring]
  have ofBase : m.state base = .copy temp := (member base).mp mem_cons_self
  have noCopies : m.copies base = [] := shape.copies_eq_nil (by simp [ofBase])
  have none_ := shape.not_copy_of_nil noCopies
  have distinct := nodup_cons.mp (ring ▸ shape.nodup temp)
  have baseNe : base ≠ temp := shape.ne ofBase
  have old := shape.member
  have many := shape.hasCopy
  have nodup := shape.nodup
  have state (t : TCGArg) : (m.resetTemp C temp).state t =
      if t = temp then .any
      else if t = base then classOf later
      else if m.state t = .copy temp then .copy base
      else m.state t := by
    rw [eq, ring]
    simp only [member]
  have copies (r : TCGArg) : (m.resetTemp C temp).copies r =
      if r = base then later else if r = temp then [] else m.copies r := by
    rw [eq]
    simp only [update_apply]
  have inLater (c : TCGArg) : c ∈ later ↔ m.state c = .copy temp ∧ c ≠ base := by
    have inRing := member c
    grind
  clear eq ring member
  constructor
  all_goals simp only [state, copies]
  all_goals grind [classOf_ne_const, classOf_ne_copy, classOf_eq_hasCopy]

theorem Shape.reset_of_copy (shape : m.Shape C) (copy : m.state temp = .copy r) :
    Reset m (m.resetTemp C temp) temp := by
  have ne := shape.ne copy
  have representative := shape.representative copy
  have inRest (c : TCGArg) : c ∈ (m.copies r).erase temp ↔ c ≠ temp ∧ m.state c = .copy r := by
    rw [(shape.nodup r).mem_erase_iff, shape.member]
  have none_ := shape.not_copy_of_nil (shape.copies_eq_nil (r := temp) (by simp [copy]))
  have distinct := (shape.nodup r).erase temp
  have old := shape.member
  have many := shape.hasCopy
  have nodup := shape.nodup
  have eq : m.resetTemp C temp =
      { state := update (update m.state r (classOf ((m.copies r).erase temp))) temp .any
        copies := update m.copies r ((m.copies r).erase temp) } := by
    unfold resetTemp
    rw [copy]
  constructor
  all_goals simp only [eq, update_apply]
  all_goals
    clear eq
    grind [classOf_ne_const, classOf_ne_copy, classOf_eq_hasCopy]

theorem Shape.reset (shape : m.Shape C) (temp : TCGArg) :
    Reset m (m.resetTemp C temp) temp := by
  cases state : m.state temp with
  | hasCopy => exact shape.reset_of_hasCopy state
  | copy r => exact shape.reset_of_copy state
  | any | const val =>
    have none_ := shape.not_copy_of_nil (shape.copies_eq_nil (r := temp) (by simp [state]))
    have old := shape.member
    have many := shape.hasCopy
    have eq : m.resetTemp C temp = { m with state := update m.state temp .any } := by
      unfold resetTemp
      rw [state]
    constructor
    case nodup =>
      rw [eq]
      exact shape.nodup
    all_goals
      simp only [eq, update_apply]
      clear eq
      grind

/-- A temp in no class becomes a constant. -/
theorem Shape.const (shape : m.Shape C) (any : m.state t = .any)
    (fits : Fits (C.width t) val.toNat) :
    Shape C { m with state := update m.state t (.const val) } := by
  have noCopies : m.copies t = [] := shape.copies_eq_nil (by simp [any])
  refine ⟨fun c r => ?_, fun r => ?_, shape.nodup, shape.inner, fun c r is => ?_, fun u v is => ?_⟩
  · have old := shape.member c r
    simp only [update_apply]
    grind
  · have old := shape.hasCopy r
    simp only [update_apply]
    grind
  · have old := shape.width c r
    simp only [update_apply] at is
    grind
  · have old := shape.fits u v
    simp only [update_apply] at is
    grind

/-- A temp in no class becomes a copy. -/
theorem Shape.link (shape : m.Shape C) (any : m.state c = .any) (ne : c ≠ r)
    (root : m.state r = .any ∨ m.state r = .hasCopy) (inner : C.nbGlobals ≤ c)
    (width : C.width c = C.width r) :
    (m.link c r).Shape C := by
  have noCopies : m.copies c = [] := shape.copies_eq_nil (by simp [any])
  have ring : (if m.state r = .hasCopy then m.copies r else []) = m.copies r := by
    split_ifs with many
    · rfl
    · exact (shape.copies_eq_nil many).symm
  have fresh : c ∉ m.copies r := by
    rw [← shape.member, any]
    exact nofun
  unfold Temps.link
  rw [ring]
  refine ⟨fun d q => ?_, fun q => ?_, fun q => ?_, fun q d => ?_, fun d q is => ?_,
    fun t val is => ?_⟩
  · have old := shape.member d q
    simp only [update_apply]
    grind
  · have old := shape.hasCopy q
    simp only [update_apply]
    grind
  · simp only [update_apply]
    split_ifs
    · exact nodup_cons.mpr ⟨fresh, shape.nodup r⟩
    · exact shape.nodup q
  · simp only [update_apply]
    split_ifs
    · rintro (_ | ⟨_, inside⟩)
      · exact inner
      · exact shape.inner r d inside
    · exact shape.inner q d
  · have old := shape.width d q
    simp only [update_apply] at is
    grind
  · have old := shape.fits t val
    simp only [update_apply] at is
    grind

/-! ### Values -/

theorem Knows.reset (knows : m.Knows C env) (reset : Reset m m' temp)
    (same : ∀ t, t ≠ temp → env' t = env t) : m'.Knows C env' where
  const t val const := by
    obtain ⟨ne, before⟩ := reset.const t val const
    rw [same t ne]
    exact knows.const t val before
  copy c r copy := by
    obtain ⟨ne, ne', before⟩ := reset.copy c r copy
    rw [same c ne, same r ne']
    rcases before with before | ⟨first, second⟩
    · exact knows.copy c r before
    · exact (knows.copy c temp first).trans (knows.copy r temp second).symm

theorem Knows.propagate (knows : m.Knows C env) (t : TCGArg) : env (m.propagate t) = env t := by
  unfold Temps.propagate
  split
  next rep copy => exact (knows.copy t rep copy).symm
  next => rfl

theorem Shape.propagate_width (shape : m.Shape C) (t : TCGArg) :
    C.width (m.propagate t) = C.width t := by
  unfold Temps.propagate
  split
  next rep copy => exact (shape.width t rep copy).symm
  next => rfl

theorem Shape.propagate_ne_copy (shape : m.Shape C) (t r : TCGArg) :
    m.state (m.propagate t) ≠ .copy r := by
  unfold Temps.propagate
  split
  next rep copy =>
    rw [shape.representative copy]
    exact nofun
  next other => exact other r

/-- The representative of a class is no constant. -/
theorem Shape.propagate_const (shape : m.Shape C) (const : m.state (m.propagate t) = .const val) :
    m.propagate t = t := by
  unfold Temps.propagate at const ⊢
  split at const
  next rep copy =>
    rw [shape.representative copy] at const
    cases const
  next => rfl

theorem cutTo_cutTo {w : Width} (val : BitVec 64) : cutTo w (cutTo w val) = cutTo w val := by
  rw [cutTo_eq, setWidth_cutTo, ← cutTo_eq]

theorem fits_cutTo {w : Width} (val : BitVec 64) : Fits w (cutTo w val).toNat := by
  refine .inl ?_
  rw [toNat_cutTo]
  exact Nat.mod_lt _ (Nat.two_pow_pos _)

theorem known_eq_some : m.known t = some val ↔ m.state t = .const val := by
  unfold known
  split <;> simp_all

/-- Of an operation that sets `dst` to a value of this kind: it is replaced by one that does so too,
and what is recorded then is right. -/
def Gives (W : Type) (C : TCGContext) (m : Temps) (dst : TCGArg)
    (value : (TCGArg → BitVec 64) → BitVec 64 → Prop) (result : Option (Operation × Temps)) : Prop :=
  ∃ folded m', result = some (folded, m') ∧ m'.Shape C ∧
    ∀ (B : Behaviour W) (s : Machine W) (v : BitVec 64), m.Knows C s.env → Narrow C s.env →
      value s.env v → folded.Steps C B s (s.set dst v) ∧ m'.Knows C (s.set dst v).env

section Values

variable {W : Type} {H : Host} {w : Width} {dst src x y : TCGArg}
  {value : (TCGArg → BitVec 64) → BitVec 64 → Prop} {folded : Operation}

theorem gives_nop (shape : m.Shape C)
    (agrees : ∀ env v, m.Knows C env → Narrow C env → value env v → v = env dst) :
    Gives W C m dst value (some (.nop, m)) := by
  refine ⟨_, _, rfl, shape, fun B s v knows narrow is => ?_⟩
  rw [agrees s.env v knows narrow is, s.set_env]
  exact ⟨rfl, knows⟩

theorem gives_kept (shape : m.Shape C)
    (steps : ∀ (B : Behaviour W) (s : Machine W) (v : BitVec 64), value s.env v →
      folded.Steps C B s (s.set dst v)) :
    Gives W C m dst value (some (folded, m.resetTemp C dst)) :=
  ⟨_, _, rfl, (shape.reset dst).shape shape, fun B s v knows _ is =>
    ⟨steps B s v is, knows.reset (shape.reset dst) fun _ ne => s.set_other v ne⟩⟩

theorem gives_movi (shape : m.Shape C) (width : C.width dst = w) (fits : Fits w val.toNat)
    (agrees : ∀ env v, m.Knows C env → Narrow C env → value env v → v = cutTo w val) :
    Gives W C m dst value (some (m.tcgOptGenMovi C w dst val)) := by
  have reset := shape.reset dst
  refine ⟨_, _, rfl, (reset.shape shape).const reset.any (width ▸ fits),
    fun B s v knows narrow is => ?_⟩
  obtain rfl := agrees s.env v knows narrow is
  have after := knows.reset reset fun t ne => s.set_other (cutTo w val) ne
  refine ⟨rfl, fun t u const => ?_, fun c r copy => ?_⟩
  · by_cases same : t = dst
    · subst same
      obtain rfl := TempState.const.inj ((update_self ..).symm.trans const)
      rw [s.set_same, width]
    · exact after.const t u ((update_of_ne same ..).symm.trans const)
  · by_cases same : c = dst
    · subst same
      cases (update_self ..).symm.trans copy
    · exact after.copy c r ((update_of_ne same ..).symm.trans copy)

theorem gives_mov (shape : m.Shape C) (width : C.width dst = w) (width' : C.width src = w)
    (ne : src ≠ dst) (notCopy : ∀ r, m.state src ≠ .copy r)
    (notConst : ∀ u, m.state src ≠ .const u)
    (agrees : ∀ env v, m.Knows C env → Narrow C env → value env v → v = env src) :
    Gives W C m dst value (m.tcgOptGenMov C w dst src) := by
  have reset := shape.reset dst
  -- resetting the destination does not make the source a copy or a constant
  have root : (m.resetTemp C dst).state src = .any ∨ (m.resetTemp C dst).state src = .hasCopy := by
    cases state : (m.resetTemp C dst).state src with
    | any => exact .inl rfl
    | hasCopy => exact .inr rfl
    | const u => exact absurd (reset.const src u state).2 (notConst u)
    | copy r =>
      rcases (reset.copy src r state).2.2 with copy | ⟨copy, -⟩
      · exact absurd copy (notCopy r)
      · exact absurd copy (notCopy dst)
  have result : m.tcgOptGenMov C w dst src = some (.mov w dst src,
      if Linkable C dst src then (m.resetTemp C dst).link dst src else m.resetTemp C dst) := by
    unfold tcgOptGenMov
    dsimp only
    rcases root with state | state <;> rw [state]
  have linked (inner : Linkable C dst src) : ((m.resetTemp C dst).link dst src).Shape C :=
    (reset.shape shape).link reset.any ne.symm root inner.2.1 (width.trans width'.symm)
  refine ⟨_, _, result, ?_, fun B s v knows narrow is => ?_⟩
  · split_ifs with inner
    · exact linked inner
    · exact reset.shape shape
  obtain rfl := agrees s.env v knows narrow is
  have after := knows.reset reset fun t ne => s.set_other (s.env src) ne
  refine ⟨?_, ?_⟩
  · show s.set dst (s.env src) = s.set dst (cutTo w (s.env src))
    rw [← width', narrow]
  · split_ifs with inner
    · refine ⟨fun t u const => ?_, fun c r copy => ?_⟩
      · have before : (m.resetTemp C dst).state t = .const u := by
          simp only [link, update_apply] at const
          split_ifs at const
          exact const
        exact after.const t u before
      · by_cases same : c = dst
        · subst same
          obtain rfl := TempState.copy.inj ((update_self ..).symm.trans copy)
          rw [s.set_same, s.set_other _ ne]
        · have before : (m.resetTemp C dst).state c = .copy r := by
            simp only [link, update_apply, if_neg same] at copy
            split_ifs at copy
            exact copy
          exact after.copy c r before
    · exact after

/-! ### Folded operations -/

theorem foldMov_gives (shape : m.Shape C) (width : C.width dst = w) (width' : C.width src = w)
    (notCopy : ∀ r, m.state src ≠ .copy r) :
    Gives W C m dst (fun env v => v = cutTo w (env src)) (m.foldMov C w dst src) := by
  unfold foldMov
  split_ifs with same
  · apply gives_nop shape
    rintro env v - narrow rfl
    rw [(same.resolve_left (notCopy dst)), ← width', narrow]
  · split
    next val const =>
      have const := known_eq_some.mp const
      apply gives_movi shape width (width' ▸ shape.fits src val const)
      rintro env v knows - rfl
      rw [knows.const src val const, width', cutTo_cutTo]
    next other =>
      apply gives_mov shape width width' (Ne.symm fun same' => same (.inr same')) notCopy
      · intro u const
        rw [known_eq_some.mpr const] at other
        cases other
      · rintro env v - narrow rfl
        rw [← width', narrow]

/-- A known operand, seen at the width at which it is read. -/
theorem Knows.read (knows : m.Knows C env) (const : m.state x = .const val)
    (width : C.width x = w) : (env x).setWidth w.bits = val.setWidth w.bits := by
  rw [knows.const x val const, width, setWidth_cutTo]

/-- `ext32s` and `ext32u` read the low half, which an extension by zeros has kept. -/
theorem eval_ext32_cutTo (op : Unary) (ext : op = .ext32s ∨ op = .ext32u) (v : Width)
    (val : BitVec 64) :
    op.eval ((cutTo v val).setWidth Width.i64.bits) = op.eval (val.setWidth Width.i64.bits) := by
  have low : (cutTo v val).setWidth 32 = val.setWidth 32 := by
    cases v with
    | i32 => exact setWidth_cutTo (w := .i32) val
    | i64 => rfl
  have whole (z : BitVec 64) : z.setWidth Width.i64.bits = z := BitVec.setWidth_eq z
  rw [whole, whole]
  rcases ext with rfl | rfl
  · exact congrArg (BitVec.signExtend 64) low
  · exact congrArg (BitVec.setWidth 64) low

theorem foldUnary_gives (shape : m.Shape C) (op : Unary) (width : C.width dst = w)
    (width' : C.width x = w ∨ w = .i64 ∧ (op = .ext32s ∨ op = .ext32u)) :
    Gives W C m dst (fun env v => v = (op.eval ((env x).setWidth w.bits)).setWidth 64)
      (some (m.foldUnary C w dst op x)) := by
  unfold foldUnary
  split
  next val const =>
    have const := known_eq_some.mp const
    apply gives_movi shape width (fits_cutTo _)
    rintro env v knows - rfl
    rw [cutTo_cutTo, cutTo_eq, setWidth_doConstantFolding1]
    rcases width' with same | ⟨rfl, ext⟩
    · rw [knows.read const same]
    · rw [knows.const x val const, eval_ext32_cutTo op ext]
  next => exact gives_kept shape fun B s v is => congrArg (s.set dst) is

section Binary

variable (op : Binary)

/-- The result of an operation with two operands, extended by zeros. -/
def BinaryValue (w : Width) (x y : TCGArg) (env : TCGArg → BitVec 64) (v : BitVec 64) : Prop :=
  ∃ r, op.eval ((env x).setWidth w.bits) ((env y).setWidth w.bits) = some r ∧ v = r.setWidth 64

/-- The value is the first operand. -/
theorem BinaryValue.first {v : BitVec 64} (is : BinaryValue op w x y env v)
    (narrow : Narrow C env) (width : C.width x = w)
    (keeps : op.eval ((env x).setWidth w.bits) ((env y).setWidth w.bits) =
      some ((env x).setWidth w.bits)) : v = env x := by
  obtain ⟨r, defined, rfl⟩ := is
  rw [← Option.some.inj (keeps.symm.trans defined), ← cutTo_eq, ← width, narrow]

theorem foldOrdered_gives (shape : m.Shape C) (width : C.width dst = w) (widthX : C.width x = w)
    (widthY : C.width y = w) (notCopy : ∀ r, m.state x ≠ .copy r)
    (different : op = .or ∨ op = .and → x = y → ∀ u, m.state x ≠ .const u) :
    Gives W C m dst (BinaryValue op w x y) (m.foldOrdered C H w dst op x y) := by
  have zero {env : TCGArg → BitVec 64} (knows : m.Knows C env) (is : m.known y = some 0) :
      (env y).setWidth w.bits = 0#w.bits :=
    (knows.read (known_eq_some.mp is) widthY).trans (BitVec.setWidth_zero ..)
  have ofZero {env : TCGArg → BitVec 64} {v : BitVec 64} (knows : m.Knows C env)
      (narrow : Narrow C env) (keeps : op.keepsFirst = true) (none_ : m.known y = some 0)
      (is : BinaryValue op w x y env v) : v = env x := by
    apply is.first op narrow widthX
    rw [zero knows none_, Binary.eval_zero keeps width_pos]
  unfold foldOrdered
  split_ifs with keeps same product equal self <;>
    simp only [Bool.and_eq_true, Bool.or_eq_true, decide_eq_true_eq] at *
  · apply gives_nop shape
    intro env v knows narrow is
    have value : env dst = env x := by
      rcases same with copy | same
      · exact knows.copy dst x copy
      · rw [same]
    rw [value]
    exact ofZero knows narrow keeps.1.1 keeps.2 is
  · apply gives_mov shape width widthX (Ne.symm fun is => same (.inr is)) notCopy
    · intro u const
      rw [known_eq_some.mpr const] at keeps
      cases keeps.1.2
    · intro env v knows narrow is
      exact ofZero knows narrow keeps.1.1 keeps.2 is
  · obtain ⟨rfl, none_⟩ := product
    apply gives_movi shape width (by cases w <;> exact .inl (by decide))
    rintro env v knows - ⟨r, defined, rfl⟩
    rw [zero knows none_] at defined
    rw [← Option.some.inj defined, BitVec.mul_zero, cutTo_eq]
    simp
  · obtain ⟨either, rfl⟩ := equal
    apply gives_nop shape
    intro env v knows narrow is
    rw [← self]
    exact is.first op narrow widthX (Binary.eval_self either _)
  · obtain ⟨either, rfl⟩ := equal
    apply gives_mov shape width widthX self notCopy (different either rfl)
    intro env v knows narrow is
    exact is.first op narrow widthX (Binary.eval_self either _)
  · split
    next X Y first second =>
      have first := known_eq_some.mp first
      have second := known_eq_some.mp second
      apply gives_movi shape width (fits_cutTo _)
      rintro env v knows - ⟨r, defined, rfl⟩
      rw [knows.read first widthX, knows.read second widthY] at defined
      have fits := shape.fits y Y second
      rw [widthY] at fits
      rw [cutTo_cutTo, cutTo_eq, setWidth_doConstantFolding2 H X Y op fits defined]
    next => exact gives_kept shape fun B s v ⟨r, defined, is⟩ => ⟨r, defined, is ▸ rfl⟩

theorem foldBinary_gives (shape : m.Shape C) (width : C.width dst = w) (widthX : C.width x = w)
    (widthY : C.width y = w) (notCopy : ∀ r, m.state x ≠ .copy r)
    (notCopy' : ∀ r, m.state y ≠ .copy r)
    (different : op = .or ∨ op = .and → x = y → ∀ u, m.state x ≠ .const u) :
    Gives W C m dst (BinaryValue op w x y) (m.foldBinary C H w dst op x y) := by
  unfold foldBinary
  split_ifs with swap
  · have commutes := (Bool.and_eq_true_iff.mp swap).1
    obtain ⟨folded, m', result, shape', follows⟩ := foldOrdered_gives (W := W) (H := H) op shape
      width widthY widthX notCopy' fun either same => same ▸ different either same.symm
    refine ⟨folded, m', result, shape', fun B s v knows narrow ⟨r, defined, is⟩ => ?_⟩
    exact follows B s v knows narrow ⟨r, (op.eval_comm commutes ..).trans defined, is⟩
  · exact foldOrdered_gives op shape width widthX widthY notCopy different

end Binary

end Values

/-! ### The pass -/

theorem Shape.resets (shape : m.Shape C) (l : List TCGArg) :
    (l.foldl (resetTemp C) m).Shape C := by
  induction l generalizing m with
  | nil => exact shape
  | cons a l ih => exact ih ((shape.reset a).shape shape)

theorem Knows.resets (knows : m.Knows C env) (shape : m.Shape C) (l : List TCGArg)
    (same : ∀ t, t ∉ l → env' t = env t) : (l.foldl (resetTemp C) m).Knows C env' := by
  induction l generalizing m env with
  | nil =>
    rw [funext fun t => same t not_mem_nil]
    exact knows
  | cons a l ih =>
    have reset := shape.reset a
    -- in between, only the first temp has its new value
    have between : (m.resetTemp C a).Knows C (update env a (env' a)) :=
      knows.reset reset fun t ne => update_of_ne ne ..
    refine ih between (reset.shape shape) fun t out => ?_
    by_cases first : t = a
    · rw [first, update_self]
    · rw [update_of_ne first, same t (by simp [first, out])]

/-- An operation is replaced by one that takes the same steps, and what is recorded stays right. -/
def Follows (W : Type) (C : TCGContext) (m : Temps) (op : Operation)
    (result : Option (Operation × Temps)) : Prop :=
  ∃ folded m', result = some (folded, m') ∧ m'.Shape C ∧
    ∀ (B : Behaviour W) (s s' : Machine W), m.Knows C s.env → Narrow C s.env → op.Steps C B s s' →
      folded.Steps C B s s' ∧ m'.Knows C s'.env ∧ Narrow C s'.env

section Steps

variable {W : Type} {H : Host} {w : Width} {dst : TCGArg}
  {value : (TCGArg → BitVec 64) → BitVec 64 → Prop} {result : Option (Operation × Temps)}

theorem Gives.follows {op : Operation} (gives : Gives W C m dst value result)
    (steps : ∀ (B : Behaviour W) (s s' : Machine W), m.Knows C s.env → Narrow C s.env →
      op.Steps C B s s' → ∃ v, s' = s.set dst v ∧ value s.env v ∧ cutTo (C.width dst) v = v) :
    Follows W C m op result := by
  obtain ⟨folded, m', eq, shape, follows⟩ := gives
  refine ⟨folded, m', eq, shape, fun B s s' knows narrow step => ?_⟩
  obtain ⟨v, rfl, is, cut⟩ := steps B s s' knows narrow step
  obtain ⟨step', knows'⟩ := follows B s v knows narrow is
  exact ⟨step', knows', narrow.set C cut⟩

theorem cutTo_setWidth (r : BitVec w.bits) : cutTo w (r.setWidth 64) = r.setWidth 64 := by
  rw [cutTo_eq, setWidth_setWidth_of_le r bits_le, BitVec.setWidth_eq]

theorem foldOther_follows (shape : m.Shape C) (insn : Other) :
    Follows W C m (.other insn) (some (m.foldOther C insn)) := by
  unfold foldOther
  refine ⟨_, _, rfl, ?_, fun B s s' knows narrow ⟨behaves, narrow', kept⟩ => ⟨?_, ?_, narrow'⟩⟩
  · split_ifs
    · exact cleared_shape
    · exact shape.resets _
  · split_ifs
    · have inputs : (insn.ins.map m.propagate).map s.env = insn.ins.map s.env := by
        rw [map_map]
        exact map_congr_left fun t _ => knows.propagate t
      exact ⟨by rw [inputs]; exact behaves, narrow', kept⟩
    · exact ⟨behaves, narrow', kept⟩
  · split_ifs with ends
    · exact cleared_knows
    · exact knows.resets shape _ (kept (Bool.eq_false_iff.mpr ends))

/-- One turn of the loop. -/
theorem foldOperation_follows (shape : m.Shape C) {op : Operation} (typed : op.Typed C) :
    Follows W C m op (m.foldOperation C H op) := by
  cases op with
  | nop =>
    refine ⟨_, _, rfl, shape, fun B s s' knows narrow step => ?_⟩
    obtain rfl : s' = s := step
    exact ⟨rfl, knows, narrow⟩
  | mov w dst src =>
    obtain ⟨width, width'⟩ := typed
    have gives := @foldMov_gives C m W w dst (m.propagate src) shape width
      ((shape.propagate_width src).trans width') (shape.propagate_ne_copy src)
    refine gives.follows fun B s s' knows narrow step => ⟨_, step, ?_, ?_⟩
    · rw [knows.propagate]
    · rw [width, cutTo_cutTo]
  | movi w dst val =>
    obtain ⟨width, fits⟩ := typed
    have gives := @gives_movi C m val W w dst (fun _ v => v = cutTo w val) shape width fits
      fun _ _ _ _ => id
    refine gives.follows fun B s s' knows narrow step => ⟨_, step, rfl, ?_⟩
    rw [width, cutTo_cutTo]
  | unary w op dst x =>
    obtain ⟨width, width'⟩ := typed
    rw [← shape.propagate_width x] at width'
    refine (foldUnary_gives shape op width width').follows fun B s s' knows narrow step =>
      ⟨_, step, ?_, ?_⟩
    · rw [knows.propagate]
    · rw [width, cutTo_setWidth]
  | binary w op dst x y =>
    obtain ⟨width, widthX, widthY, different⟩ := typed
    rw [← shape.propagate_width x] at widthX
    rw [← shape.propagate_width y] at widthY
    -- operands that are replaced by one temp are copies, so that it is no constant
    have noConst : op = .or ∨ op = .and → m.propagate x = m.propagate y →
        ∀ u, m.state (m.propagate x) ≠ .const u := by
      intro either same u const
      have first := shape.propagate_const const
      have second := shape.propagate_const (same ▸ const)
      exact different either (first.symm.trans (same.trans second))
    refine (foldBinary_gives op shape width widthX widthY (shape.propagate_ne_copy x)
      (shape.propagate_ne_copy y) noConst).follows fun B s s' knows narrow ⟨r, defined, is⟩ =>
        ⟨_, is, ⟨r, ?_, rfl⟩, ?_⟩
    · rw [knows.propagate, knows.propagate]
      exact defined
    · rw [width, cutTo_setWidth]
  | other insn => exact foldOther_follows shape insn

/-- The loop: every run of the operations is one of the folded operations. -/
theorem foldFrom_preserves (shape : m.Shape C) {ops : List Operation}
    (typed : ∀ op ∈ ops, op.Typed C) :
    ∃ folded, m.foldFrom C H ops = some folded ∧
      ∀ (B : Behaviour W) (s : Machine W) (states : List (Machine W)), m.Knows C s.env →
        Narrow C s.env → Operation.Runs C B s ops states → Operation.Runs C B s folded states := by
  induction ops generalizing m with
  | nil => exact ⟨[], rfl, fun B s states _ _ run => run⟩
  | cons op ops ih =>
    obtain ⟨first, m', result, shape', follows⟩ :=
      @foldOperation_follows C m W H shape op (typed op mem_cons_self)
    obtain ⟨rest, result', runs⟩ := ih shape' fun op inside => typed op (mem_cons_of_mem _ inside)
    refine ⟨first :: rest, ?_, fun B s states knows narrow run => ?_⟩
    · rw [foldFrom, result, Option.bind_eq_bind, Option.bind_some]
      dsimp only
      rw [result']
      rfl
    · cases run with
      | cons step run =>
        obtain ⟨step', knows', narrow'⟩ := follows B s _ knows narrow step
        exact .cons step' (runs B _ _ knows' narrow' run)

end Steps

end Temps

/-- The assertions of the pass hold, and every run of a block, through the same states, is a run of
the optimized block. -/
theorem tcgConstantFolding_preserves (C : TCGContext) (H : Host) (W : Type) {ops : List Operation}
    (typed : ∀ op ∈ ops, op.Typed C) :
    ∃ folded, tcgConstantFolding C H ops = some folded ∧
      ∀ (B : Behaviour W) (s : Machine W) (states : List (Machine W)), Narrow C s.env →
        Operation.Runs C B s ops states → Operation.Runs C B s folded states := by
  obtain ⟨folded, result, runs⟩ := @Temps.foldFrom_preserves C Temps.cleared W H
    Temps.cleared_shape ops typed
  exact ⟨folded, result, fun B s states => runs B s states Temps.cleared_knows⟩

/-- Temp 0 is a global. -/
def narrowTemps : TCGContext := ⟨1, fun _ => false, fun _ => .i32⟩

/-- Temps 2 and 3 become copies of temp 1, which is overwritten while they are in use. -/
def copiesBlock : List Operation :=
  [.mov .i32 1 0, .mov .i32 2 1, .mov .i32 3 1, .movi .i32 1 7, .binary .i32 .and 4 2 3,
    .binary .i32 .sub 5 1 1, .binary .i32 .add 6 3 5, .mov .i32 0 6]

theorem tcgConstantFolding_preserves_sample :
    ∃ folded, tcgConstantFolding narrowTemps maskingHost copiesBlock = some folded ∧
      folded = [.mov .i32 1 0, .mov .i32 2 1, .mov .i32 3 1, .movi .i32 1 7, .mov .i32 4 3,
        .movi .i32 5 0, .mov .i32 6 3, .mov .i32 0 3] ∧
      ∀ (B : Behaviour Unit) (s : Machine Unit) (states : List (Machine Unit)),
        Narrow narrowTemps s.env → Operation.Runs narrowTemps B s copiesBlock states →
          Operation.Runs narrowTemps B s folded states := by
  have typed : ∀ op ∈ copiesBlock, op.Typed narrowTemps := by
    unfold copiesBlock
    simp [Operation.Typed, narrowTemps, Fits, Width.bits]
  obtain ⟨folded, result, runs⟩ := tcgConstantFolding_preserves narrowTemps maskingHost Unit typed
  refine ⟨folded, result, ?_, runs⟩
  have computed : tcgConstantFolding narrowTemps maskingHost copiesBlock =
      some [.mov .i32 1 0, .mov .i32 2 1, .mov .i32 3 1, .movi .i32 1 7, .mov .i32 4 3,
        .movi .i32 5 0, .mov .i32 6 3, .mov .i32 0 3] := by
    decide
  exact Option.some.inj (result.symm.trans computed)

end Tlib.Tcg
