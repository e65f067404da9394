import Mathlib.Data.List.DropRight
import Tlib.TranslationCache.DirtyMarking

/-!
Contract: the order of the variants of one piece of code in their bucket.

Owns: how many instructions `cpu_gen_code` translates, which blocks a request passes over, and the
runs that keep the order.
-/

namespace Tlib.TranslationCache

open Tlib.Library.Linked Function List Nat Option Or
open Bool hiding eq_iff_iff not_or

/-! ### The instruction count of a translation -/

/-- What the translation of a block meets, by the number of instructions before. -/
structure CodeStream where
  /-- `gen_breakpoint` ends the block in front of the instruction. -/
  breakpoint : Nat → Bool
  /-- The instruction is the last one: it ends the block, or the buffer is full. -/
  ends : Nat → Bool

def getMaxTbInstructionCount (maximumBlockSize limit : Nat) : Nat :=
  if limit < maximumBlockSize then limit else maximumBlockSize

/-- The loop of `cpu_gen_code_inner`: `icount` and `was_cut` at its end. -/
def translateFrom (code : CodeStream) (icount : Nat) : Nat → Nat × Bool
  | 0 => (icount, true)
  | remaining + 1 =>
    if code.breakpoint icount then (icount, false)
    else if code.ends icount then (icount + 1, false)
    else translateFrom code (icount + 1) remaining

/-- `cpu_gen_code_inner`; the limit is tested behind the first instruction only. -/
def cpuGenCodeInner (code : CodeStream) (maxTbIcount : Nat) : Nat × Bool :=
  translateFrom code 0 (max 1 maxTbIcount)

/-- The request, with the translation that `cpu_gen_code` makes under its budget. -/
def FindRequest.translating (req : FindRequest) (maximumBlockSize : Nat) (code : CodeStream) :
    FindRequest :=
  let translated := cpuGenCodeInner code (getMaxTbInstructionCount maximumBlockSize req.maxIcount)
  { req with
    generation := { req.generation with icount := translated.1, wasCut := translated.2 } }

/-! ### Order -/

def bucketFrom (hash : HashMemory) : Nat → HashCell → List TbId
  | 0, _ => []
  | fuel + 1, cell =>
    match hash cell with
    | none => []
    | some tb => tb :: bucketFrom hash fuel (.physHashNext tb)

def State.bucketList (s : State) (h : Nat) : List TbId := bucketFrom s.hash s.nbTbs (.bucket h)

def variants (tb1 tb2 : TranslationBlock) : Bool :=
  tbBlocksRelated tb1 tb2 || tbBlocksRelated tb2 tb1

def Precedes (tb1 tb2 : TranslationBlock) : Prop :=
  variants tb1 tb2 = true → tb2.icount ≤ tb1.icount

instance (tb1 tb2 : TranslationBlock) : Decidable (Precedes tb1 tb2) := by
  unfold Precedes
  infer_instance

def State.Ordered (s : State) : Prop :=
  ∀ h, (s.bucketList h).Pairwise fun u v => Precedes (s.tbs u) (s.tbs v)

/-! ### The place of the returned block -/

/-- `prev_related_tb` when these blocks were passed. -/
def lastTooLarge (large : TbId → Bool) (searched : List TbId) : Option TbId :=
  (searched.rdropWhile fun t => !large t).getLast?

def keptInFront (large : TbId → Bool) (wasCut : Bool) (searched : List TbId) : List TbId :=
  if wasCut then searched.rdropWhile fun t => !large t else []

def passedOver (large : TbId → Bool) (wasCut : Bool) (searched : List TbId) : List TbId :=
  if wasCut then searched.rtakeWhile fun t => !large t else searched

namespace FindRequest

variable (T : Target) (req : FindRequest) (s : State)

def bucketOf : List TbId := s.bucketList (req.hashIndex T)

def searched : List TbId := (req.bucketOf T s).takeWhile fun t => !req.suits T (s.tbs t)

/-- The block that the search finds. -/
def found : Option TbId :=
  if req.cacheDisabled then none else (req.bucketOf T s).find? fun t => req.suits T (s.tbs t)

/-- Nothing is flushed or invalidated while the block is generated. -/
def Quiet : Prop :=
  req.cacheDisabled = false ∧ s.full = false ∧ ∀ t ∈ req.generation.invalidated, ¬ s.Hashed T t

def newRecord : TranslationBlock :=
  generatedRecord T req.pages req.pc req.csBase req.flags req.generation false

/-- A variant within the budget that is refused because its second page is not the one mapped. -/
def Elsewhere (block other : TranslationBlock) : Prop :=
  variants block other = true ∧ other.icount ≤ req.maxIcount ∧ req.nextPageMatches T other = false

/-- A block that was not cut meets no variant above the budget, it passes no larger variant that is
refused for its second page, and it is put behind no smaller one. -/
structure Placed (block : TranslationBlock) (met : List TbId) : Prop where
  uncut : block.wasCut = false → ∀ u ∈ met, variants block (s.tbs u) = true →
    (s.tbs u).icount ≤ req.maxIcount
  passed : ∀ u ∈ passedOver (fun t => req.tooLarge T (s.tbs t)) block.wasCut met,
    req.Elsewhere T block (s.tbs u) → (s.tbs u).icount ≤ block.icount
  kept : ∀ u ∈ keptInFront (fun t => req.tooLarge T (s.tbs t)) block.wasCut met,
    req.Elsewhere T block (s.tbs u) → block.icount ≤ (s.tbs u).icount

structure KeepsOrder : Prop where
  relinked : ∀ r, req.found T s = some r → req.Placed T s (s.tbs r) (req.searched T s)
  generated : req.found T s = none → req.Quiet T s →
    req.Placed T s (req.newRecord T) (req.bucketOf T s)

end FindRequest

/-- No smaller variant with a second page is in front of the place of a block that has none; it is
not related from that side. -/
def InsertKeepsOrder (T : Target) (s : State) (pages : PageMap) (pc csBase flags : Nat)
    (gen : Generation) : Prop :=
  let record := generatedRecord T pages pc csBase flags gen false
  let bucket := if s.full then [] else
    (s.bucketList (record.hashIndex T)).filter fun t => t ∉ gen.invalidated
  record.pageAddr1 = none → ∀ u ∈ bucket.takeWhile fun act =>
      !(tbBlocksRelated record (s.tbs act) && (s.tbs act).icount ≤ record.icount),
    (s.tbs u).pageAddr1 ≠ none → tbBlocksRelated (s.tbs u) record = true →
      record.icount ≤ (s.tbs u).icount

def Event.KeepsOrder (T : Target) (s : State) : Event → Prop
  | .findSlow req => req.KeepsOrder T s
  | .insert pages pc csBase flags gen => InsertKeepsOrder T s pages pc csBase flags gen
  | _ => True

/-- What is generated is within the budget, as by `cpu_gen_code`. -/
def Event.Budgeted : Event → Prop
  | .findSlow req => req.generation.icount ≤ req.maxIcount
  | _ => True

def Event.InOrder (T : Target) (s : State) (event : Event) : Prop :=
  event.Budgeted ∧ event.KeepsOrder T s

/-! ### Translation -/

theorem translateFrom_bounds (code : CodeStream) (icount remaining : Nat) :
    icount ≤ (translateFrom code icount remaining).1 ∧
      (translateFrom code icount remaining).1 ≤ icount + remaining := by
  induction remaining generalizing icount with
  | zero => exact ⟨Nat.le_refl _, Nat.le_refl _⟩
  | succ remaining ih =>
    have later := ih (icount + 1)
    rw [translateFrom]
    split_ifs
    · exact ⟨Nat.le_refl _, Nat.le_add_right _ _⟩
    · exact ⟨le_succ _, Nat.add_le_add_left (succ_pos _) _⟩
    · omega

theorem cpuGenCodeInner_le (code : CodeStream) (maximumBlockSize : Nat) {limit : Nat}
    (positive : 0 < limit) :
    (cpuGenCodeInner code (getMaxTbInstructionCount maximumBlockSize limit)).1 ≤ limit := by
  have bound := (translateFrom_bounds code 0
    (max 1 (getMaxTbInstructionCount maximumBlockSize limit))).2
  have least : getMaxTbInstructionCount maximumBlockSize limit ≤ limit := by
    unfold getMaxTbInstructionCount
    split_ifs <;> omega
  unfold cpuGenCodeInner
  omega

/-! ### Lists -/

section Lists

variable {α : Type*} {R : α → α → Prop} {front middle back : List α} {x : α}

theorem pairwise_insert_iff (ordered : (front ++ back).Pairwise R) :
    (front ++ x :: back).Pairwise R ↔ (∀ u ∈ front, R u x) ∧ ∀ u ∈ back, R x u := by
  obtain ⟨first, second, across⟩ := pairwise_append.mp ordered
  rw [pairwise_append, pairwise_cons]
  constructor
  · rintro ⟨-, ⟨behind, -⟩, both⟩
    exact ⟨fun u member => both u member x mem_cons_self, behind⟩
  · rintro ⟨before, behind⟩
    refine ⟨first, ⟨behind, second⟩, fun u inFront v inRest => ?_⟩
    rcases mem_cons.mp inRest with rfl | inBack
    · exact before u inFront
    · exact across u inFront v inBack

theorem pairwise_move_iff (ordered : (front ++ middle ++ x :: back).Pairwise R) :
    (front ++ x :: (middle ++ back)).Pairwise R ↔ ∀ u ∈ middle, R x u := by
  have without : (front ++ (middle ++ back)).Pairwise R := by
    rw [← append_assoc]
    exact ordered.sublist (List.Sublist.append_left (sublist_cons_self x back) _)
  obtain ⟨-, ordered', across⟩ := pairwise_append.mp ordered
  rw [pairwise_insert_iff without]
  constructor
  · rintro ⟨-, behind⟩ u member
    exact behind u (mem_append_left back member)
  · intro passes
    refine ⟨fun u member => across u (mem_append_left _ member) x mem_cons_self,
      fun u member => ?_⟩
    rcases mem_append.mp member with inMiddle | inBack
    · exact passes u inMiddle
    · exact (pairwise_cons.mp ordered').1 u inBack

theorem takeWhile_congr {l : List α} {p q : α → Bool} (same : ∀ x ∈ l, p x = q x) :
    l.takeWhile p = l.takeWhile q := by
  induction l with
  | nil => rfl
  | cons first rest ih =>
    rw [takeWhile_cons, takeWhile_cons, same first mem_cons_self,
      ih fun x member => same x (mem_cons_of_mem first member)]

end Lists

section Buckets

variable {T : Target} {s : State} {σ : Shape}

theorem bucketFrom_eq {hash : HashMemory} {cell : HashCell} {l : List TbId} {fuel : Nat}
    (segment : Segment hashRoots.toThreading hash cell l none) (enough : l.length ≤ fuel) :
    bucketFrom hash fuel cell = l := by
  induction l generalizing cell fuel with
  | nil =>
    cases fuel with
    | zero => rfl
    | succ less => rw [bucketFrom, segment]
  | cons tb rest ih =>
    obtain ⟨less, rfl⟩ := exists_eq_succ_of_ne_zero
      (Nat.ne_of_gt (Nat.lt_of_lt_of_le (succ_pos _) enough))
    obtain ⟨first, tail⟩ := segment
    rw [bucketFrom, first]
    exact congrArg (tb :: ·) (ih tail (le_of_succ_le_succ enough))

theorem Represents.bucketList_eq (rep : Represents T s σ) (h : Nat) : s.bucketList h = σ.bucket h :=
  bucketFrom_eq (rep.buckets.segment_bucket h) (rep.bucket_length_le h)

theorem Represents.ordered_iff (rep : Represents T s σ) :
    s.Ordered ↔ ∀ h, (σ.bucket h).Pairwise fun u v => Precedes (s.tbs u) (s.tbs v) := by
  simp [State.Ordered, rep.bucketList_eq]

end Buckets

/-! ### The search -/

section Search

variable {T : Target} {s : State} {bucket : Nat → List TbId} {req : FindRequest} {h : Nat}

theorem lastTooLarge_concat (large : TbId → Bool) (searched : List TbId) (tb : TbId) :
    lastTooLarge large (searched ++ [tb]) =
      if large tb then some tb else lastTooLarge large searched := by
  unfold lastTooLarge
  by_cases isLarge : large tb = true
  · rw [if_pos isLarge, rdropWhile_concat_neg _ _ _ (by simp [isLarge])]
    simp
  · rw [if_neg isLarge, rdropWhile_concat_pos _ _ _ (by simp [isLarge])]

theorem searchBucket_eq (buckets : Buckets s.hash bucket) (front : List TbId) {rest : List TbId}
    (shape : bucket h = front ++ rest) {fuel : Nat} (enough : rest.length < fuel) :
    searchBucket T s req fuel (cellAfter h front)
        (lastTooLarge (fun t => req.tooLarge T (s.tbs t)) front) =
      some (cellAfter h (front ++ rest.takeWhile fun t => !req.suits T (s.tbs t)),
        lastTooLarge (fun t => req.tooLarge T (s.tbs t))
          (front ++ rest.takeWhile fun t => !req.suits T (s.tbs t)),
        rest.find? fun t => req.suits T (s.tbs t)) := by
  induction rest generalizing front fuel with
  | nil =>
    obtain ⟨less, rfl⟩ := exists_eq_succ_of_ne_zero (Nat.ne_of_gt enough)
    rw [append_nil] at shape
    have final : s.hash (cellAfter h front) = none := by
      rw [← shape]
      exact (buckets.segment_bucket h).lastCell_eq
    simp [searchBucket, final]
  | cons tb rest ih =>
    obtain ⟨less, rfl⟩ := exists_eq_succ_of_ne_zero (Nat.ne_of_gt (zero_lt_of_lt enough))
    have next : s.hash (cellAfter h front) = some tb := by
      have segment := buckets.segment_bucket h
      rw [shape, segment_append] at segment
      exact segment.1.lastCell_eq
    cases suits : req.suits T (s.tbs tb) with
    | true => simp [searchBucket, next, suits]
    | false =>
      have shape' : bucket h = (front ++ [tb]) ++ rest := by simp [shape]
      have later := ih (front ++ [tb]) shape' (lt_of_succ_lt_succ enough)
      rw [cellAfter_append, lastTooLarge_concat] at later
      rw [searchBucket, next]
      simp [suits, later]

end Search

/-! ### Where the returned block stands -/

section Placed

variable {T : Target} {s : State} {bucket : Nat → List TbId} {h : Nat} {tb : TbId}
  (large : TbId → Bool)

theorem kept_append_passed (wasCut : Bool) (searched : List TbId) :
    keptInFront large wasCut searched ++ passedOver large wasCut searched = searched := by
  cases wasCut with
  | false => rfl
  | true => exact rdropWhile_append_rtakeWhile

theorem lastTooLarge_cases (searched : List TbId) : (lastTooLarge large searched = none ∧
        keptInFront large true searched = [] ∧ passedOver large true searched = searched) ∨
      ∃ front prev, lastTooLarge large searched = some prev ∧
        keptInFront large true searched = front ++ [prev] ∧
        searched = front ++ prev :: passedOver large true searched := by
  have whole := kept_append_passed large true searched
  rcases eq_nil_or_concat (keptInFront large true searched) with empty | ⟨front, prev, kept⟩
  · left
    rw [empty, nil_append] at whole
    refine ⟨?_, empty, whole⟩
    exact (congrArg getLast? empty).trans getLast?_nil
  · right
    rw [concat_eq_append] at kept
    refine ⟨front, prev, ?_, kept, ?_⟩
    · exact (congrArg getLast? kept).trans getLast?_concat
    · rw [kept, append_assoc] at whole
      exact whole.symm

theorem relink_found (buckets : Buckets s.hash bucket) {searched back : List TbId}
    (shape : bucket h = searched ++ tb :: back) :
    Buckets (relink s h (cellAfter h searched) (lastTooLarge large searched) tb)
      (update bucket h (keptInFront large (s.tbs tb).wasCut searched ++
        tb :: (passedOver large (s.tbs tb).wasCut searched ++ back))) := by
  have toFront := moveToFront_of_mem buckets shape
  rcases lastTooLarge_cases large searched with
    ⟨noPrev, kept, passed⟩ | ⟨front, prev, isPrev, kept, split⟩
  · rw [noPrev, relink]
    cases (s.tbs tb).wasCut with
    | false => exact toFront
    | true =>
      rw [kept, passed]
      exact toFront
  · rw [isPrev, relink]
    cases (s.tbs tb).wasCut with
    | false => exact toFront
    | true =>
      rw [if_pos rfl, kept, append_assoc, singleton_append]
      have shape' : bucket h = front ++ prev :: (passedOver large true searched ++ tb :: back) := by
        rw [shape, ← cons_append, ← append_assoc, ← split]
      have moved := moveBehind_of_mem buckets shape'
      rwa [← split] at moved

theorem relink_generated (buckets : Buckets s.hash bucket) (fresh : ∀ h, tb ∉ bucket h)
    (next : s.hash (.physHashNext tb) = none) :
    Buckets (relink s h (cellAfter h (bucket h)) (lastTooLarge large (bucket h)) tb)
      (update bucket h (keptInFront large (s.tbs tb).wasCut (bucket h) ++
        tb :: passedOver large (s.tbs tb).wasCut (bucket h))) := by
  have toFront := moveToFront_of_fresh (h := h) buckets fresh next
  rcases lastTooLarge_cases large (bucket h) with
    ⟨noPrev, kept, passed⟩ | ⟨front, prev, isPrev, kept, split⟩
  · rw [noPrev, relink]
    cases (s.tbs tb).wasCut with
    | false => exact toFront
    | true =>
      rw [kept, passed]
      exact toFront
  · rw [isPrev, relink]
    cases (s.tbs tb).wasCut with
    | false => exact toFront
    | true =>
      rw [if_pos rfl, kept, append_assoc, singleton_append]
      exact moveBehind_of_fresh buckets split fresh next

end Placed

/-! ### Order of two lists of blocks -/

section Kept

variable {T : Target} {s s' : State} {σ σ' : Shape}

theorem State.Ordered.of_sublist (ordered : s.Ordered) (rep : Represents T s σ)
    (rep' : Represents T s' σ') (fewer : ∀ h, (σ'.bucket h).Sublist (σ.bucket h))
    (same : ∀ h, ∀ u ∈ σ'.bucket h, ∀ v ∈ σ'.bucket h,
      Precedes (s.tbs u) (s.tbs v) → Precedes (s'.tbs u) (s'.tbs v)) : s'.Ordered := by
  rw [rep'.ordered_iff]
  intro h
  have before := (rep.ordered_iff.mp ordered h).sublist (fewer h)
  exact before.imp_of_mem fun {u v} inFirst inSecond => same h u inFirst v inSecond

theorem State.Ordered.of_records (ordered : s.Ordered) (rep : Represents T s σ)
    (rep' : Represents T s' σ') (fewer : ∀ h, (σ'.bucket h).Sublist (σ.bucket h))
    (same : ∀ h, ∀ t ∈ σ'.bucket h, s'.tbs t = s.tbs t) : s'.Ordered := by
  apply ordered.of_sublist rep rep' fewer
  intro h u inFirst v inSecond precedes
  rwa [same h u inFirst, same h v inSecond]

theorem Generated.bucket_sublist {pages : PageMap} {pc csBase flags : Nat} {gen : Generation}
    {tb : TbId} (made : Generated T s σ pages pc csBase flags gen s' tb σ') (h : Nat) :
    (σ'.bucket h).Sublist (σ.bucket h) := by
  rw [made.bucket]
  split_ifs
  · exact nil_sublist _
  · exact filter_sublist

theorem Generated.record_of_bucket {pages : PageMap} {pc csBase flags : Nat} {gen : Generation}
    {tb : TbId} (made : Generated T s σ pages pc csBase flags gen s' tb σ') {h : Nat} {t : TbId}
    (member : t ∈ σ'.bucket h) : s'.tbs t = s.tbs t :=
  made.others t (made.rep.bucketLive h t member) fun isNew => made.unhashed h (isNew ▸ member)

theorem Represents.ordered_update_iff {l : List TbId} {h : Nat}
    (rep' : Represents T s' { σ with bucket := update σ.bucket h l })
    (others : ∀ j, j ≠ h → (σ.bucket j).Pairwise fun u v => Precedes (s'.tbs u) (s'.tbs v)) :
    s'.Ordered ↔ l.Pairwise fun u v => Precedes (s'.tbs u) (s'.tbs v) := by
  have lists : ∀ j, s'.bucketList j = update σ.bucket h l j := rep'.bucketList_eq
  simp only [State.Ordered, lists]
  constructor
  · intro everywhere
    have here := everywhere h
    rwa [update_self] at here
  · intro here j
    by_cases isH : j = h
    · rw [isH, update_self]
      exact here
    · rw [update_of_ne isH]
      exact others j isH

end Kept

/-! ### `tb_find_slow` -/

section FindSlow

variable {T : Target} {s s' : State} {σ : Shape} {req : FindRequest} {tb r : TbId}

theorem search_eq (rep : Represents T s σ) (req : FindRequest) :
    searchBucket T s.clearFlag req (s.clearFlag.nbTbs + 1) (.bucket (req.hashIndex T)) none =
      some (cellAfter (req.hashIndex T) (req.searched T s),
        lastTooLarge (fun t => req.tooLarge T (s.tbs t)) (req.searched T s),
        (req.bucketOf T s).find? fun t => req.suits T (s.tbs t)) := by
  have enough : (σ.bucket (req.hashIndex T)).length < s.nbTbs + 1 :=
    lt_succ_of_le (rep.bucket_length_le _)
  rw [FindRequest.searched, FindRequest.bucketOf, rep.bucketList_eq]
  exact searchBucket_eq (s := s.clearFlag) rep.buckets [] (nil_append _).symm enough

theorem found_split (found : req.found T s = some r) :
    req.cacheDisabled = false ∧ req.suits T (s.tbs r) = true ∧
      ∃ back, req.bucketOf T s = req.searched T s ++ r :: back := by
  unfold FindRequest.found at found
  split_ifs at found with disabled
  have suits : req.suits T (s.tbs r) = true :=
    List.find?_some (p := fun t => req.suits T (s.tbs t)) found
  refine ⟨by simpa using disabled, suits, ?_⟩
  rw [List.find?_eq_head?_dropWhile_not, head?_eq_some_iff] at found
  obtain ⟨back, rest⟩ := found
  refine ⟨back, ?_⟩
  rw [FindRequest.searched, ← rest, takeWhile_append_dropWhile]

theorem searched_of_none (enabled : req.cacheDisabled = false) (missed : req.found T s = none) :
    req.searched T s = req.bucketOf T s ∧
      (req.bucketOf T s).find? (fun t => req.suits T (s.tbs t)) = none := by
  rw [FindRequest.found, if_neg (by simp [enabled])] at missed
  refine ⟨?_, missed⟩
  rw [FindRequest.searched, takeWhile_eq_self_iff]
  intro t member
  have refused := List.find?_eq_none.mp missed t member
  simpa using refused

theorem tbFindSlow_found (rep : Represents T s σ) (found : req.found T s = some r) :
    tbFindSlow T s req =
      some (returnFound T s.clearFlag req (cellAfter (req.hashIndex T) (req.searched T s))
        (lastTooLarge (fun t => req.tooLarge T (s.tbs t)) (req.searched T s)) r, r) := by
  obtain ⟨enabled, -, -⟩ := found_split found
  have first : (req.bucketOf T s).find? (fun t => req.suits T (s.tbs t)) = some r := by
    rwa [FindRequest.found, if_neg (by simp [enabled])] at found
  simp [tbFindSlow, enabled, search_eq rep, first]

theorem tbFindSlow_missed (rep : Represents T s σ) (enabled : req.cacheDisabled = false)
    (missed : req.found T s = none) :
    tbFindSlow T s req =
      generateFound T s.clearFlag req (cellAfter (req.hashIndex T) (req.bucketOf T s))
        (lastTooLarge (fun t => req.tooLarge T (s.tbs t)) (req.bucketOf T s)) := by
  obtain ⟨passed, noneSuits⟩ := searched_of_none enabled missed
  simp [tbFindSlow, enabled, search_eq rep, noneSuits, passed]

theorem variants_comm (tb1 tb2 : TranslationBlock) : variants tb1 tb2 = variants tb2 tb1 :=
  Bool.or_comm _ _

theorem sameCode_of_variants {block other : TranslationBlock} (same : req.sameCode T block = true)
    (isVariant : variants block other = true) : req.sameCode T other = true := by
  simp only [variants, tbBlocksRelated, FindRequest.sameCode, and_eq_true, or_eq_true,
    decide_eq_true_eq] at same isVariant ⊢
  grind

theorem elsewhere_of_refused {block other : TranslationBlock} (same : req.sameCode T block = true)
    (isVariant : variants block other = true) (within : other.icount ≤ req.maxIcount)
    (refused : req.suits T other = false) : req.Elsewhere T block other := by
  refine ⟨isVariant, within, ?_⟩
  simpa [FindRequest.suits, sameCode_of_variants same isVariant, within] using refused

/-- The place keeps the order exactly if the block is rightly placed. -/
theorem placed_iff {block : TranslationBlock} {met : List TbId}
    (same : req.sameCode T block = true) (within : block.icount ≤ req.maxIcount)
    (refused : ∀ u ∈ met, req.suits T (s.tbs u) = false) : req.Placed T s block met ↔
      (∀ u ∈ keptInFront (fun t => req.tooLarge T (s.tbs t)) block.wasCut met,
        Precedes (s.tbs u) block) ∧
      ∀ u ∈ passedOver (fun t => req.tooLarge T (s.tbs t)) block.wasCut met,
        Precedes block (s.tbs u) := by
  have whole := kept_append_passed (fun t => req.tooLarge T (s.tbs t)) block.wasCut met
  constructor
  · intro placed
    refine ⟨fun u member isVariant => ?_, fun u member isVariant => ?_⟩
    · rw [variants_comm] at isVariant
      have inMet : u ∈ met := whole ▸ mem_append_left _ member
      rcases Nat.lt_or_ge req.maxIcount (s.tbs u).icount with large | fits
      · omega
      · exact placed.kept u member (elsewhere_of_refused same isVariant fits (refused u inMet))
    · have inMet : u ∈ met := whole ▸ mem_append_right _ member
      rcases Nat.lt_or_ge req.maxIcount (s.tbs u).icount with large | fits
      · -- a block above the budget is passed by uncut blocks only
        cases cut : block.wasCut with
        | false =>
          have small := placed.uncut cut u inMet isVariant
          omega
        | true =>
          rw [cut] at member
          have notLarge := mem_rtakeWhile_imp member
          simp [FindRequest.tooLarge, sameCode_of_variants same isVariant, large] at notLarge
      · exact placed.passed u member (elsewhere_of_refused same isVariant fits (refused u inMet))
  · rintro ⟨inFront, behind⟩
    refine ⟨fun cut u member isVariant => ?_, fun u member elsewhere => ?_,
      fun u member elsewhere => ?_⟩
    · rw [cut] at behind
      exact (behind u member isVariant).trans within
    · exact behind u member elsewhere.1
    · exact inFront u member ((variants_comm _ _).trans elsewhere.1)

theorem refused_of_searched : ∀ u ∈ req.searched T s, req.suits T (s.tbs u) = false :=
  fun _ member => by simpa using mem_takeWhile_imp member

theorem found_ordered_iff (rep : Represents T s σ) (ordered : s.Ordered)
    (found : req.found T s = some r) (done : tbFindSlow T s req = some (s', tb)) :
    s'.Ordered ↔ req.KeepsOrder T s := by
  obtain ⟨-, suits, back, shape⟩ := found_split found
  have list : req.bucketOf T s = σ.bucket (req.hashIndex T) := rep.bucketList_eq _
  simp only [FindRequest.suits, and_eq_true, decide_eq_true_eq] at suits
  have placed := placed_iff suits.1.1 suits.1.2 (refused_of_searched (T := T) (s := s))
  rw [tbFindSlow_found rep found] at done
  cases done
  have buckets := relink_found (s := s.clearFlag) (fun t => req.tooLarge T (s.tbs t)) rep.buckets
    (list.symm.trans shape)
  have rep' := returnFound_represents rep.clearFlag buckets fun t member => by
    rw [← list, shape]
    have whole := kept_append_passed (fun t => req.tooLarge T (s.tbs t))
      (s.tbs tb).wasCut (req.searched T s)
    have inWhole := congrArg (t ∈ ·) whole
    simp only [mem_append, mem_cons, eq_iff_iff] at member inWhole ⊢
    tauto
  rw [rep'.ordered_update_iff fun j _ => rep.ordered_iff.mp ordered j, pairwise_move_iff]
  · constructor
    · intro passes
      refine ⟨fun r' found' => ?_, fun missed => ?_⟩
      · rw [found] at found'
        cases found'
        refine placed.mpr ⟨fun u member => ?_, passes⟩
        -- what stays in front was there before
        have inOrder : (req.bucketOf T s).Pairwise fun u v => Precedes (s.tbs u) (s.tbs v) :=
          ordered _
        rw [shape, pairwise_append] at inOrder
        refine inOrder.2.2 u ?_ tb mem_cons_self
        have whole := kept_append_passed (fun t => req.tooLarge T (s.tbs t))
          (s.tbs tb).wasCut (req.searched T s)
        exact whole ▸ mem_append_left _ member
      · rw [found] at missed
        exact absurd missed (some_ne_none tb)
    · intro keeps
      exact (placed.mp (keeps.relinked tb found)).2
  · rw [kept_append_passed, ← shape, list]
    exact rep.ordered_iff.mp ordered _

theorem quiet_iff {s₁ : State} {σ₁ : Shape} (rep : Represents T s σ)
    (made : Generated T s.clearFlag σ req.pages req.pc req.csBase req.flags req.generation
      s₁ tb σ₁) :
    req.Quiet T s ↔ req.cacheDisabled = false ∧ s₁.tbInvalidatedFlag = false := by
  have flag : s₁.tbInvalidatedFlag = true ↔
      s.full = true ∨ ∃ t ∈ req.generation.invalidated, s.Hashed T t := by
    rw [made.flag]
    simp only [rep.hashed_iff]
    exact or_iff_right Bool.false_ne_true
  rw [← not_eq_true s₁.tbInvalidatedFlag, flag, not_or, not_eq_true, not_exists]
  simp [FindRequest.Quiet]

theorem Generated.bucket_eq_of_quiet {s₁ : State} {σ₁ : Shape} (rep : Represents T s σ)
    (made : Generated T s.clearFlag σ req.pages req.pc req.csBase req.flags req.generation
      s₁ tb σ₁) (quiet : req.Quiet T s) (h : Nat) : σ₁.bucket h = σ.bucket h := by
  have room : s.clearFlag.full = false := quiet.2.1
  rw [made.bucket, room, if_neg Bool.false_ne_true, filter_eq_self]
  intro t member
  have outside : t ∉ req.generation.invalidated := fun inList =>
    quiet.2.2 t inList ((rep.hashed_iff t).mpr ⟨h, member⟩)
  simpa using outside

theorem lost_ordered (rep : Represents T s σ) (ordered : s.Ordered) {s₁ : State} {σ₁ : Shape}
    (made : Generated T s.clearFlag σ req.pages req.pc req.csBase req.flags req.generation
      s₁ tb σ₁) :
    (returnFound T s₁ req (.bucket (req.hashIndex T)) none tb).Ordered := by
  have alone : Buckets (relink s₁ (req.hashIndex T) (.bucket (req.hashIndex T)) none tb)
      (update σ₁.bucket (req.hashIndex T) [tb]) :=
    moveToFront_of_head made.rep.buckets made.unhashed made.nextNull
  have rep' := returnFound_represents made.rep alone fun t isTb => by
    rw [mem_singleton.mp isTb]
    exact inr ⟨made.hashIndex, (made.live tb).mpr (inl rfl)⟩
  have survivors : s₁.Ordered := ordered.of_records rep made.rep made.bucket_sublist
    fun h t member => made.record_of_bucket member
  rw [rep'.ordered_update_iff fun j _ => made.rep.ordered_iff.mp survivors j]
  exact pairwise_singleton _ tb

theorem generated_sameCode {s₁ : State} {σ₁ : Shape} {tb : TbId}
    (made : Generated T s.clearFlag σ req.pages req.pc req.csBase req.flags req.generation
      s₁ tb σ₁) : req.sameCode T (s₁.tbs tb) = true := by
  rw [made.record]
  simp [FindRequest.sameCode, FindRequest.physPage1]

theorem quiet_ordered_iff (rep : Represents T s σ) (ordered : s.Ordered)
    (within : req.generation.icount ≤ req.maxIcount)
    (missed : req.found T s = none) (quiet : req.Quiet T s)
    (done : tbFindSlow T s req = some (s', tb)) : s'.Ordered ↔ req.KeepsOrder T s := by
  obtain ⟨s₁, new, σ₁, done₁, made⟩ :=
    tbGenCode_eq rep.clearFlag req.pages req.pc req.csBase req.flags req.generation
  obtain ⟨enabled, flag⟩ := (quiet_iff rep made).mp quiet
  rw [tbFindSlow_missed rep enabled missed, generateFound, done₁] at done
  simp only [bind_eq_bind, bind_some, flag, false_eq_true, if_false] at done
  cases done
  have list : req.bucketOf T s = σ.bucket (req.hashIndex T) := rep.bucketList_eq _
  have same : σ₁.bucket (req.hashIndex T) = req.bucketOf T s :=
    (made.bucket_eq_of_quiet rep quiet _).trans list.symm
  have record : s₁.tbs tb = req.newRecord T := made.record
  have whole := kept_append_passed (fun t => req.tooLarge T (s.tbs t))
    (s₁.tbs tb).wasCut (req.bucketOf T s)
  have buckets := relink_generated (h := req.hashIndex T) (fun t => req.tooLarge T (s.tbs t))
    made.rep.buckets made.unhashed made.nextNull
  rw [same] at buckets
  have rep' := returnFound_represents made.rep buckets fun t member => by
    have inWhole := congrArg (t ∈ ·) whole
    simp only [mem_append, mem_cons, eq_iff_iff] at member inWhole
    rw [same, ← inWhole]
    by_cases isNew : t = tb
    · rw [isNew]
      exact inr ⟨made.hashIndex, (made.live tb).mpr (inl rfl)⟩
    · exact inl (member.imp_right fun rest => rest.resolve_left isNew)
  have survivors : s₁.Ordered := ordered.of_records rep made.rep made.bucket_sublist
    fun h t member => made.record_of_bucket member
  have before := made.rep.ordered_iff.mp survivors
  have placed := before (req.hashIndex T)
  rw [same, ← whole] at placed
  rw [rep'.ordered_update_iff fun j _ => before j]
  change List.Pairwise (fun u v => Precedes (s₁.tbs u) (s₁.tbs v)) _ ↔ _
  -- the records of the bucket are those of the searched one
  have records : ∀ t, t ∈ keptInFront (fun t => req.tooLarge T (s.tbs t))
        (s₁.tbs tb).wasCut (req.bucketOf T s) ∨
      t ∈ passedOver (fun t => req.tooLarge T (s.tbs t)) (s₁.tbs tb).wasCut (req.bucketOf T s) →
      s₁.tbs t = s.tbs t := by
    intro t either
    rw [← mem_append, whole, ← same] at either
    exact made.record_of_bucket either
  have isNew := generated_sameCode made
  have refused : ∀ u ∈ req.searched T s, req.suits T (s.tbs u) = false := refused_of_searched
  rw [record] at isNew
  rw [(searched_of_none enabled missed).1] at refused
  have rightly := placed_iff isNew within refused
  rw [pairwise_insert_iff placed]
  rw [record] at records ⊢
  constructor
  · rintro ⟨larger, smaller⟩
    refine ⟨fun r found => absurd (found.symm.trans missed) (some_ne_none r),
      fun _ _ => rightly.mpr ⟨fun u member => ?_, fun u member => ?_⟩⟩
    · rw [← records u (inl member)]
      exact larger u member
    · rw [← records u (inr member)]
      exact smaller u member
  · intro keeps
    obtain ⟨larger, smaller⟩ := rightly.mp (keeps.generated missed quiet)
    refine ⟨fun u member => ?_, fun u member => ?_⟩
    · rw [records u (inl member)]
      exact larger u member
    · rw [records u (inr member)]
      exact smaller u member

theorem tbFindSlow_stale (rep : Represents T s σ) (missed : req.found T s = none)
    (disturbed : ¬ req.Quiet T s) :
    ∃ s₁ tb σ₁, tbFindSlow T s req =
        some (returnFound T s₁ req (.bucket (req.hashIndex T)) none tb, tb) ∧
      Generated T s.clearFlag σ req.pages req.pc req.csBase req.flags req.generation s₁ tb σ₁ := by
  obtain ⟨s₁, tb, σ₁, done, made⟩ :=
    tbGenCode_eq rep.clearFlag req.pages req.pc req.csBase req.flags req.generation
  refine ⟨s₁, tb, σ₁, ?_, made⟩
  cases disabled : req.cacheDisabled with
  | true =>
    simp [tbFindSlow, disabled, generateFound, done]
  | false =>
    have flag : s₁.tbInvalidatedFlag = true := by
      by_contra clear
      exact disturbed ((quiet_iff rep made).mpr ⟨disabled, by simpa using clear⟩)
    rw [tbFindSlow_missed rep disabled missed, generateFound, done]
    simp [flag]

theorem tbFindSlow_ordered_iff (rep : Represents T s σ) (ordered : s.Ordered)
    (within : req.generation.icount ≤ req.maxIcount)
    (done : tbFindSlow T s req = some (s', tb)) : s'.Ordered ↔ req.KeepsOrder T s := by
  cases search : req.found T s with
  | some r => exact found_ordered_iff rep ordered search done
  | none =>
    by_cases quiet : req.Quiet T s
    · exact quiet_ordered_iff rep ordered within search quiet done
    · obtain ⟨s₁, new, σ₁, stale, made⟩ := tbFindSlow_stale rep search quiet
      rw [stale] at done
      cases done
      refine iff_of_true (lost_ordered rep ordered made)
        ⟨fun r found => ?_, fun _ isQuiet => absurd isQuiet quiet⟩
      exact absurd (found.symm.trans search) (some_ne_none r)

end FindSlow

/-! ### `tb_phys_hash_insert` -/

theorem variants_of_related {tb act u : TranslationBlock} (related : tbBlocksRelated tb act = true)
    (isVariant : variants tb u = true) : variants act u = true := by
  simp only [variants, tbBlocksRelated, and_eq_true, or_eq_true, decide_eq_true_eq,
    isNone_iff_eq_none] at related isVariant ⊢
  grind

/-- A block that the walk of an insertion passes is larger, unless only the other side sees that
it is related. -/
theorem le_of_skipped {record other : TranslationBlock}
    (skipped : (!(tbBlocksRelated record other && other.icount ≤ record.icount)) = true)
    (isVariant : variants other record = true)
    (keeps : record.pageAddr1 = none → other.pageAddr1 ≠ none →
      tbBlocksRelated other record = true → record.icount ≤ other.icount) :
    record.icount ≤ other.icount := by
  cases seen : tbBlocksRelated record other with
  | true =>
    simp [seen] at skipped
    omega
  | false =>
    rw [variants, seen, Bool.or_false] at isVariant
    refine keeps ?_ ?_ isVariant <;>
      simp only [tbBlocksRelated, and_eq_true, or_eq_true, decide_eq_true_eq, isNone_iff_eq_none,
        Bool.eq_false_iff, ne_eq] at isVariant seen ⊢ <;>
      grind

section Insert

variable {T : Target} {s s' : State} {σ : Shape} {tb : TbId}

theorem precedes_dropWhile {tbs : TbId → TranslationBlock} {l : List TbId}
    (ordered : l.Pairwise fun u v => Precedes (tbs u) (tbs v)) :
    ∀ u ∈ l.dropWhile (fun act => !insertBefore tbs tb act), Precedes (tbs tb) (tbs u) := by
  intro u member
  cases rest : l.dropWhile (fun act => !insertBefore tbs tb act) with
  | nil =>
    rw [rest] at member
    exact absurd member not_mem_nil
  | cons act back =>
    have stopped := head?_dropWhile_not (fun act => !insertBefore tbs tb act) l
    rw [rest] at stopped
    simp only [head?_cons, not_eq_false', insertBefore, and_eq_true,
      decide_eq_true_eq] at stopped
    obtain ⟨related, smaller⟩ := stopped
    have behind := ordered.sublist (dropWhile_sublist fun act => !insertBefore tbs tb act)
    rw [rest] at member behind
    intro isVariant
    rcases mem_cons.mp member with rfl | later
    · exact smaller
    · have fewer := (pairwise_cons.mp behind).1 u later
      exact Nat.le_trans (fewer (variants_of_related related isVariant)) smaller

theorem insert_ordered_iff (rep : Represents T s σ) (ordered : s.Ordered)
    {pages : PageMap} {pc csBase flags : Nat} {gen : Generation}
    (done : tbGenAndInsert T s pages pc csBase flags gen = some (s', tb)) :
    s'.Ordered ↔ InsertKeepsOrder T s pages pc csBase flags gen := by
  obtain ⟨s₁, new, σ₁, hash, done₁, made, rep'⟩ := tbGenAndInsert_eq rep pages pc csBase flags gen
  rw [done] at done₁
  cases done₁
  have survivors : s₁.Ordered := ordered.of_records rep made.rep made.bucket_sublist
    fun h t member => made.record_of_bucket member
  have before := made.rep.ordered_iff.mp survivors
  have record : s₁.tbs tb = generatedRecord T pages pc csBase flags gen false := made.record
  have list : σ₁.bucket ((s₁.tbs tb).hashIndex T) =
      if s.full then [] else (s.bucketList ((s₁.tbs tb).hashIndex T)).filter
        fun t => t ∉ gen.invalidated := by
    rw [rep.bucketList_eq]
    exact made.bucket _
  have records : ∀ t ∈ σ₁.bucket ((s₁.tbs tb).hashIndex T), s₁.tbs t = s.tbs t := fun t member =>
    made.record_of_bucket member
  have whole := takeWhile_append_dropWhile (p := fun act => !insertBefore s₁.tbs tb act)
    (l := σ₁.bucket ((s₁.tbs tb).hashIndex T))
  have placed := before ((s₁.tbs tb).hashIndex T)
  rw [← whole] at placed
  rw [rep'.ordered_update_iff fun j _ => before j, insertInto]
  rw [pairwise_insert_iff placed, and_iff_left (precedes_dropWhile (before _))]
  have sameFront : (σ₁.bucket ((s₁.tbs tb).hashIndex T)).takeWhile
        (fun act => !insertBefore s₁.tbs tb act) =
      (σ₁.bucket ((s₁.tbs tb).hashIndex T)).takeWhile fun act =>
        !(tbBlocksRelated (s₁.tbs tb) (s.tbs act) && (s.tbs act).icount ≤ (s₁.tbs tb).icount) := by
    apply takeWhile_congr
    intro t member
    rw [insertBefore, records t member]
  rw [sameFront, InsertKeepsOrder, ← record, ← list]
  constructor
  · intro inOrder onePage u member twoPages related
    have precedes := inOrder u member
    rw [records u (takeWhile_subset _ member)] at precedes
    exact precedes (by rw [variants, related, Bool.true_or])
  · intro keeps u member isVariant
    rw [records u (takeWhile_subset _ member)] at isVariant ⊢
    have skipped := mem_takeWhile_imp member
    exact le_of_skipped skipped isVariant (keeps · u member)

end Insert

/-! ### Steps -/

section Steps

variable {T : Target} {s s' : State} {σ : Shape}

theorem markDirty_ordered (rep : Represents T s σ) (ordered : s.Ordered) (tb : TbId) :
    (s.setTb tb { s.tbs tb with dirtyFlag := true }).Ordered := by
  have key : ∀ t, ∃ dirtyFlag, (s.setTb tb { s.tbs tb with dirtyFlag := true }).tbs t =
      { s.tbs t with dirtyFlag := dirtyFlag } := by
    intro t
    by_cases isTb : t = tb
    · rw [isTb, s.setTb_self]
      exact ⟨true, rfl⟩
    · rw [s.setTb_of_ne _ isTb]
      exact ⟨(s.tbs t).dirtyFlag, rfl⟩
  apply ordered.of_sublist rep (markDirty_represents rep tb) fun h => List.Sublist.refl _
  intro h u _ v _ precedes
  obtain ⟨first, recordU⟩ := key u
  obtain ⟨second, recordV⟩ := key v
  rw [recordU, recordV]
  exact precedes

theorem Step.ordered_iff {event : Event} (rep : Represents T s σ) (ordered : s.Ordered)
    (within : event.Budgeted) (step : Step T s event s') : s'.Ordered ↔ event.KeepsOrder T s := by
  cases step with
  | findSlow req done => exact tbFindSlow_ordered_iff rep ordered within done
  | link pages pc csBase flags gen done =>
    obtain ⟨s₁, tb, σ₁, done₁, made⟩ := tbGenCode_eq rep pages pc csBase flags gen
    rw [done] at done₁
    cases done₁
    refine iff_of_true ?_ trivial
    exact ordered.of_records rep made.rep made.bucket_sublist
      fun h t member => made.record_of_bucket member
  | insert pages pc csBase flags gen done => exact insert_ordered_iff rep ordered done
  | addJump tb n tbNext source target =>
    obtain ⟨jump, jmpTarget, same⟩ := tbAddJump_same s tb n tbNext
    refine iff_of_true ?_ trivial
    apply ordered.of_records rep (addJump_represents rep source target)
      fun h => List.Sublist.refl _
    intro h t _
    rw [same]
  | invalidate tb done =>
    obtain ⟨s₁, σ₁, done₁, effect⟩ := tbPhysInvalidate_after rep tb
    rw [done] at done₁
    cases done₁
    refine iff_of_true ?_ trivial
    apply ordered.of_records rep effect.rep
    · intro h
      rw [effect.bucket]
      exact filter_sublist
    · intro h t _
      exact congrFun effect.same.tbs t
  | flush =>
    refine iff_of_true ?_ trivial
    exact ordered.of_records rep (flush_represents rep) (fun h => nil_sublist _)
      fun h t member => absurd member not_mem_nil
  | markDirty tb => exact iff_of_true (markDirty_ordered rep ordered tb) trivial
  | forget tbJmpCache _ =>
    have rep' : Represents T { s with tbJmpCache := tbJmpCache } σ :=
      ⟨rep.buckets, rep.bucketHome, rep.bucketLive, rep.pages, rep.graph, rep.liveLinked,
        rep.unpatched⟩
    refine iff_of_true ?_ trivial
    exact ordered.of_records rep rep' (fun h => List.Sublist.refl _) fun _ _ _ => rfl

theorem initial_ordered (s : State) (rep : Represents T s Shape.empty) : s.Ordered :=
  rep.ordered_iff.mpr fun _ => List.Pairwise.nil

theorem ReachableBy.ordered (reachable : ReachableBy T (Event.InOrder T) s) : s.Ordered := by
  obtain ⟨σ, -, ordered⟩ := reachable.invariant (P := fun s _ => s.Ordered)
    (fun start initial => initial_ordered start
      (represents_empty T start initial.noBlocks initial.noBuckets initial.noPages))
    fun s σ event s' rep ordered keeps step => by
      obtain ⟨σ', rep'⟩ := step.represents rep
      exact ⟨σ', rep', (step.ordered_iff rep ordered keeps.1).mpr keeps.2⟩
  exact ordered

end Steps

/-! ### The answer of a request -/

/-- The returned block is the largest of the cached ones within the budget. -/
structure FindRequest.Served (T : Target) (req : FindRequest) (s s' : State) (r : TbId) : Prop where
  sameCode : req.sameCode T (s'.tbs r) = true
  withinBudget : (s'.tbs r).icount ≤ req.maxIcount
  largest : req.cacheDisabled = false → ∀ u, s.Hashed T u → req.suits T (s.tbs u) = true →
    s.Hashed T r ∧ req.suits T (s.tbs r) = true ∧ (s.tbs u).icount ≤ (s.tbs r).icount

section Answers

variable {T : Target} {s : State} {σ : Shape} {req : FindRequest}

theorem variants_of_suits {tb1 tb2 : TranslationBlock} (first : req.suits T tb1 = true)
    (second : req.suits T tb2 = true) : variants tb1 tb2 = true := by
  simp only [FindRequest.suits, FindRequest.sameCode, FindRequest.nextPageMatches,
    and_eq_true, decide_eq_true_eq] at first second
  simp only [variants, tbBlocksRelated, and_eq_true, or_eq_true, decide_eq_true_eq,
    isNone_iff_eq_none]
  grind

theorem bucketOf_of_suits (rep : Represents T s σ) {u : TbId} (hashed : s.Hashed T u)
    (suits : req.suits T (s.tbs u) = true) : u ∈ req.bucketOf T s := by
  have key : (s.tbs u).pageAddr0 = req.physPage1 T ∧ (s.tbs u).pc = req.pc := by
    simp only [FindRequest.suits, FindRequest.sameCode, and_eq_true,
      decide_eq_true_eq] at suits
    exact ⟨suits.1.1.1.1.2, suits.1.1.1.1.1⟩
  have home : (s.tbs u).hashIndex T = req.hashIndex T := FindRequest.hashIndex_of_record key.1 key.2
  have member := (rep.mem_bucket_iff u).mp ((rep.hashed_iff u).mp hashed)
  rw [FindRequest.bucketOf, rep.bucketList_eq, ← home]
  exact member

theorem found_largest (rep : Represents T s σ) (ordered : s.Ordered) {r u : TbId}
    (found : req.found T s = some r) (hashed : s.Hashed T u)
    (suits : req.suits T (s.tbs u) = true) : (s.tbs u).icount ≤ (s.tbs r).icount := by
  obtain ⟨-, answers, back, shape⟩ := found_split found
  have member := bucketOf_of_suits rep hashed suits
  have inOrder : (req.bucketOf T s).Pairwise fun u v => Precedes (s.tbs u) (s.tbs v) := ordered _
  rw [shape, mem_append, mem_cons] at member
  rw [shape, pairwise_append, pairwise_cons] at inOrder
  rcases member with passed | rfl | behind
  · have refused := mem_takeWhile_imp passed
    rw [suits] at refused
    exact absurd refused (by decide)
  · exact Nat.le_refl _
  · exact inOrder.2.1.1 u behind (variants_of_suits answers suits)

theorem found_of_suits (rep : Represents T s σ) (enabled : req.cacheDisabled = false) {u : TbId}
    (hashed : s.Hashed T u) (suits : req.suits T (s.tbs u) = true) :
    ∃ r, req.found T s = some r := by
  rw [FindRequest.found, if_neg (by simp [enabled]), ← isSome_iff_exists, List.find?_isSome]
  exact ⟨u, bucketOf_of_suits rep hashed suits, suits⟩

theorem found_hashed (rep : Represents T s σ) {r : TbId} (found : req.found T s = some r) :
    s.Hashed T r := by
  obtain ⟨-, -, back, shape⟩ := found_split found
  have member : r ∈ req.bucketOf T s := by simp [shape]
  rw [FindRequest.bucketOf, rep.bucketList_eq] at member
  exact (rep.hashed_iff r).mpr ⟨_, member⟩

theorem tbFindSlow_served (rep : Represents T s σ) (ordered : s.Ordered)
    (within : req.generation.icount ≤ req.maxIcount) :
    ∃ s' r, tbFindSlow T s req = some (s', r) ∧ req.Served T s s' r := by
  cases search : req.found T s with
  | some r =>
    obtain ⟨-, suits, -⟩ := found_split search
    have parts := suits
    simp only [FindRequest.suits, and_eq_true, decide_eq_true_eq] at parts
    refine ⟨_, r, tbFindSlow_found rep search, parts.1.1, parts.1.2, fun _ u hashed answers => ?_⟩
    exact ⟨found_hashed rep search, suits, found_largest rep ordered search hashed answers⟩
  | none =>
    have notHit : ¬ Hit T s σ req := by
      rintro ⟨enabled, t, member, suits⟩
      have hashed : s.Hashed T t := (rep.hashed_iff t).mpr ⟨_, member⟩
      obtain ⟨r, found⟩ := found_of_suits rep enabled hashed suits
      exact some_ne_none r (found.symm.trans search)
    obtain ⟨s', tb, σ', s₁, σ₁, done, result⟩ := tbFindSlow_miss rep notHit
    refine ⟨s', tb, done, ?_, ?_, fun enabled u hashed suits => ?_⟩
    · rw [result.tbs]
      exact generated_sameCode result.generated
    · rw [result.tbs, result.generated.record]
      exact within
    · obtain ⟨r, found⟩ := found_of_suits rep enabled hashed suits
      exact absurd (found.symm.trans search) (some_ne_none r)

end Answers

/-! ### Runs -/

/-- Every run that meets the condition keeps the variants of a block in
non-increasing order and gets, for every request and budget, a block for the key
within the budget, the largest one that is cached; each next step keeps the
order exactly under its condition. -/
theorem variantOrder_iff {T : Target} {s : State}
    (reachable : ReachableBy T (Event.InOrder T) s) :
    s.Ordered ∧
    (∀ (req : FindRequest) (maximumBlockSize : Nat) (code : CodeStream), 0 < req.maxIcount →
      ∃ s' r, tbFindSlow T s (req.translating maximumBlockSize code) = some (s', r) ∧
        (req.translating maximumBlockSize code).Served T s s' r) ∧
    ∀ event s', event.Budgeted → Step T s event s' → (s'.Ordered ↔ event.KeepsOrder T s) := by
  obtain ⟨σ, rep⟩ := reachable.represents
  have ordered := reachable.ordered
  refine ⟨ordered, fun req maximumBlockSize code positive => ?_,
    fun event s' within step => step.ordered_iff rep ordered within⟩
  apply tbFindSlow_served rep ordered
  exact cpuGenCodeInner_le code maximumBlockSize positive

/-- An instruction of four bytes and one of two, which ends the block. -/
def sampleCode : CodeStream where
  breakpoint := fun _ => false
  ends := fun icount => icount = 1

def variantRequest (pages : PageMap) (maxIcount size : Nat) : FindRequest :=
  FindRequest.translating
    { sampleRequest 0x1ffc false with
      pages := pages
      maxIcount := maxIcount
      generation := { sampleGeneration with size := size } } 0x7fff sampleCode

theorem variantOrder_iff_sample : ∃ s s' r,
    ReachableBy sampleTarget (Event.InOrder sampleTarget) s ∧ s.Hashed sampleTarget 0 ∧
      tbFindSlow sampleTarget s (variantRequest scatteredPages 1 4) = some (s', r) ∧
      (s'.tbs r).icount ≤ 1 := by
  obtain ⟨s, tb, first, inBucket⟩ : ∃ s tb,
      tbFindSlow sampleTarget (emptyCache sampleBuffer) (variantRequest scatteredPages 10 6) =
        some (s, tb) ∧
        s.hash (.bucket ((s.tbs 0).hashIndex sampleTarget)) = some 0 :=
    ⟨_, _, rfl, by decide⟩
  have empty := emptyCache_reachable sampleTarget (Event.InOrder sampleTarget) sampleBuffer
  have keeps : Event.KeepsOrder sampleTarget (emptyCache sampleBuffer)
      (.findSlow (variantRequest scatteredPages 10 6)) := by
    have noBlocks : (variantRequest scatteredPages 10 6).bucketOf sampleTarget
      (emptyCache sampleBuffer) = [] := rfl
    constructor
    · intro r found
      rw [FindRequest.found, noBlocks] at found
      exact absurd found (by simp)
    · intro _ _
      rw [noBlocks]
      exact ⟨nofun, nofun, nofun⟩
  have within : Event.Budgeted (.findSlow (variantRequest scatteredPages 10 6)) :=
    (by decide : (variantRequest scatteredPages 10 6).generation.icount ≤ 10)
  have reachable := empty.step ⟨within, keeps⟩ (.findSlow _ first)
  obtain ⟨-, answers, -⟩ := variantOrder_iff reachable
  obtain ⟨s', r, done, served⟩ := answers
    { sampleRequest 0x1ffc false with
      pages := scatteredPages
      maxIcount := 1
      generation := { sampleGeneration with size := 4 } } 0x7fff sampleCode (by decide)
  exact ⟨s, s', r, reachable, Library.Linked.Reaches.here inBucket, done, served.withinBudget⟩

/-- A block of two instructions that reaches the next page, one that was cut
behind the first instruction, and a request while the next page is mapped
elsewhere: the short block moves to the front, in front of its larger variant,
and hides it once the page is mapped back. -/
theorem variantOrder_lost : ∃ s s' r,
    Reachable sampleTarget s ∧ ¬ s.Ordered ∧ s.Hashed sampleTarget 0 ∧
      (variantRequest scatteredPages 10 6).suits sampleTarget (s.tbs 0) = true ∧
      tbFindSlow sampleTarget s (variantRequest scatteredPages 10 6) = some (s', r) ∧
      (s'.tbs r).icount < (s.tbs 0).icount := by
  obtain ⟨s₁, s₂, s₃, s₄, tb₁, tb₂, tb₃, tb₄, first, second, third, fourth, list, behind, suits,
      inBucket, fewer⟩ : ∃ s₁ s₂ s₃ s₄ tb₁ tb₂ tb₃ tb₄,
      tbFindSlow sampleTarget (emptyCache sampleBuffer) (variantRequest scatteredPages 10 6) =
        some (s₁, tb₁) ∧
      tbFindSlow sampleTarget s₁ (variantRequest scatteredPages 1 4) = some (s₂, tb₂) ∧
      tbFindSlow sampleTarget s₂ (variantRequest id 10 6) = some (s₃, tb₃) ∧
      tbFindSlow sampleTarget s₃ (variantRequest scatteredPages 10 6) = some (s₄, tb₄) ∧
      s₃.bucketList ((s₃.tbs 0).hashIndex sampleTarget) = [1, 0] ∧
      ¬ Precedes (s₃.tbs 1) (s₃.tbs 0) ∧
      (variantRequest scatteredPages 10 6).suits sampleTarget (s₃.tbs 0) = true ∧
      (s₃.hash (.bucket ((s₃.tbs 0).hashIndex sampleTarget)) = some 1 ∧
        s₃.hash (.physHashNext 1) = some 0) ∧
      (s₄.tbs tb₄).icount < (s₃.tbs 0).icount :=
    ⟨_, _, _, _, _, _, _, _, rfl, rfl, rfl, rfl, by decide, by decide, by decide, by decide,
      by decide⟩
  have start := emptyCache_reachable sampleTarget (fun _ _ => True) sampleBuffer
  have reachable := ((start.step trivial (.findSlow _ first)).step trivial
    (.findSlow _ second)).step trivial (.findSlow _ third)
  refine ⟨s₃, s₄, tb₄, reachable, fun ordered => behind ?_,
    .next inBucket.1 (.here inBucket.2), suits, fourth, fewer⟩
  have inOrder := ordered ((s₃.tbs 0).hashIndex sampleTarget)
  rw [list, pairwise_pair] at inOrder
  exact inOrder

end Tlib.TranslationCache
