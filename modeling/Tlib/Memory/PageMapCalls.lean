import Mathlib.Algebra.Order.Floor.Div
import Tlib.Memory.PhysPages

/-!
Contract: the calls that map pages, unmap them and set their flags.

Owns: `tlib_map_range`, `tlib_unmap_range` and the registration of access flags, with the pages that
their loops visit. Does not own: the flushes of the TLB that the calls make.
-/

namespace Tlib.Memory

open List Nat

variable {G : Geometry}

/-! ### Pages of a range -/

/-- `while(more(addr)) { body(addr); addr += PAGE; }`; `none` for a loop that is not left. -/
def pageLoop (G : Geometry) (wrapReturns : Bool) (more : Nat → Bool)
    (body : PhysMap G → Nat → PhysMap G) : Nat → Nat → PhysMap G → Option (PhysMap G)
  | 0, addr, m => if more addr then none else some m
  | fuel + 1, addr, m =>
    if more addr then
      let next := (addr + G.pageSize) % 2 ^ 64
      if wrapReturns && next < addr then some (body m addr)
      else pageLoop G wrapReturns more body fuel next (body m addr)
    else some m

/-- No loop takes more steps without coming back to an address. -/
def pageFuel (G : Geometry) : Nat := 2 ^ 64 / G.pageSize

/-! ### The calls -/

def unmapPage (m : PhysMap G) (address : Nat) : PhysMap G :=
  let index := address % 2 ^ G.addrBits / G.pageSize
  match physPageFind m index with
  | none => m
  | some pd =>
    if pd.physOffset ≠ ioMemUnassigned then
      setDesc m index fun pd =>
        { pd with regionOffset := pd.physOffset, physOffset := ioMemUnassigned }
    else m

def tlibUnmapRange (m : PhysMap G) (start finish : Nat) : Option (PhysMap G) :=
  pageLoop G true (fun addr => addr ≤ finish) unmapPage (pageFuel G) start m

/-- The index is converted to `target_phys_addr_t`. -/
def pageIndex (G : Geometry) (addr : Nat) : Nat := addr / G.pageSize % 2 ^ G.addrBits

def tlibRegisterAccessFlagsForRange (m : PhysMap G) (start length isExecutableIoMem : Nat) :
    Option (PhysMap G) :=
  let flags := { PhysPageDescFlags.zero with executableIoMem := isExecutableIoMem ≠ 0 }
  let limit := (start + length) % 2 ^ 64
  pageLoop G false (fun addr => addr < limit) (fun m addr => physPageAlloc m (pageIndex G addr) flags)
    (pageFuel G) start m

def enableExternalPermission (externalPermissions : Nat) (m : PhysMap G) (addr : Nat) : PhysMap G :=
  let index := addr % 2 ^ G.addrBits / G.pageSize
  match physPageFind m index with
  | some _ =>
    setDesc m index fun pd =>
      { pd with flags := { pd.flags with externalPermissions := externalPermissions ≠ 0 } }
  | none =>
    physPageAlloc m (pageIndex G addr)
      { PhysPageDescFlags.zero with externalPermissions := externalPermissions ≠ 0 }

def tlibEnableExternalPermissionHandlerForRange (m : PhysMap G)
    (start length externalPermissions : Nat) : Option (PhysMap G) :=
  let limit := (start + length) % 2 ^ 64
  pageLoop G false (fun addr => addr < limit) (enableExternalPermission externalPermissions)
    (pageFuel G) start m

/-- One step of the loop of `cpu_register_physical_memory_log`. -/
def registerPage (m : PhysMap G) (addr physOffset regionOffset : Nat) : PhysMap G :=
  let index := addr / G.pageSize
  if physOffsetOf m index ≠ ioMemUnassigned then
    setDesc m index fun p =>
      { p with physOffset := physOffset, flags := { p.flags with dirty := true } }
  else
    setDesc (physPageAlloc m index { PhysPageDescFlags.zero with dirty := true }) index fun p =>
      { p with physOffset := physOffset, regionOffset := regionOffset }

def nextPhysOffset (G : Geometry) (physOffset : Nat) : Nat :=
  if physOffset % G.pageSize ≤ ioMemRom || physOffset % 2 = 1 then
    (physOffset + G.pageSize) % 2 ^ 64
  else physOffset

/-- The `do`-`while` loop over the pages. -/
def registerLoop (endAddr : Nat) : Nat → Nat → Nat → Nat → PhysMap G → Option (PhysMap G)
  | 0, _, _, _, _ => none
  | fuel + 1, addr, physOffset, regionOffset, m =>
    let next := (addr + G.pageSize) % 2 ^ G.addrBits
    let m := registerPage m addr physOffset regionOffset
    if next = endAddr then some m
    else
      registerLoop endAddr fuel next (nextPhysOffset G physOffset)
        ((regionOffset + G.pageSize) % 2 ^ 64) m

/-- `none` also stands for a failed assertion. -/
def cpuRegisterPhysicalMemoryLog (m : PhysMap G) (startAddr size physOffset regionOffset : Nat) :
    Option (PhysMap G) :=
  if size = 0 then none
  else
    let regionOffset := if physOffset = ioMemUnassigned then startAddr else regionOffset
    let regionOffset := regionOffset / G.pageSize * G.pageSize
    let size := (size + G.pageSize - 1) % 2 ^ 64 / G.pageSize * G.pageSize
    let endAddr := (startAddr + size) % 2 ^ G.addrBits
    registerLoop endAddr (pageFuel G) startAddr physOffset regionOffset m

def tlibMapRange (m : PhysMap G) (startAddr length : Nat) : Option (PhysMap G) :=
  cpuRegisterPhysicalMemoryLog m (startAddr % 2 ^ G.addrBits) length startAddr 0

/-- The loop of `tlib_is_range_mapped`; `none` stands for a loop that is not left. -/
def rangeMappedLoop (m : PhysMap G) (finish : Nat) : Nat → Nat → Option Bool
  | 0, start => if start < finish then none else some false
  | fuel + 1, start =>
    if start < finish then
      if physOffsetOf m (start % 2 ^ G.addrBits / G.pageSize) ≠ ioMemUnassigned then some true
      else rangeMappedLoop m finish fuel ((start + G.pageSize) % 2 ^ 64)
    else some false

def tlibIsRangeMapped (m : PhysMap G) (start finish : Nat) : Option Bool :=
  rangeMappedLoop m finish (pageFuel G) start

/-! ### Pages that a loop visits -/

/-- The number of addresses `start`, `start + PAGE`, .. below `limit`. -/
def visits (G : Geometry) (start limit : Nat) : Nat := (limit - start + (G.pageSize - 1)) / G.pageSize

def Visited (G : Geometry) (start limit page : Nat) : Prop :=
  start / G.pageSize ≤ page ∧ page < start / G.pageSize + visits G start limit

def OnPage (G : Geometry) (start limit page : Nat) : Prop :=
  ∃ addr, start ≤ addr ∧ addr < limit ∧ addr / G.pageSize = page

instance (start limit page : Nat) : Decidable (Visited G start limit page) :=
  inferInstanceAs (Decidable (_ ∧ _))

/-- The last page of the range starts after the last address that the loop visits. -/
def SkipsLast (G : Geometry) (start limit : Nat) : Prop :=
  start < limit ∧ (limit - 1) % G.pageSize < start % G.pageSize

variable {start limit page : Nat}

theorem lt_visits_iff (G : Geometry) (start limit k : Nat) :
    k < visits G start limit ↔ start + k * G.pageSize < limit := by
  have pos := G.pageSize_pos
  unfold visits
  rw [← succ_le_iff, Nat.le_div_iff_mul_le pos, succ_mul]
  omega

theorem page_add (G : Geometry) (start k : Nat) :
    (start + k * G.pageSize) / G.pageSize = start / G.pageSize + k :=
  add_mul_div_right _ _ G.pageSize_pos

theorem last_page (G : Geometry) (less : start < limit) : (limit - 1) / G.pageSize =
      start / G.pageSize + (visits G start limit - 1) +
        if (limit - 1) % G.pageSize < start % G.pageSize then 1 else 0 := by
  have pos := G.pageSize_pos
  obtain ⟨length, rfl⟩ : ∃ length, limit = start + length + 1 := ⟨limit - start - 1, by omega⟩
  have count : visits G start (start + length + 1) - 1 = length / G.pageSize := by
    unfold visits
    rw [show start + length + 1 - start + (G.pageSize - 1) = length + G.pageSize by omega,
      add_div_right _ pos]
    rfl
  have lessStart := mod_lt start pos
  have lessLength := mod_lt length pos
  rw [count, Nat.add_sub_cancel, Nat.add_div pos, add_mod]
  by_cases carry : G.pageSize ≤ start % G.pageSize + length % G.pageSize
  · have rest : (start % G.pageSize + length % G.pageSize) % G.pageSize =
        start % G.pageSize + length % G.pageSize - G.pageSize := by
      rw [mod_eq_sub_mod carry, mod_eq_of_lt (by omega)]
    rw [if_pos carry, rest, if_pos (by omega)]
  · rw [if_neg carry, mod_eq_of_lt (by omega), if_neg (by omega)]

theorem visits_pos (less : start < limit) : 0 < visits G start limit := by
  rw [lt_visits_iff]
  omega

theorem visits_eq_zero (none : limit ≤ start) : visits G start limit = 0 := by
  refine Nat.eq_zero_of_not_pos fun pos => ?_
  rw [lt_visits_iff] at pos
  omega

theorem onPage_iff (G : Geometry) (start limit page : Nat) : OnPage G start limit page ↔
      start < limit ∧ start / G.pageSize ≤ page ∧ page ≤ (limit - 1) / G.pageSize := by
  have pos := G.pageSize_pos
  constructor
  · intro on
    obtain ⟨addr, low, high, place⟩ := on
    rw [← place]
    exact ⟨by omega, Nat.div_le_div_right low, Nat.div_le_div_right (by omega)⟩
  · intro between
    obtain ⟨less, low, high⟩ := between
    by_cases first : page * G.pageSize ≤ start
    · refine ⟨start, Nat.le_refl _, less, Nat.le_antisymm low ?_⟩
      exact (Nat.le_div_iff_mul_le pos).mpr first
    · refine ⟨page * G.pageSize, by omega, ?_, Nat.mul_div_cancel _ pos⟩
      have below := (Nat.le_div_iff_mul_le pos).mp high
      omega

instance (start limit page : Nat) : Decidable (OnPage G start limit page) :=
  decidable_of_iff _ (onPage_iff G start limit page).symm

theorem visited_iff (G : Geometry) (start limit page : Nat) : Visited G start limit page ↔
      OnPage G start limit page ∧ ¬(SkipsLast G start limit ∧ page = (limit - 1) / G.pageSize) := by
  rw [onPage_iff]
  unfold Visited SkipsLast
  rcases Nat.lt_or_ge start limit with less | none
  · have last := last_page G less
    have some := visits_pos (G := G) less
    split at last
    next skips =>
      omega
    next reached =>
      omega
  · have zero := visits_eq_zero (G := G) none
    constructor
    · intro visited
      omega
    · intro on
      omega

theorem skipped_of_not_visited {G : Geometry} {start limit page : Nat}
    (on : OnPage G start limit page) (missed : ¬Visited G start limit page) :
    SkipsLast G start limit ∧ page = (limit - 1) / G.pageSize :=
  not_not.mp fun kept => missed ((visited_iff G start limit page).mpr ⟨on, kept⟩)

/-! ### What the loops do -/

/-- The loop over `len` pages from an address on. -/
def visitPages (body : PhysMap G → Nat → PhysMap G) : Nat → Nat → PhysMap G → PhysMap G
  | 0, _, m => m
  | len + 1, addr, m => visitPages body len (addr + G.pageSize) (body m addr)

variable {wrapReturns : Bool} {more : Nat → Bool} {body : PhysMap G → Nat → PhysMap G}
  {f : PhysPageDesc → PhysPageDesc} {m m' : PhysMap G} {fuel count addr : Nat}

theorem pageLoop_eq (enough : count ≤ fuel) (on : ∀ k < count, more (addr + k * G.pageSize) = true)
    (off : more (addr + count * G.pageSize) = false)
    (inside : ∀ k < count, addr + (k + 1) * G.pageSize < 2 ^ 64) :
    pageLoop G wrapReturns more body fuel addr m = some (visitPages body count addr m) := by
  induction count generalizing fuel addr m with
  | zero =>
    rw [Nat.zero_mul, Nat.add_zero] at off
    cases fuel with
    | zero =>
      unfold pageLoop
      rw [off]
      rfl
    | succ fuel =>
      unfold pageLoop
      rw [off]
      rfl
  | succ count ih =>
    obtain ⟨fuel, rfl⟩ : ∃ left, fuel = left + 1 := ⟨fuel - 1, by omega⟩
    have here := on 0 (succ_pos _)
    rw [Nat.zero_mul, Nat.add_zero] at here
    have next : (addr + G.pageSize) % 2 ^ 64 = addr + G.pageSize := by
      have := inside 0 (succ_pos _)
      omega
    have shift (k : Nat) : addr + G.pageSize + k * G.pageSize = addr + (k + 1) * G.pageSize := by
      rw [succ_mul]
      omega
    unfold pageLoop visitPages
    rw [here, if_pos rfl]
    rw [next, if_neg (by simp)]
    refine ih (by omega) (fun k less => ?_) ?_ fun k less => ?_
    · rw [shift]
      exact on (k + 1) (by omega)
    · rw [shift]
      exact off
    · rw [shift]
      exact inside (k + 1) (by omega)

/-- What one step of a loop does to the descriptors. -/
def ChangesPage (body : PhysMap G → Nat → PhysMap G) (f : PhysPageDesc → PhysPageDesc) : Prop :=
  ∀ (m : PhysMap G) (addr page : Nat), addr < G.spaceSize → page < G.pages →
    descOf (body m addr) page =
      if page = addr / G.pageSize then f (descOf m page) else descOf m page

theorem descOf_visitPages (changes : ChangesPage body f) {page : Nat} (less : page < G.pages)
    (inside : ∀ k < count, addr + k * G.pageSize < G.spaceSize) :
    descOf (visitPages body count addr m) page =
      if addr / G.pageSize ≤ page ∧ page < addr / G.pageSize + count then f (descOf m page)
      else descOf m page := by
  induction count generalizing addr m with
  | zero =>
    rw [if_neg (by omega)]
    rfl
  | succ count ih =>
    have here := inside 0 (succ_pos _)
    rw [Nat.zero_mul, Nat.add_zero] at here
    have onward := page_add G addr 1
    rw [Nat.one_mul] at onward
    unfold visitPages
    rw [ih fun k below => ?_, onward, changes m addr page here less]
    · by_cases first : page = addr / G.pageSize
      · rw [if_neg (by omega), if_pos first, if_pos (by omega)]
      · rw [if_neg first]
        by_cases later : addr / G.pageSize + 1 ≤ page ∧ page < addr / G.pageSize + 1 + count
        · rw [if_pos later, if_pos (by omega)]
        · rw [if_neg later, if_neg (by omega)]
    · have := inside (k + 1) (by omega)
      rw [succ_mul] at this
      omega

theorem visits_le_fuel (G : Geometry) (within : limit ≤ G.spaceSize) :
    visits G start limit ≤ pageFuel G := by
  have room := G.spaceSize_lt
  have small : G.pageSize ≤ 2 ^ 12 := Nat.pow_le_pow_right (by decide) G.pageBits_le
  refine Nat.div_le_div_right ?_
  omega

theorem visits_inside (G : Geometry) (within : limit ≤ G.spaceSize) {k : Nat}
    (less : k < visits G start limit) :
    start + k * G.pageSize < G.spaceSize ∧ start + (k + 1) * G.pageSize < 2 ^ 64 := by
  have room := G.spaceSize_lt
  have small : G.pageSize ≤ 2 ^ 12 := Nat.pow_le_pow_right (by decide) G.pageBits_le
  rw [lt_visits_iff] at less
  rw [succ_mul]
  omega

theorem pageLoop_changes (changes : ChangesPage body f) (within : limit ≤ G.spaceSize)
    (range : ∀ addr, more addr = decide (addr < limit)) :
    ∃ m', pageLoop G wrapReturns more body (pageFuel G) start m = some m' ∧
      ∀ page < G.pages, descOf m' page =
        if Visited G start limit page then f (descOf m page) else descOf m page := by
  have enough : visits G start limit ≤ pageFuel G := visits_le_fuel G within
  refine ⟨_, pageLoop_eq enough (fun k less => ?_) ?_
    fun k less => (visits_inside G within less).2, fun page less => ?_⟩
  · rw [range, decide_eq_true_eq]
    exact (lt_visits_iff G start limit k).mp less
  · rw [range, decide_eq_false_iff_not, ← lt_visits_iff]
    exact Nat.lt_irrefl _
  · exact descOf_visitPages changes less fun k below => (visits_inside G within below).1

/-! ### The bodies -/

theorem unmapPage_changes : ChangesPage (G := G) unmapPage fun pd =>
    if pd.physOffset ≠ ioMemUnassigned then
      { pd with regionOffset := pd.physOffset, physOffset := ioMemUnassigned }
    else pd := by
  intro m addr page inside less
  have index : addr % 2 ^ G.addrBits / G.pageSize = addr / G.pageSize := by
    rw [mod_eq_of_lt (Nat.lt_of_lt_of_le inside G.spaceSize_le)]
  unfold unmapPage
  dsimp only
  rw [index]
  cases found : physPageFind m (addr / G.pageSize) with
  | none =>
    by_cases here : page = addr / G.pageSize
    · rw [if_pos here, here, descOf_of_missing found]
      rfl
    · rw [if_neg here]
  | some pd =>
    dsimp only
    by_cases mapped : pd.physOffset ≠ ioMemUnassigned
    · rw [if_pos mapped, descOf_setDesc _ _ (G.page_lt inside) less]
      by_cases here : page = addr / G.pageSize
      · rw [if_pos here, if_pos here, here, descOf_of_find found, if_pos mapped]
      · rw [if_neg here, if_neg here]
    · rw [if_neg mapped]
      by_cases here : page = addr / G.pageSize
      · rw [if_pos here, here, descOf_of_find found, if_neg mapped]
      · rw [if_neg here]

theorem pageIndex_eq (inside : addr < G.spaceSize) : pageIndex G addr = addr / G.pageSize := by
  refine mod_eq_of_lt (Nat.lt_of_le_of_lt (Nat.div_le_self _ _) ?_)
  exact Nat.lt_of_lt_of_le inside G.spaceSize_le

theorem physPageAlloc_changes (flags : PhysPageDescFlags) :
    ChangesPage (G := G) (fun m addr => physPageAlloc m (pageIndex G addr) flags)
      fun pd => { pd with flags := flags } := by
  intro m addr page inside less
  dsimp only
  rw [pageIndex_eq inside]
  exact descOf_setDesc m _ (G.page_lt inside) less

theorem enableExternalPermission_changes (externalPermissions : Nat) :
    ChangesPage (G := G) (enableExternalPermission externalPermissions) fun pd =>
      { pd with flags := { pd.flags with externalPermissions := externalPermissions ≠ 0 } } := by
  intro m addr page inside less
  have index : addr % 2 ^ G.addrBits / G.pageSize = addr / G.pageSize := by
    rw [mod_eq_of_lt (Nat.lt_of_lt_of_le inside G.spaceSize_le)]
  unfold enableExternalPermission
  dsimp only
  rw [index, pageIndex_eq inside]
  cases found : physPageFind m (addr / G.pageSize) with
  | none =>
    unfold physPageAlloc
    rw [descOf_setDesc _ _ (G.page_lt inside) less]
    by_cases here : page = addr / G.pageSize
    · rw [if_pos here, if_pos here, here, descOf_of_missing found]
      rfl
    · rw [if_neg here, if_neg here]
  | some pd =>
    rw [descOf_setDesc _ _ (G.page_lt inside) less]

/-! ### Registration -/

structure Registered (page : Nat) (old new : PhysPageDesc) (G : Geometry) : Prop where
  physOffset : new.physOffset = page * G.pageSize
  flags : new.flags = if old.physOffset ≠ ioMemUnassigned then { old.flags with dirty := true }
    else { PhysPageDescFlags.zero with dirty := true }

theorem descOf_registerPage (m : PhysMap G) {addr physOffset regionOffset page : Nat}
    (inside : addr < G.spaceSize) (less : page < G.pages) :
    (page = addr / G.pageSize →
        (descOf (registerPage m addr physOffset regionOffset) page).physOffset = physOffset ∧
          (descOf (registerPage m addr physOffset regionOffset) page).flags =
            if (descOf m page).physOffset ≠ ioMemUnassigned then
              { (descOf m page).flags with dirty := true }
            else { PhysPageDescFlags.zero with dirty := true }) ∧
      (page ≠ addr / G.pageSize →
        descOf (registerPage m addr physOffset regionOffset) page = descOf m page) := by
  have lessAddr := G.page_lt inside
  unfold registerPage
  dsimp only
  rw [physOffsetOf_eq]
  by_cases mapped : (descOf m (addr / G.pageSize)).physOffset ≠ ioMemUnassigned
  · rw [if_pos mapped, descOf_setDesc _ _ lessAddr less]
    refine ⟨fun here => ?_, fun other => if_neg other⟩
    rw [if_pos here, here, if_pos mapped]
    exact ⟨rfl, rfl⟩
  · unfold physPageAlloc
    rw [if_neg mapped, descOf_setDesc _ _ lessAddr less]
    refine ⟨fun here => ?_, fun other => ?_⟩
    · rw [if_pos here, here, if_neg mapped, descOf_setDesc _ _ lessAddr lessAddr, if_pos rfl]
      exact ⟨rfl, rfl⟩
    · rw [if_neg other, descOf_setDesc _ _ lessAddr less, if_neg other]

theorem page_ne_unassigned (G : Geometry) (page : Nat) : page * G.pageSize ≠ ioMemUnassigned := by
  have large : 32 ≤ G.pageSize := by
    have := Nat.pow_le_pow_right (show 0 < 2 by decide) G.pageBits_ge
    exact this
  unfold ioMemUnassigned
  cases page with
  | zero =>
    rw [Nat.zero_mul]
    decide
  | succ page =>
    rw [succ_mul]
    omega

theorem registerLoop_spec {regionOffset first endAddr : Nat} (enough : count < fuel)
    (within : (first + (count + 1)) * G.pageSize ≤ G.spaceSize)
    (finish : endAddr = (first + (count + 1)) * G.pageSize % 2 ^ G.addrBits) :
    ∃ m', registerLoop endAddr fuel (first * G.pageSize) (first * G.pageSize) regionOffset m =
        some m' ∧
      ∀ page < G.pages, (first ≤ page ∧ page < first + (count + 1) →
          Registered page (descOf m page) (descOf m' page) G) ∧
        (¬(first ≤ page ∧ page < first + (count + 1)) → descOf m' page = descOf m page) := by
  have pos := G.pageSize_pos
  have addrs := G.spaceSize_le
  induction count generalizing fuel first m regionOffset with
  | zero =>
    obtain ⟨fuel, rfl⟩ : ∃ left, fuel = left + 1 := ⟨fuel - 1, by omega⟩
    have inside : first * G.pageSize < G.spaceSize := by
      rw [Nat.zero_add, succ_mul] at within
      omega
    have last : (first * G.pageSize + G.pageSize) % 2 ^ G.addrBits = endAddr := by
      rw [finish, Nat.zero_add, succ_mul]
    have place : first * G.pageSize / G.pageSize = first := Nat.mul_div_cancel _ pos
    unfold registerLoop
    rw [if_pos last]
    refine ⟨_, rfl, fun page less => ?_⟩
    obtain ⟨here, other⟩ :=
      @descOf_registerPage _ m _ (first * G.pageSize) regionOffset _ inside less
    rw [place] at here other
    refine ⟨fun inRange => ?_, fun outside => other (by omega)⟩
    have same : page = first := by omega
    obtain ⟨physOffset, flags⟩ := here same
    exact ⟨by rw [physOffset, same], flags⟩
  | succ count ih =>
    obtain ⟨fuel, rfl⟩ : ∃ left, fuel = left + 1 := ⟨fuel - 1, by omega⟩
    have total : (first + (count + 1 + 1)) * G.pageSize =
        first * G.pageSize + G.pageSize + (count + 1) * G.pageSize := by
      rw [← succ_mul, ← Nat.add_mul]
      congr 1
      omega
    have rest : 0 < (count + 1) * G.pageSize := Nat.mul_pos (succ_pos _) pos
    have inside : first * G.pageSize < G.spaceSize := by omega
    have room := G.spaceSize_lt
    have next : (first * G.pageSize + G.pageSize) % 2 ^ G.addrBits = (first + 1) * G.pageSize := by
      rw [succ_mul]
      exact mod_eq_of_lt (by omega)
    have notLast : (first + 1) * G.pageSize ≠ endAddr := by
      rw [finish, succ_mul]
      rcases Nat.lt_or_ge ((first + (count + 1 + 1)) * G.pageSize) (2 ^ G.addrBits) with fits | full
      · rw [mod_eq_of_lt fits]
        omega
      · have whole : (first + (count + 1 + 1)) * G.pageSize = 2 ^ G.addrBits := by omega
        rw [whole, mod_self]
        omega
    have onward : nextPhysOffset G (first * G.pageSize) = (first + 1) * G.pageSize := by
      unfold nextPhysOffset
      rw [mul_mod_left, if_pos (by rw [decide_eq_true (Nat.zero_le _)]; rfl), succ_mul]
      exact mod_eq_of_lt (by omega)
    have place : first * G.pageSize / G.pageSize = first := Nat.mul_div_cancel _ pos
    have shift : first + 1 + (count + 1) = first + (count + 1 + 1) := by omega
    unfold registerLoop
    rw [next, if_neg notLast, onward]
    have left : count < fuel := by omega
    obtain ⟨m', done, spec⟩ := @ih (registerPage m (first * G.pageSize) (first * G.pageSize)
      regionOffset) fuel ((regionOffset + G.pageSize) % 2 ^ 64) (first + 1) left
      (by rw [shift]; exact within) (by rw [shift]; exact finish)
    refine ⟨m', done, fun page less => ?_⟩
    obtain ⟨registered, kept⟩ := spec page less
    obtain ⟨here, other⟩ :=
      @descOf_registerPage _ m _ (first * G.pageSize) regionOffset _ inside less
    rw [place] at here other
    refine ⟨fun inRange => ?_, fun outside => ?_⟩
    · by_cases same : page = first
      · obtain ⟨physOffset, flags⟩ := here same
        have final := kept (by omega)
        exact ⟨by rw [final, physOffset, same], by rw [final, flags]⟩
      · have final := registered (by omega)
        rwa [other same] at final
    · rw [kept (by omega), other (by omega)]

/-! ### Each call -/

theorem onPage_aligned (G : Geometry) (first count page : Nat) :
    OnPage G (first * G.pageSize) (first * G.pageSize + count * G.pageSize) page ↔
      first ≤ page ∧ page < first + count := by
  have pos := G.pageSize_pos
  have sum : first * G.pageSize + count * G.pageSize = (first + count) * G.pageSize :=
    (Nat.add_mul _ _ _).symm
  rw [sum]
  constructor
  · intro on
    obtain ⟨addr, low, high, place⟩ := on
    rw [← place]
    exact ⟨(Nat.le_div_iff_mul_le pos).mpr low, (Nat.div_lt_iff_lt_mul pos).mpr high⟩
  · intro between
    refine ⟨page * G.pageSize, Nat.mul_le_mul_right _ between.1, ?_, Nat.mul_div_cancel _ pos⟩
    exact Nat.mul_lt_mul_of_pos_right between.2 pos

theorem tlibMapRange_spec (m : PhysMap G) {start length : Nat} (alignedStart : G.pageSize ∣ start)
    (alignedLength : G.pageSize ∣ length) (some_ : 0 < length)
    (within : start + length ≤ G.spaceSize) :
    ∃ m', tlibMapRange m start length = some m' ∧ ∀ page < G.pages,
      (OnPage G start (start + length) page → Registered page (descOf m page) (descOf m' page) G) ∧
      (¬OnPage G start (start + length) page → descOf m' page = descOf m page) := by
  have pos := G.pageSize_pos
  have room := G.spaceSize_lt
  have small : G.pageSize ≤ 2 ^ 12 := Nat.pow_le_pow_right (by decide) G.pageBits_le
  obtain ⟨first, rfl⟩ := alignedStart
  obtain ⟨all, rfl⟩ := alignedLength
  obtain ⟨count, rfl⟩ : ∃ count, all = count + 1 := by
    refine ⟨all - 1, (succ_pred_eq_of_pos (Nat.pos_of_ne_zero fun zero => ?_)).symm⟩
    rw [zero, Nat.mul_zero] at some_
    exact absurd some_ (Nat.lt_irrefl 0)
  rw [Nat.mul_comm G.pageSize first, Nat.mul_comm G.pageSize (count + 1)] at *
  have sum : first * G.pageSize + (count + 1) * G.pageSize =
      (first + (count + 1)) * G.pageSize := (Nat.add_mul _ _ _).symm
  have start : first * G.pageSize % 2 ^ G.addrBits = first * G.pageSize := by
    have addrs := G.spaceSize_le
    exact mod_eq_of_lt (by omega)
  have size : ((count + 1) * G.pageSize + G.pageSize - 1) % 2 ^ 64 / G.pageSize * G.pageSize =
      (count + 1) * G.pageSize := by
    rw [mod_eq_of_lt (by omega), Nat.add_sub_assoc (by omega), Nat.add_comm,
      add_mul_div_right _ _ pos, div_eq_of_lt (by omega), Nat.zero_add]
  have enough : count < pageFuel G := by
    have all : count + 1 ≤ pageFuel G := by
      unfold pageFuel
      rw [Nat.le_div_iff_mul_le pos]
      omega
    omega
  unfold tlibMapRange cpuRegisterPhysicalMemoryLog
  rw [start, if_neg (by omega)]
  dsimp only
  rw [size, sum]
  generalize (if first * G.pageSize = ioMemUnassigned then first * G.pageSize else 0) /
    G.pageSize * G.pageSize = regionOffset
  obtain ⟨m', done, spec⟩ := @registerLoop_spec _ m _ count regionOffset first _ enough
    (sum ▸ within) rfl
  refine ⟨m', done, fun page less => ?_⟩
  rw [← sum, onPage_aligned]
  exact spec page less

theorem tlibUnmapRange_spec (m : PhysMap G) {start finish : Nat} (within : finish < G.spaceSize) :
    ∃ m', tlibUnmapRange m start finish = some m' ∧ ∀ page < G.pages, descOf m' page =
        if Visited G start (finish + 1) page ∧ (descOf m page).physOffset ≠ ioMemUnassigned then
          { descOf m page with
            regionOffset := (descOf m page).physOffset, physOffset := ioMemUnassigned }
        else descOf m page := by
  have below (addr : Nat) : decide (addr ≤ finish) = decide (addr < finish + 1) :=
    decide_eq_decide.mpr Nat.lt_succ_iff.symm
  obtain ⟨m', done, spec⟩ := @pageLoop_changes G start (finish + 1) true
    (fun addr => addr ≤ finish) _ _ m unmapPage_changes within below
  refine ⟨m', done, fun page less => ?_⟩
  rw [spec page less]
  by_cases visited : Visited G start (finish + 1) page
  · rw [if_pos visited]
    simp [visited]
  · rw [if_neg visited, if_neg fun both => visited both.1]

theorem tlibRegisterAccessFlagsForRange_spec (m : PhysMap G) {start length : Nat}
    (isExecutableIoMem : Nat) (within : start + length ≤ G.spaceSize) :
    ∃ m', tlibRegisterAccessFlagsForRange m start length isExecutableIoMem = some m' ∧
      ∀ page < G.pages, descOf m' page = if Visited G start (start + length) page then
          { descOf m page with
            flags := { PhysPageDescFlags.zero with executableIoMem := isExecutableIoMem ≠ 0 } }
        else descOf m page := by
  have room := G.spaceSize_lt
  have limit : (start + length) % 2 ^ 64 = start + length := mod_eq_of_lt (by omega)
  unfold tlibRegisterAccessFlagsForRange
  rw [limit]
  exact pageLoop_changes (physPageAlloc_changes _) within fun _ => rfl

theorem tlibEnableExternalPermissionHandlerForRange_spec (m : PhysMap G) {start length : Nat}
    (externalPermissions : Nat) (within : start + length ≤ G.spaceSize) :
    ∃ m', tlibEnableExternalPermissionHandlerForRange m start length externalPermissions = some m' ∧
      ∀ page < G.pages, descOf m' page = if Visited G start (start + length) page then
          { descOf m page with
            flags := { (descOf m page).flags with
              externalPermissions := externalPermissions ≠ 0 } }
        else descOf m page := by
  have room := G.spaceSize_lt
  have limit : (start + length) % 2 ^ 64 = start + length := mod_eq_of_lt (by omega)
  unfold tlibEnableExternalPermissionHandlerForRange
  rw [limit]
  exact pageLoop_changes (enableExternalPermission_changes _) within fun _ => rfl

theorem rangeMappedLoop_eq (m : PhysMap G) {count : Nat} (enough : count ≤ fuel)
    (on : ∀ k < count, addr + k * G.pageSize < limit)
    (off : limit ≤ addr + count * G.pageSize)
    (inside : ∀ k < count, addr + k * G.pageSize < G.spaceSize ∧
      addr + (k + 1) * G.pageSize < 2 ^ 64) :
    rangeMappedLoop m limit fuel addr =
      some ((range' (addr / G.pageSize) count).any fun page =>
        physOffsetOf m page ≠ ioMemUnassigned) := by
  induction count generalizing fuel addr with
  | zero =>
    cases fuel with
    | zero =>
      unfold rangeMappedLoop
      rw [if_neg (by omega)]
      rfl
    | succ fuel =>
      unfold rangeMappedLoop
      rw [if_neg (by omega)]
      rfl
  | succ count ih =>
    obtain ⟨fuel, rfl⟩ : ∃ left, fuel = left + 1 := ⟨fuel - 1, by omega⟩
    obtain ⟨here, bound⟩ := inside 0 (succ_pos _)
    have less := on 0 (succ_pos _)
    rw [Nat.zero_mul, Nat.add_zero] at here less
    have onward := page_add G addr 1
    rw [Nat.one_mul] at onward
    have shift (k : Nat) : addr + G.pageSize + k * G.pageSize = addr + (k + 1) * G.pageSize := by
      rw [succ_mul]
      omega
    have index : addr % 2 ^ G.addrBits / G.pageSize = addr / G.pageSize := by
      rw [mod_eq_of_lt (Nat.lt_of_lt_of_le here G.spaceSize_le)]
    have next : (addr + G.pageSize) % 2 ^ 64 = addr + G.pageSize := mod_eq_of_lt (by omega)
    unfold rangeMappedLoop
    rw [if_pos less, index, next, range'_succ, any_cons]
    by_cases mapped : physOffsetOf m (addr / G.pageSize) ≠ ioMemUnassigned
    · rw [if_pos mapped, decide_eq_true mapped, Bool.true_or]
    · rw [if_neg mapped, decide_eq_false mapped, Bool.false_or, ← onward]
      refine ih (by omega) (fun k below => ?_) ?_ fun k below => ?_
      · rw [shift]
        exact on (k + 1) (by omega)
      · rw [shift]
        exact off
      · rw [shift, shift]
        exact inside (k + 1) (by omega)

theorem tlibIsRangeMapped_spec (m : PhysMap G) {start finish : Nat}
    (within : finish ≤ G.spaceSize) :
    ∃ answer, tlibIsRangeMapped m start finish = some answer ∧ (answer = true ↔
        ∃ page, Visited G start finish page ∧ physOffsetOf m page ≠ ioMemUnassigned) := by
  refine ⟨_, rangeMappedLoop_eq m (visits_le_fuel G within)
    (fun k less => (lt_visits_iff G start finish k).mp less) ?_
    (fun k less => visits_inside G within less), ?_⟩
  · have stop := mt (lt_visits_iff G start finish (visits G start finish)).mpr (Nat.lt_irrefl _)
    omega
  · rw [any_eq_true]
    unfold Visited
    constructor
    · intro found
      obtain ⟨page, member, mapped⟩ := found
      exact ⟨page, by simpa using mem_range'_1.mp member, of_decide_eq_true mapped⟩
    · intro found
      obtain ⟨page, visited, mapped⟩ := found
      exact ⟨page, mem_range'_1.mpr visited, decide_eq_true mapped⟩

end Tlib.Memory
