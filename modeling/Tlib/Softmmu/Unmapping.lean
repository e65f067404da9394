import Tlib.Memory.PageMapRuns
import Tlib.Softmmu.TlbFlush

/-!
Contract: unmapping a range of physical pages.

Owns: `tlib_unmap_range` with the flushes of the TLB that it makes, and the entries that still lead
to the range after it.
-/

namespace Tlib.Softmmu

open Tlib.TranslationCache List Nat
open Tlib.Memory (Geometry PhysMap riscv64Geometry physPageFind pageFuel visits lt_visits_iff
  visits_eq_zero)

/-- A physical page map and a TLB with the same pages. -/
structure UnmapTarget where
  geometry : Geometry
  tlb : TlbTarget
  samePages : tlb.pageBits = geometry.pageBits

structure Machine (U : UnmapTarget) where
  map : PhysMap U.geometry
  tlb : TlbState

section Unmap

variable (U : UnmapTarget)

/-- Conversion to `target_phys_addr_t`. -/
def UnmapTarget.toPhys (addr : Nat) : Nat := addr % 2 ^ U.geometry.addrBits

/-- `unmap_page`; the physical address is handed to `tlb_flush_page` as it is. -/
def unmapPage (machine : Machine U) (addr : Nat) : Machine U :=
  let address := U.toPhys addr
  match physPageFind machine.map (address / U.geometry.pageSize) with
  | none => machine
  | some _ =>
    { map := Memory.unmapPage machine.map address
      tlb := tlbFlushPage U.tlb machine.tlb (U.tlb.toUlong address) false }

/-- The loop of `tlib_unmap_range`; `none` when it has not ended after so many turns. -/
def unmapLoop (finish : Nat) : Nat → Nat → Machine U → Option (Machine U)
  | 0, start, machine => if start ≤ finish then none else some machine
  | fuel + 1, start, machine =>
    if start ≤ finish then
      let newStart := (start + U.geometry.pageSize) % 2 ^ 64
      let machine := unmapPage U machine start
      if newStart < start then some machine else unmapLoop finish fuel newStart machine
    else some machine

def tlibUnmapRange (machine : Machine U) (start finish : Nat) : Option (Machine U) :=
  unmapLoop U finish (pageFuel U.geometry) start machine

/-- What was handed to the `tlb_set_page` that wrote an entry. -/
structure Mapping where
  memory : MemoryMap
  (vaddr paddr prot size : Nat)

def HoldsMappings (G : TlbTarget) (s : TlbState) (mapping : Nat → Nat → Mapping) : Prop :=
  ∀ mmuIdx < G.nbMmuModes, ∀ i, (∀ access, (s.table mmuIdx i).word access = none) ∨
      (mapping mmuIdx i).vaddr < 2 ^ G.longBits ∧ tlbIndex G.toTarget (mapping mmuIdx i).vaddr = i ∧
        s.table mmuIdx i = tlbEntry G.toTarget (mapping mmuIdx i).memory (mapping mmuIdx i).vaddr
          (mapping mmuIdx i).paddr (mapping mmuIdx i).prot (mapping mmuIdx i).size

def Direct (G : TlbTarget) (s : TlbState) (mmuIdx vaddr : Nat) (access : AccessType) : Prop :=
  ∃ word, (s.table mmuIdx (tlbIndex G.toTarget vaddr)).word access = some word ∧
    compared G.toTarget (some word) = G.pageBase vaddr ∧ word.mmio = false

def OnRange (U : UnmapTarget) (start finish paddr : Nat) : Prop :=
  ∃ addr, start ≤ addr ∧ addr ≤ finish ∧ addr / U.geometry.pageSize = paddr / U.geometry.pageSize

def NoDirect (s : TlbState) (mapping : Nat → Nat → Mapping) (start finish : Nat) : Prop :=
  ∀ mmuIdx < U.tlb.nbMmuModes, ∀ vaddr < 2 ^ U.tlb.longBits, ∀ access,
    Direct U.tlb s mmuIdx vaddr access →
      ¬OnRange U start finish (mapping mmuIdx (tlbIndex U.tlb.toTarget vaddr)).paddr

/-- The addresses from `start` on, one for each page. -/
def pageAddrs : Nat → Nat → List Nat
  | 0, _ => []
  | len + 1, start => start :: pageAddrs len (start + U.geometry.pageSize)

def flushedAddrs (map : PhysMap U.geometry) (addrs : List Nat) : List Nat :=
  (addrs.filter fun addr =>
    (physPageFind map (U.toPhys addr / U.geometry.pageSize)).isSome).map fun addr =>
      U.tlb.toUlong (U.toPhys addr)

def rangeFlushes (machine : Machine U) (start finish : Nat) : List Nat :=
  flushedAddrs U machine.map (pageAddrs U (visits U.geometry start (finish + 1)) start)

/-- The flushes reach every virtual page that leads directly to the range. -/
def FlushReaches (machine : Machine U) (mapping : Nat → Nat → Mapping) (start finish : Nat) : Prop :=
  (∃ addr ∈ rangeFlushes U machine start finish, machine.tlb.inLargePage addr = true) ∨
    ∀ mmuIdx < U.tlb.nbMmuModes, ∀ vaddr < 2 ^ U.tlb.longBits, ∀ access,
      Direct U.tlb machine.tlb mmuIdx vaddr access →
      OnRange U start finish (mapping mmuIdx (tlbIndex U.tlb.toTarget vaddr)).paddr →
        ∃ addr ∈ rangeFlushes U machine start finish, U.tlb.pageBase addr = U.tlb.pageBase vaddr

end Unmap

section Flushes

variable {G : TlbTarget} {s : TlbState} {addr mmuIdx i : Nat}

/-- An entry is not flushed by any of the pages. -/
def Survives (G : TlbTarget) (s : TlbState) (mmuIdx i : Nat) (addrs : List Nat) : Prop :=
  ∀ addr ∈ addrs, s.inLargePage addr = false ∧ (i = tlbIndex G.toTarget addr → ∀ access,
      compared G.toTarget ((s.table mmuIdx i).word access) ≠ G.pageBase addr)

theorem emptied_emptied (entry : CPUTLBEntry) : entry.emptied.emptied = entry.emptied := rfl

theorem tlbFlushEntry_eq (G : TlbTarget) (entry : CPUTLBEntry) (page : Nat) :
    (tlbFlushEntry G entry page = entry ∧ ∀ access, compared G.toTarget (entry.word access) ≠ page) ∨
      (tlbFlushEntry G entry page = entry.emptied ∧
        ∃ access, compared G.toTarget (entry.word access) = page) := by
  unfold tlbFlushEntry
  split
  next hit =>
    refine .inr ⟨rfl, ?_⟩
    obtain read | write | code := hit
    · exact ⟨.dataLoad, read.symm⟩
    · exact ⟨.dataStore, write.symm⟩
    · exact ⟨.instFetch, code.symm⟩
  next other =>
    rw [not_or, not_or] at other
    refine .inl ⟨rfl, fun access same => ?_⟩
    cases access with
    | dataLoad => exact other.1 same.symm
    | dataStore => exact other.2.1 same.symm
    | instFetch => exact other.2.2 same.symm

theorem tlbFlushPage_entry (less : mmuIdx < G.nbMmuModes) (small : addr < 2 ^ G.longBits) (i : Nat) :
    (Survives G s mmuIdx i [addr] ∧
        (tlbFlushPage G s addr false).table mmuIdx i = s.table mmuIdx i ∧
        (tlbFlushPage G s addr false).inLargePage = s.inLargePage) ∨
      (¬Survives G s mmuIdx i [addr] ∧
        (tlbFlushPage G s addr false).table mmuIdx i = (s.table mmuIdx i).emptied) := by
  have selected : (2 ^ 32 - 1).testBit mmuIdx = true := by
    rw [testBit_two_pow_sub_one, decide_eq_true_eq]
    exact less.trans_le G.nbMmuModes_le
  unfold tlbFlushPage tlbFlushPageMasked Survives
  simp only [forall_mem_singleton]
  by_cases inside : s.inLargePage addr = true
  · rw [if_pos inside]
    refine .inr ⟨fun survives => ?_, if_pos less⟩
    rw [survives.1] at inside
    cases inside
  · rw [if_neg inside]
    dsimp only
    rw [and_pageMask small, tlbIndex_pageBase]
    have outside : s.inLargePage addr = false := Bool.not_eq_true _ ▸ inside
    by_cases here : i = tlbIndex G.toTarget addr
    · rw [if_pos ⟨less, selected, here⟩]
      obtain ⟨kept, differs⟩ | ⟨cleared, access, hit⟩ :=
        tlbFlushEntry_eq G (s.table mmuIdx i) (G.pageBase addr)
      · exact .inl ⟨⟨outside, fun _ => differs⟩, kept, rfl⟩
      · exact .inr ⟨fun survives => survives.2 here access hit, cleared⟩
    · rw [if_neg (fun all => here all.2.2)]
      exact .inl ⟨⟨outside, fun index => absurd index here⟩, rfl, rfl⟩

theorem foldl_tlbFlushPage_entry (less : mmuIdx < G.nbMmuModes) (i : Nat) (addrs : List Nat)
    (small : ∀ addr ∈ addrs, addr < 2 ^ G.longBits) (s : TlbState) :
    (Survives G s mmuIdx i addrs ∧
        (addrs.foldl (fun s addr => tlbFlushPage G s addr false) s).table mmuIdx i =
          s.table mmuIdx i) ∨
      (¬Survives G s mmuIdx i addrs ∧
        (addrs.foldl (fun s addr => tlbFlushPage G s addr false) s).table mmuIdx i =
          (s.table mmuIdx i).emptied) := by
  induction addrs generalizing s with
  | nil => exact .inl ⟨fun addr member => absurd member not_mem_nil, rfl⟩
  | cons addr rest ih =>
    have smallRest := fun addr member => small addr (mem_cons_of_mem _ member)
    have split : Survives G s mmuIdx i (addr :: rest) ↔
        Survives G s mmuIdx i [addr] ∧ Survives G s mmuIdx i rest := by
      unfold Survives
      rw [forall_mem_cons, forall_mem_singleton]
    rw [foldl_cons, split]
    obtain ⟨survives, kept, region⟩ | ⟨flushed, emptied⟩ :=
      tlbFlushPage_entry (s := s) less (small addr mem_cons_self) i
    · have same : Survives G (tlbFlushPage G s addr false) mmuIdx i rest ↔
          Survives G s mmuIdx i rest := by
        unfold Survives
        rw [kept, region]
      obtain ⟨later, after⟩ | ⟨later, after⟩ := ih smallRest (tlbFlushPage G s addr false)
      · exact .inl ⟨⟨survives, same.mp later⟩, after.trans kept⟩
      · refine .inr ⟨fun both => later (same.mpr both.2), ?_⟩
        rw [after, kept]
    · refine .inr ⟨fun both => flushed both.1, ?_⟩
      obtain ⟨_, after⟩ | ⟨_, after⟩ := ih smallRest (tlbFlushPage G s addr false)
      · rw [after, emptied]
      · rw [after, emptied, emptied_emptied]

end Flushes

section Loop

variable {U : UnmapTarget} {machine : Machine U} {start finish : Nat}

theorem visits_succ (G : Geometry) {limit : Nat} (less : start < limit) :
    visits G start limit = visits G (start + G.pageSize) limit + 1 := by
  have pos := G.pageSize_pos
  unfold visits
  by_cases more : start + G.pageSize ≤ limit
  · rw [show limit - start + (G.pageSize - 1) =
      limit - (start + G.pageSize) + (G.pageSize - 1) + G.pageSize by omega, add_div_right _ pos]
  · rw [show limit - (start + G.pageSize) + (G.pageSize - 1) = G.pageSize - 1 by omega,
      div_eq_of_lt (show G.pageSize - 1 < G.pageSize by omega)]
    exact Nat.div_eq_of_lt_le (by omega) (by omega)

theorem pageSize_dvd (G : Geometry) : G.pageSize ∣ 2 ^ 64 :=
  Nat.pow_dvd_pow 2 (G.pageBits_le.trans (by decide))

theorem unmapLoop_eq {fuel : Nat} (startSmall : start < 2 ^ 64) (finishSmall : finish < 2 ^ 64)
    (enough : 2 ^ 64 / U.geometry.pageSize ≤ fuel + start / U.geometry.pageSize)
    (machine : Machine U) :
    unmapLoop U finish fuel start machine =
      some ((pageAddrs U (visits U.geometry start (finish + 1)) start).foldl (unmapPage U)
        machine) := by
  have pos := U.geometry.pageSize_pos
  induction fuel generalizing start machine with
  | zero =>
    rw [Nat.zero_add] at enough
    have whole := Nat.div_mul_cancel (pageSize_dvd U.geometry)
    have below := div_mul_le_self start U.geometry.pageSize
    have := Nat.mul_le_mul_right U.geometry.pageSize enough
    omega
  | succ fuel ih =>
    unfold unmapLoop
    by_cases inside : start ≤ finish
    · rw [if_pos inside, visits_succ U.geometry (by omega)]
      have small : U.geometry.pageSize < 2 ^ 64 :=
        Nat.pow_lt_pow_right (by decide) (U.geometry.pageBits_le.trans_lt (by decide))
      by_cases wraps : 2 ^ 64 ≤ start + U.geometry.pageSize
      · have next : (start + U.geometry.pageSize) % 2 ^ 64 =
            start + U.geometry.pageSize - 2 ^ 64 := by
          rw [mod_eq_sub_mod wraps]
          exact mod_eq_of_lt (by omega)
        rw [next, if_pos (by omega), visits_eq_zero (by omega)]
        rfl
      · have next : (start + U.geometry.pageSize) % 2 ^ 64 = start + U.geometry.pageSize :=
          mod_eq_of_lt (by omega)
        rw [next, if_neg (by omega)]
        refine ih (by omega) ?_ _
        rw [add_div_right _ pos]
        omega
    · rw [if_neg inside, visits_eq_zero (by omega)]
      rfl

theorem tlibUnmapRange_eq (machine : Machine U) (startSmall : start < 2 ^ 64)
    (finishSmall : finish < 2 ^ 64) :
    tlibUnmapRange U machine start finish =
      some ((pageAddrs U (visits U.geometry start (finish + 1)) start).foldl (unmapPage U)
        machine) :=
  unmapLoop_eq startSmall finishSmall (Nat.le_add_right _ _) machine

theorem unmapPage_found (addr index : Nat) :
    (physPageFind (unmapPage U machine addr).map index).isSome =
      (physPageFind machine.map index).isSome := by
  unfold unmapPage Memory.unmapPage
  dsimp only
  cases found : physPageFind machine.map (U.toPhys addr / U.geometry.pageSize) with
  | none => rfl
  | some pd =>
    have reduced : U.toPhys addr % 2 ^ U.geometry.addrBits = U.toPhys addr := mod_mod _ _
    rw [reduced, found]
    dsimp only
    split
    · exact Memory.physPageFind_setDesc_isSome found index
    · rfl

theorem unmapPage_tlb (addr : Nat) : (unmapPage U machine addr).tlb =
      (flushedAddrs U machine.map [addr]).foldl (fun s addr => tlbFlushPage U.tlb s addr false)
        machine.tlb := by
  unfold unmapPage flushedAddrs
  cases found : physPageFind machine.map (U.toPhys addr / U.geometry.pageSize) with
  | none => simp [found]
  | some pd => simp [found]

theorem flushedAddrs_congr {map map' : PhysMap U.geometry} (addrs : List Nat)
    (same : ∀ index, (physPageFind map' index).isSome = (physPageFind map index).isSome) :
    flushedAddrs U map' addrs = flushedAddrs U map addrs := by
  unfold flushedAddrs
  simp [same]

theorem foldl_unmapPage_tlb (addrs : List Nat) (machine : Machine U) :
    (addrs.foldl (unmapPage U) machine).tlb =
      (flushedAddrs U machine.map addrs).foldl (fun s addr => tlbFlushPage U.tlb s addr false)
        machine.tlb := by
  induction addrs generalizing machine with
  | nil => rfl
  | cons addr rest ih =>
    have split : flushedAddrs U machine.map (addr :: rest) =
        flushedAddrs U machine.map [addr] ++ flushedAddrs U machine.map rest := by
      unfold flushedAddrs
      rw [← map_append, ← filter_append, singleton_append]
    rw [foldl_cons, ih, flushedAddrs_congr rest (unmapPage_found addr), unmapPage_tlb, split,
      foldl_append]

end Loop

section Left

variable {U : UnmapTarget} {machine : Machine U} {mapping : Nat → Nat → Mapping}
  {start finish : Nat}

theorem flushedAddrs_lt {map : PhysMap U.geometry} {addrs : List Nat} :
    ∀ addr ∈ flushedAddrs U map addrs, addr < 2 ^ U.tlb.longBits := by
  intro addr member
  obtain ⟨_, _, rfl⟩ := mem_map.mp member
  exact mod_lt _ (Nat.two_pow_pos _)

theorem HoldsMappings.page_eq {G : TlbTarget} {s : TlbState} (holds : HoldsMappings G s mapping)
    {mmuIdx i : Nat} (less : mmuIdx < G.nbMmuModes) {access other : AccessType}
    {word otherWord : TlbAddress} (found : (s.table mmuIdx i).word access = some word)
    (otherFound : (s.table mmuIdx i).word other = some otherWord) :
    word.page < 2 ^ G.longBits ∧ word.page = otherWord.page := by
  obtain none_ | ⟨small, _, entry⟩ := holds mmuIdx less i
  · rw [none_ access] at found
    cases found
  · rw [entry] at found otherFound
    rw [tlbEntry_page found, tlbEntry_page otherFound]
    exact ⟨small, rfl⟩

theorem survives_iff {G : TlbTarget} {s : TlbState} (holds : HoldsMappings G s mapping)
    {mmuIdx vaddr : Nat} {access : AccessType} {addrs : List Nat} (less : mmuIdx < G.nbMmuModes)
    (direct : Direct G s mmuIdx vaddr access) :
    Survives G s mmuIdx (tlbIndex G.toTarget vaddr) addrs ↔
      ∀ addr ∈ addrs, s.inLargePage addr = false ∧ G.pageBase addr ≠ G.pageBase vaddr := by
  obtain ⟨word, found, reaches, _⟩ := direct
  constructor
  · intro survives addr member
    obtain ⟨outside, differs⟩ := survives addr member
    refine ⟨outside, fun same => ?_⟩
    have kept := differs (tlbIndex_of_page same.symm) access
    rw [found, reaches] at kept
    exact kept same.symm
  · intro apart addr member
    obtain ⟨outside, other⟩ := apart addr member
    refine ⟨outside, fun index access' hit => other ?_⟩
    cases at_ : (s.table mmuIdx (tlbIndex G.toTarget vaddr)).word access' with
    | none =>
      rw [at_] at hit
      exact absurd hit compared_none_ne
    | some word' =>
      rw [at_] at hit
      obtain ⟨small', same⟩ := holds.page_eq less at_ found
      rw [← pageBase_of_compared small' hit, same]
      exact pageBase_of_compared (same ▸ small') reaches

theorem noDirect_iff (holds : HoldsMappings U.tlb machine.tlb mapping) (addrs : List Nat)
    (small : ∀ addr ∈ addrs, addr < 2 ^ U.tlb.longBits) :
    NoDirect U (addrs.foldl (fun s addr => tlbFlushPage U.tlb s addr false) machine.tlb) mapping
        start finish ↔
      (∃ addr ∈ addrs, machine.tlb.inLargePage addr = true) ∨
        ∀ mmuIdx < U.tlb.nbMmuModes, ∀ vaddr < 2 ^ U.tlb.longBits, ∀ access,
          Direct U.tlb machine.tlb mmuIdx vaddr access →
          OnRange U start finish (mapping mmuIdx (tlbIndex U.tlb.toTarget vaddr)).paddr →
            ∃ addr ∈ addrs, U.tlb.pageBase addr = U.tlb.pageBase vaddr := by
  constructor
  · intro noDirect
    by_cases large : ∃ addr ∈ addrs, machine.tlb.inLargePage addr = true
    · exact .inl large
    · refine .inr fun mmuIdx less vaddr vaddrSmall access direct onRange => ?_
      by_contra apart
      have survives : Survives U.tlb machine.tlb mmuIdx (tlbIndex U.tlb.toTarget vaddr) addrs := by
        refine (survives_iff holds less direct).mpr fun addr member => ⟨?_, fun same => ?_⟩
        · exact Bool.not_eq_true _ ▸ fun inside => large ⟨addr, member, inside⟩
        · exact apart ⟨addr, member, same⟩
      obtain ⟨_, kept⟩ | ⟨flushed, _⟩ := foldl_tlbFlushPage_entry less
        (tlbIndex U.tlb.toTarget vaddr) addrs small machine.tlb
      · refine noDirect mmuIdx less vaddr vaddrSmall access ?_ onRange
        unfold Direct
        rw [kept]
        exact direct
      · exact flushed survives
  · intro reaches mmuIdx less vaddr vaddrSmall access direct onRange
    obtain ⟨survives, kept⟩ | ⟨_, emptied⟩ := foldl_tlbFlushPage_entry less
      (tlbIndex U.tlb.toTarget vaddr) addrs small machine.tlb
    · unfold Direct at direct
      rw [kept] at direct
      have apart := (survives_iff holds less direct).mp survives
      obtain ⟨addr, member, inside⟩ | reaches := reaches
      · rw [(apart addr member).1] at inside
        cases inside
      · obtain ⟨addr, member, same⟩ := reaches mmuIdx less vaddr vaddrSmall access direct onRange
        exact (apart addr member).2 same
    · obtain ⟨word, found, _⟩ := direct
      rw [emptied, emptied_word] at found
      cases found

/-- The loop ends for every range, and leaves each entry as it is or empties it. No entry is
left that leads directly to the range exactly if the flushes reach those that did. -/
theorem unmapRange_noDirect_iff (machine : Machine U) (mapping : Nat → Nat → Mapping)
    (startSmall : start < 2 ^ 64) (finishSmall : finish < 2 ^ 64)
    (holds : HoldsMappings U.tlb machine.tlb mapping) :
    ∃ machine', tlibUnmapRange U machine start finish = some machine' ∧
      (∀ mmuIdx < U.tlb.nbMmuModes, ∀ i, machine'.tlb.table mmuIdx i = machine.tlb.table mmuIdx i ∨
          machine'.tlb.table mmuIdx i = (machine.tlb.table mmuIdx i).emptied) ∧
      (NoDirect U machine'.tlb mapping start finish ↔
        FlushReaches U machine mapping start finish) := by
  refine ⟨_, tlibUnmapRange_eq machine startSmall finishSmall, ?_, ?_⟩
  · intro mmuIdx less i
    rw [foldl_unmapPage_tlb]
    obtain ⟨_, kept⟩ | ⟨_, emptied⟩ := foldl_tlbFlushPage_entry less i _ flushedAddrs_lt machine.tlb
    · exact .inl kept
    · exact .inr emptied
  · rw [foldl_unmapPage_tlb]
    exact noDirect_iff holds _ flushedAddrs_lt

end Left

/-- Physical addresses of 56 bits. -/
def sampleGeometry : Geometry where
  pageBits := 12
  physBits := 56
  addrBits := 64
  pageBits_ge := riscv64Geometry.pageBits_ge
  pageBits_le := riscv64Geometry.pageBits_le
  physBits_ge := riscv64Geometry.physBits_ge
  physBits_lt := riscv64Geometry.physBits_lt
  addrBits_eq := riscv64Geometry.addrBits_eq

/-- Pages of 4 KiB in words of 64 bits. -/
def sampleUnmapTarget : UnmapTarget where
  geometry := sampleGeometry
  tlb :=
    { pageBits := 12
      longBits := 64
      physAddrBits := 64
      pageBits_ge := Target.pages4K_ge
      pageBits_le := by decide
      nbMmuModes := 4
      nbMmuModes_le := pagedTarget.nbMmuModes_le }
  samePages := rfl

def allRam : MemoryMap where
  physPageFind index := some ⟨index * 2 ^ 12, 0, false, false, true⟩
  checkExternalPermissions _ := true
  getRamPtr offset := offset
  isIoAccessed _ := false

/-- A virtual page that leads to the physical page at `0x1000`. -/
def pageMapping (vaddr : Nat) : Mapping := ⟨allRam, vaddr, 0x1000, 7, 2 ^ 12⟩

def onePage (vaddr : Nat) : Machine sampleUnmapTarget where
  map := Memory.setDesc (Library.RadixTree.Tree.empty sampleUnmapTarget.geometry.shape) 1 fun pd =>
    { pd with physOffset := 0x1000 }
  tlb :=
    { table := fun mmuIdx i =>
        if mmuIdx = 0 ∧ i = tlbIndex sampleUnmapTarget.tlb.toTarget vaddr then
          tlbEntry sampleUnmapTarget.tlb.toTarget allRam vaddr 0x1000 7 (2 ^ 12)
        else ⟨none, none, none, 2 ^ 64 - 1, 0⟩
      flushAddr := 2 ^ 64 - 1
      flushMask := 0
      tbJmpCache := fun _ => none
      currentTb := none }

theorem onePage_holds {vaddr : Nat} (small : vaddr < 2 ^ 64) :
    HoldsMappings sampleUnmapTarget.tlb (onePage vaddr).tlb fun _ _ => pageMapping vaddr := by
  intro mmuIdx less i
  by_cases here : mmuIdx = 0 ∧ i = tlbIndex sampleUnmapTarget.tlb.toTarget vaddr
  · exact .inr ⟨small, here.2.symm, if_pos here⟩
  · refine .inl fun access => ?_
    have empty : (onePage vaddr).tlb.table mmuIdx i = ⟨none, none, none, 2 ^ 64 - 1, 0⟩ :=
      if_neg here
    rw [empty]
    cases access <;> rfl

/-- The page is mapped to itself. -/
theorem unmapRange_identity :
    ∃ machine', tlibUnmapRange sampleUnmapTarget (onePage 0x1000) 0x1000 0x1FFF = some machine' ∧
      (∀ mmuIdx < sampleUnmapTarget.tlb.nbMmuModes, ∀ i,
        machine'.tlb.table mmuIdx i = (onePage 0x1000).tlb.table mmuIdx i ∨
          machine'.tlb.table mmuIdx i = ((onePage 0x1000).tlb.table mmuIdx i).emptied) ∧
      (NoDirect sampleUnmapTarget machine'.tlb (fun _ _ => pageMapping 0x1000) 0x1000 0x1FFF ↔
        FlushReaches sampleUnmapTarget (onePage 0x1000) (fun _ _ => pageMapping 0x1000) 0x1000
          0x1FFF) :=
  unmapRange_noDirect_iff (onePage 0x1000) (fun _ _ => pageMapping 0x1000) (by decide) (by decide)
    (onePage_holds (by decide))

/-- A virtual page other than the physical one stays mapped. -/
theorem unmapRange_misses_alias :
    ¬∀ (U : UnmapTarget) (machine : Machine U) (mapping : Nat → Nat → Mapping) (start finish : Nat),
      start < 2 ^ 64 → finish < 2 ^ 64 → HoldsMappings U.tlb machine.tlb mapping →
      ∃ machine', tlibUnmapRange U machine start finish = some machine' ∧
        NoDirect U machine'.tlb mapping start finish := by
  intro always
  have holds := @onePage_holds 0x5000 (by decide)
  obtain ⟨machine', done, noDirect⟩ := always sampleUnmapTarget (onePage 0x5000)
    (fun _ _ => pageMapping 0x5000) 0x1000 0x1FFF (by decide) (by decide) holds
  rw [tlibUnmapRange_eq _ (by decide) (by decide), Option.some.injEq] at done
  subst done
  rw [foldl_unmapPage_tlb, noDirect_iff holds _ flushedAddrs_lt] at noDirect
  have only (addr : Nat) (member : addr ∈ flushedAddrs sampleUnmapTarget (onePage 0x5000).map
      (pageAddrs sampleUnmapTarget
        (visits sampleUnmapTarget.geometry 0x1000 (0x1FFF + 1)) 0x1000)) : addr = 0x1000 := by
    obtain ⟨start, kept, rfl⟩ := mem_map.mp member
    obtain rfl : start = 0x1000 := mem_singleton.mp (mem_filter.mp kept).1
    rfl
  obtain ⟨addr, member, inside⟩ | reaches := noDirect
  · obtain rfl := only addr member
    exact absurd inside (by decide)
  · have direct : Direct sampleUnmapTarget.tlb (onePage 0x5000).tlb 0 0x5000 .dataLoad :=
      ⟨⟨0x5000, false, false, false, false⟩, rfl, by decide, rfl⟩
    obtain ⟨addr, member, same⟩ := reaches 0 (by decide) 0x5000 (by decide) .dataLoad direct
      ⟨0x1000, by decide, by decide, rfl⟩
    obtain rfl := only addr member
    exact absurd same (by decide)

end Tlib.Softmmu
