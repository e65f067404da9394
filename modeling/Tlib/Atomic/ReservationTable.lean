import Tlib.Atomic.Reservations

/-!
Contract: what the operations do to the table of reservations.

Owns: that every operation returns, the map from CPUs to locations that a reachable table stands
for, and the effect of each call on it.
-/

namespace Tlib.Atomic

open Function List Option

variable {s s' : AtomicMemoryState} {cpu other address i turns position : Nat}
  {manualFree isManual : Bool}

/-! ### Reading the table -/

section

variable (table : Table s)

include table

theorem Table.owner_inj {j : Nat} (less : i < s.reservationsCount)
    (less' : j < s.reservationsCount)
    (same : (s.reservations i).lockingCpuId = (s.reservations j).lockingCpuId) : i = j := by
  have index := table.byCpu_owner i less
  rw [same, table.byCpu_owner j less'] at index
  exact (some.inj index).symm

theorem Table.lt_max (less : i < s.reservationsCount) : i < maxNumberOfCpus :=
  less.trans_le table.count_le

theorem Table.ne_of_owner_ne {other j : Nat} (less : other < maxNumberOfCpus)
    (index : s.reservationsByCpu other = some j)
    (apart : other ≠ (s.reservations i).lockingCpuId) : j ≠ i := by
  rintro rfl
  exact apart (table.owner_byCpu other less j index).2.symm

theorem Table.held_eq_some (less : cpu < maxNumberOfCpus) {held : Held} :
    s.held cpu = some held ↔ ∃ i < s.reservationsCount,
      (s.reservations i).lockingCpuId = cpu ∧ (s.reservations i).held = held := by
  unfold AtomicMemoryState.held
  rw [map_eq_some_iff]
  constructor
  · intro named
    obtain ⟨i, index, same⟩ := named
    obtain ⟨inside, owner⟩ := table.owner_byCpu cpu less i index
    exact ⟨i, inside, owner, same⟩
  · intro entry
    obtain ⟨i, inside, owner, same⟩ := entry
    refine ⟨i, ?_, same⟩
    rw [← owner]
    exact table.byCpu_owner i inside

theorem Table.held_owner (less : i < s.reservationsCount) :
    s.held (s.reservations i).lockingCpuId = some (s.reservations i).held := by
  unfold AtomicMemoryState.held
  rw [table.byCpu_owner i less]
  rfl

theorem Table.findReservationByCpu (less : cpu < maxNumberOfCpus) :
    findReservationByCpu s cpu = .ok (s.reservationsByCpu cpu) := by
  unfold Atomic.findReservationByCpu
  cases index : s.reservationsByCpu cpu with
  | none => rfl
  | some i =>
    have inside := (table.owner_byCpu cpu less i index).1
    exact if_neg (Nat.not_le_of_lt inside)

theorem Table.count_lt (less : cpu < maxNumberOfCpus)
    (none' : s.reservationsByCpu cpu = none) : s.reservationsCount < maxNumberOfCpus := by
  have owners : Set.MapsTo (fun i => (s.reservations i).lockingCpuId)
      (Finset.range s.reservationsCount) ((Finset.range maxNumberOfCpus).erase cpu) := by
    intro i member
    have inside : i < s.reservationsCount := by simpa using member
    have ne : (s.reservations i).lockingCpuId ≠ cpu := by
      intro same
      have index := table.byCpu_owner i inside
      rw [same, none'] at index
      cases index
    simpa using And.intro (table.owner_lt i inside) ne
  have distinct : Set.InjOn (fun i => (s.reservations i).lockingCpuId)
      (Finset.range s.reservationsCount) := by
    intro i member j member' same
    exact table.owner_inj (by simpa using member) (by simpa using member') same
  have card := Finset.card_le_card_of_injOn _ owners distinct
  rw [Finset.card_range, Finset.card_erase_of_mem (Finset.mem_range.mpr less),
    Finset.card_range] at card
  unfold maxNumberOfCpus at card ⊢
  omega

end

theorem table_start : Table initializeAtomicMemoryState where
  count_le := Nat.zero_le _
  active_iff i _ := by simp [initializeAtomicMemoryState]
  id_eq _ _ := rfl
  owner_lt i less := absurd less (Nat.not_lt_zero i)
  byCpu_owner i less := absurd less (Nat.not_lt_zero i)
  owner_byCpu cpu _ i index := by cases index

/-! ### Making a reservation -/

theorem Table.makeReservation (table : Table s) (address : Nat) (manualFree : Bool)
    (less : cpu < maxNumberOfCpus)
    (none' : s.reservationsByCpu cpu = none) :
    ∃ s', makeReservation s cpu address manualFree = .ok s' ∧ Table s' ∧
      ∀ other < maxNumberOfCpus, s'.held other =
        update s.held cpu (some { address := address, manualFree := manualFree })
          other := by
  have room := table.count_lt less none'
  refine ⟨_, if_neg (Nat.ne_of_lt room), ?_, ?_⟩
  · refine ⟨room, ?_, ?_, ?_, ?_, ?_⟩
    · intro i inside
      dsimp only
      by_cases last : i = s.reservationsCount
      · rw [last, update_self]
        simp
      · rw [update_of_ne last, table.active_iff i inside]
        omega
    · intro i inside
      dsimp only
      by_cases last : i = s.reservationsCount
      · rw [last, update_self]
        exact table.id_eq s.reservationsCount room
      · rw [update_of_ne last]
        exact table.id_eq i inside
    · intro i inside
      dsimp only at inside ⊢
      by_cases last : i = s.reservationsCount
      · rw [last, update_self]
        exact less
      · rw [update_of_ne last]
        exact table.owner_lt i (by omega)
    · intro i inside
      dsimp only at inside ⊢
      by_cases last : i = s.reservationsCount
      · rw [last, update_self, update_self]
      · have index := table.byCpu_owner i (by omega)
        have ne : (s.reservations i).lockingCpuId ≠ cpu := by
          intro same
          rw [same, none'] at index
          cases index
        rw [update_of_ne last, update_of_ne ne]
        exact index
    · intro other otherLess i index
      dsimp only at index ⊢
      by_cases same : other = cpu
      · rw [same, update_self] at index
        rw [← some.inj index, update_self]
        exact ⟨Nat.lt_succ_self _, same.symm⟩
      · rw [update_of_ne same] at index
        obtain ⟨inside, owner⟩ := table.owner_byCpu other otherLess i index
        rw [update_of_ne (Nat.ne_of_lt inside)]
        exact ⟨Nat.lt_succ_of_lt inside, owner⟩
  · intro other otherLess
    unfold AtomicMemoryState.held
    dsimp only
    by_cases same : other = cpu
    · rw [same, update_self, update_self, map_some, update_self]
      rfl
    · rw [update_of_ne same, update_of_ne same]
      cases index : s.reservationsByCpu other with
      | none => rfl
      | some i =>
        have inside := (table.owner_byCpu other otherLess i index).1
        rw [map_some, map_some, update_of_ne (Nat.ne_of_lt inside)]

/-! ### Freeing a reservation -/

structure Freed (s s' : AtomicMemoryState) (i : Nat) : Prop where
  table : Table s'
  count : s'.reservationsCount = s.reservationsCount - 1
  before : ∀ j < i, s'.reservations j = s.reservations j
  held : ∀ other < maxNumberOfCpus, s'.held other =
    update s.held (s.reservations i).lockingCpuId none other

theorem Table.freed_last (table : Table s) (inside : i < s.reservationsCount)
    (last : i = s.reservationsCount - 1) :
    Freed s (s.unown (s.reservations i).lockingCpuId).dropLast i := by
  have others : ∀ j < s.reservationsCount, j ≠ i →
      (s.reservations j).lockingCpuId ≠ (s.reservations i).lockingCpuId :=
    fun j less ne same => ne (table.owner_inj less inside same)
  unfold AtomicMemoryState.dropLast AtomicMemoryState.unown
  dsimp only
  rw [← last]
  refine ⟨⟨?_, ?_, ?_, ?_, ?_, ?_⟩, last, ?_, ?_⟩
  · have := table.count_le
    dsimp only
    omega
  · intro j less
    dsimp only
    by_cases same : j = i
    · rw [same, update_self]
      simp
    · rw [update_of_ne same, table.active_iff j less]
      omega
  · intro j less
    dsimp only
    by_cases same : j = i
    · rw [same, update_self]
      exact table.id_eq i (table.lt_max inside)
    · rw [update_of_ne same]
      exact table.id_eq j less
  · intro j less
    dsimp only at less ⊢
    rw [update_of_ne (Nat.ne_of_lt less)]
    exact table.owner_lt j (by omega)
  · intro j less
    dsimp only at less ⊢
    rw [update_of_ne (Nat.ne_of_lt less), update_of_ne (others j (by omega) (Nat.ne_of_lt less))]
    exact table.byCpu_owner j (by omega)
  · intro other otherLess j index
    dsimp only at index ⊢
    by_cases owner : other = (s.reservations i).lockingCpuId
    · rw [owner, update_self] at index
      cases index
    · rw [update_of_ne owner] at index
      obtain ⟨less, named⟩ := table.owner_byCpu other otherLess j index
      have ne := table.ne_of_owner_ne otherLess index owner
      rw [update_of_ne ne]
      exact ⟨by omega, named⟩
  · intro j less
    exact update_of_ne (Nat.ne_of_lt less) _ _
  · intro other otherLess
    unfold AtomicMemoryState.held
    dsimp only
    by_cases owner : other = (s.reservations i).lockingCpuId
    · rw [owner, update_self, update_self]
      rfl
    · rw [update_of_ne owner, update_of_ne owner]
      cases index : s.reservationsByCpu other with
      | none => rfl
      | some j =>
        have ne := table.ne_of_owner_ne otherLess index owner
        rw [map_some, map_some, update_of_ne ne]

theorem Table.freed_hole (table : Table s) (inside : i < s.reservationsCount - 1) :
    Freed s ((s.unown (s.reservations i).lockingCpuId).moveLast i).dropLast i := by
  have insideLast : s.reservationsCount - 1 < s.reservationsCount := by omega
  have owners : (s.reservations (s.reservationsCount - 1)).lockingCpuId ≠
      (s.reservations i).lockingCpuId := fun same =>
    (Nat.ne_of_gt inside) (table.owner_inj insideLast (by omega) same)
  have id := table.id_eq i (table.lt_max (by omega))
  generalize lastEq : s.reservationsCount - 1 = last at *
  unfold AtomicMemoryState.dropLast AtomicMemoryState.moveLast AtomicMemoryState.unown
  dsimp only
  rw [id, lastEq]
  have ne : last ≠ i := Nat.ne_of_gt inside
  refine ⟨⟨?_, ?_, ?_, ?_, ?_, ?_⟩, lastEq.symm ▸ rfl, ?_, ?_⟩
  · have := table.count_le
    dsimp only
    omega
  · intro j less
    dsimp only
    by_cases final : j = last
    · rw [final, update_self]
      simp
    · rw [update_of_ne final]
      by_cases here : j = i
      · rw [here, update_self]
        dsimp only
        rw [table.active_iff i (table.lt_max (by omega))]
        omega
      · rw [update_of_ne here, table.active_iff j less]
        omega
  · intro j less
    dsimp only
    by_cases final : j = last
    · rw [final, update_self, update_of_ne ne]
      exact table.id_eq last (table.lt_max insideLast)
    · rw [update_of_ne final]
      by_cases here : j = i
      · rw [here, update_self]
      · rw [update_of_ne here]
        exact table.id_eq j less
  · intro j less
    dsimp only at less ⊢
    rw [update_of_ne (Nat.ne_of_lt less)]
    by_cases here : j = i
    · rw [here, update_self]
      exact table.owner_lt last insideLast
    · rw [update_of_ne here]
      exact table.owner_lt j (by omega)
  · intro j less
    dsimp only at less ⊢
    rw [update_of_ne (Nat.ne_of_lt less)]
    by_cases here : j = i
    · rw [here, update_self, update_self]
    · have fromLast : (s.reservations j).lockingCpuId ≠
          (s.reservations last).lockingCpuId := fun same =>
        (Nat.ne_of_lt less) (table.owner_inj (by omega) insideLast same)
      have fromHere : (s.reservations j).lockingCpuId ≠ (s.reservations i).lockingCpuId :=
        fun same => here (table.owner_inj (by omega) (by omega) same)
      rw [update_of_ne here, update_of_ne fromLast, update_of_ne fromHere]
      exact table.byCpu_owner j (by omega)
  · intro other otherLess j index
    dsimp only at index ⊢
    by_cases moved : other = (s.reservations last).lockingCpuId
    · rw [moved, update_self] at index
      rw [← some.inj index, update_of_ne ne.symm, update_self]
      exact ⟨inside, moved.symm⟩
    · rw [update_of_ne moved] at index
      by_cases owner : other = (s.reservations i).lockingCpuId
      · rw [owner, update_self] at index
        cases index
      · rw [update_of_ne owner] at index
        obtain ⟨less, named⟩ := table.owner_byCpu other otherLess j index
        have fromLast := table.ne_of_owner_ne otherLess index moved
        have fromHere := table.ne_of_owner_ne otherLess index owner
        rw [update_of_ne fromLast, update_of_ne fromHere]
        exact ⟨by omega, named⟩
  · intro j less
    dsimp only
    rw [update_of_ne (Nat.ne_of_lt (less.trans inside)), update_of_ne (Nat.ne_of_lt less)]
  · intro other otherLess
    unfold AtomicMemoryState.held
    dsimp only
    by_cases moved : other = (s.reservations last).lockingCpuId
    · rw [moved, update_self, update_of_ne owners, map_some,
        update_of_ne ne.symm, update_self, table.byCpu_owner last insideLast]
      rfl
    · rw [update_of_ne moved]
      by_cases owner : other = (s.reservations i).lockingCpuId
      · rw [owner, update_self, update_self]
        rfl
      · rw [update_of_ne owner, update_of_ne owner]
        cases index : s.reservationsByCpu other with
        | none => rfl
        | some j =>
          have fromLast := table.ne_of_owner_ne otherLess index moved
          have fromHere := table.ne_of_owner_ne otherLess index owner
          rw [map_some, map_some, update_of_ne fromLast, update_of_ne fromHere]

theorem Table.freeReservation (table : Table s) (isManual : Bool)
    (inside : i < s.reservationsCount)
    (allowed : ((s.reservations i).manualFree && !isManual) = false) :
    ∃ s', freeReservation s i isManual = .ok (s', true) ∧ Freed s s' i := by
  have active := (table.active_iff i (table.lt_max inside)).mpr inside
  have lastActive := (table.active_iff (s.reservationsCount - 1) (table.lt_max (by omega))).mpr
    (by omega)
  have id := table.id_eq i (table.lt_max inside)
  unfold Atomic.freeReservation
  dsimp only
  rw [active, lastActive, allowed, id, if_neg (by simp), if_neg (by omega), if_neg (by simp)]
  by_cases last : i = s.reservationsCount - 1
  · rw [if_neg (by simpa using last)]
    exact ⟨_, rfl, table.freed_last inside last⟩
  · rw [if_pos last, if_pos (by simp)]
    exact ⟨_, rfl, table.freed_hole (by omega)⟩

theorem Table.freeReservation_manual (table : Table s) (inside : i < s.reservationsCount)
    (manual : (s.reservations i).manualFree = true) :
    Atomic.freeReservation s i false = .ok (s, false) := by
  have active := (table.active_iff i (table.lt_max inside)).mpr inside
  unfold Atomic.freeReservation
  dsimp only
  rw [active, manual, if_neg (by simp), if_neg (by omega), if_pos (by simp)]

/-! ### The scan of `register_address_access` -/

theorem findReservationOnAddress_some (found : findReservationOnAddress s address position = some i) :
    position ≤ i ∧ i < s.reservationsCount ∧ (s.reservations i).address = address ∧
      ∀ j < i, position ≤ j → (s.reservations j).address ≠ address := by
  unfold findReservationOnAddress at found
  obtain ⟨match', before, after, split, earlier⟩ := List.find?_eq_some_iff_append.mp found
  have member : i ∈ range' position (s.reservationsCount - position) := by
    rw [split]
    simp
  have bounds := mem_range'_1.mp member
  refine ⟨bounds.1, by omega, by simpa using match', ?_⟩
  intro j less from'
  have inside : j ∈ range' position (s.reservationsCount - position) :=
    mem_range'_1.mpr ⟨from', by omega⟩
  have ascending : (before ++ i :: after).Pairwise (· < ·) := by
    rw [← split]
    exact pairwise_lt_range'
  rw [split, mem_append, mem_cons] at inside
  rcases inside with member | same | later
  · simpa using earlier j member
  · omega
  · have above := (pairwise_cons.mp (pairwise_append.mp ascending).2.1).1 j later
    omega

theorem findReservationOnAddress_none (found : findReservationOnAddress s address position = none) :
    ∀ j < s.reservationsCount, position ≤ j → (s.reservations j).address ≠ address := by
  unfold findReservationOnAddress at found
  intro j less from'
  have none' := List.find?_eq_none.mp found j (mem_range'_1.mpr ⟨from', by omega⟩)
  simpa using none'

def Kept (s : AtomicMemoryState) (cpu address j : Nat) : Prop :=
  (s.reservations j).address = address →
    (s.reservations j).lockingCpuId = cpu ∨ (s.reservations j).manualFree = true

theorem Table.registerAddressAccess (turns : Nat) :
    ∀ {s : AtomicMemoryState} {position : Nat}, Table s →
      (∀ j < position, j < s.reservationsCount → Kept s cpu address j) →
      s.reservationsCount - position < turns →
      ∃ s', registerAddressAccess cpu address turns s position = .ok s' ∧ Table s' ∧
        ∀ other < maxNumberOfCpus, s'.held other = s.held.apply (.access cpu address) other := by
  induction turns with
  | zero =>
    intro s position _ _ enough
    exact absurd enough (Nat.not_lt_zero _)
  | succ turns ih =>
    intro s position table kept enough
    unfold Atomic.registerAddressAccess
    cases found : findReservationOnAddress s address position with
    | none =>
      refine ⟨s, rfl, table, ?_⟩
      intro other less
      unfold ReservationMap.apply
      refine (if_neg ?_).symm
      intro freed
      obtain ⟨i, inside, owner, held⟩ := (table.held_eq_some less).mp freed.2
      have same : (s.reservations i).address = address := congrArg Held.address held
      have automatic : (s.reservations i).manualFree = false := congrArg Held.manualFree held
      by_cases before : i < position
      · rcases kept i before inside same with own | manual
        · exact freed.1 (owner.symm.trans own)
        · rw [automatic] at manual
          cases manual
      · exact findReservationOnAddress_none found i inside (Nat.le_of_not_lt before) same
    | some i =>
      obtain ⟨above, inside, match', between⟩ := findReservationOnAddress_some found
      have id := table.id_eq i (table.lt_max inside)
      have keptBelow : ∀ j < i, Kept s cpu address j := by
        intro j less
        by_cases before : j < position
        · exact kept j before (by omega)
        · intro same
          exact absurd same (between j less (Nat.le_of_not_lt before))
      dsimp only
      rw [id]
      by_cases own : (s.reservations i).lockingCpuId = cpu
      · rw [if_neg (not_not.mpr own)]
        refine ih table ?_ (by omega)
        intro j less _
        by_cases last : j = i
        · rw [last]
          exact fun _ => .inl own
        · exact keptBelow j (by omega)
      · rw [if_pos own]
        cases manual : (s.reservations i).manualFree with
        | true =>
          rw [table.freeReservation_manual inside manual]
          refine ih table ?_ (by rw [if_neg (by simp)]; omega)
          intro j less _
          rw [if_neg (by simp)] at less
          by_cases last : j = i
          · rw [last]
            exact fun _ => .inr manual
          · exact keptBelow j (by omega)
        | false =>
          obtain ⟨middle, done, freed⟩ :=
            table.freeReservation false inside (by rw [manual]; rfl)
          rw [done]
          have count := freed.count
          have keptBelow' : ∀ j < i, j < middle.reservationsCount → Kept middle cpu address j := by
            intro j less _
            unfold Kept
            rw [freed.before j less]
            exact keptBelow j less
          obtain ⟨s', later, table', held⟩ := ih freed.table keptBelow' (by omega)
          refine ⟨s', ?_, table', ?_⟩
          · simpa using later
          · intro other less
            rw [held other less]
            unfold ReservationMap.apply
            dsimp only
            rw [freed.held other less]
            by_cases owner : other = (s.reservations i).lockingCpuId
            · rw [owner, update_self, table.held_owner inside]
              unfold AddressReservation.held
              rw [match', manual, if_neg (by simp), if_pos ⟨own, rfl⟩]
            · rw [update_of_ne owner]

theorem registerAddressAccess_mono {more : Nat} (le : turns ≤ more) :
    ∀ {s : AtomicMemoryState} {position : Nat},
      registerAddressAccess cpu address turns s position = .ok s' →
      registerAddressAccess cpu address more s position = .ok s' := by
  induction turns generalizing more with
  | zero =>
    intro s position done
    cases done
  | succ turns ih =>
    intro s position done
    obtain ⟨more, rfl⟩ : ∃ less, more = less + 1 := ⟨more - 1, by omega⟩
    unfold registerAddressAccess at done ⊢
    cases found : findReservationOnAddress s address position with
    | none => simpa [found] using done
    | some i =>
      rw [found] at done
      dsimp only at done ⊢
      by_cases own : (s.reservations i).lockingCpuId = cpu
      · rw [if_neg (not_not.mpr own)] at done ⊢
        exact ih (by omega) done
      · rw [if_pos own] at done ⊢
        cases freed : freeReservation s i false with
        | error abort =>
          rw [freed] at done
          cases done
        | ok result =>
          rw [freed] at done
          exact ih (by omega) done

/-! ### Every operation -/

theorem Table.byCpu_of_held_none (none' : s.held cpu = none) : s.reservationsByCpu cpu = none :=
  map_eq_none_iff.mp none'

theorem Table.reserveAddress (table : Table s) (less : cpu < maxNumberOfCpus) :
    ∃ s', reserveAddress s cpu address manualFree = .ok s' ∧ Table s' ∧ ∀ other < maxNumberOfCpus,
        s'.held other = s.held.apply (.reserve cpu address manualFree) other := by
  unfold Atomic.reserveAddress ReservationMap.apply
  rw [table.findReservationByCpu less]
  cases index : s.reservationsByCpu cpu with
  | none =>
    have none' : s.held cpu = none := by
      unfold AtomicMemoryState.held
      rw [index]
      rfl
    dsimp only
    rw [none', if_neg (by simp)]
    exact table.makeReservation address manualFree less index
  | some i =>
    obtain ⟨inside, owner⟩ := table.owner_byCpu cpu less i index
    have held : s.held cpu = some (s.reservations i).held := by
      rw [← owner]
      exact table.held_owner inside
    dsimp only
    rw [held]
    by_cases same : (s.reservations i).address = address
    · have unchanged : (some (s.reservations i).held).map Held.address = some address :=
        congrArg some same
      rw [if_pos same, if_pos unchanged]
      exact ⟨s, rfl, table, fun _ _ => rfl⟩
    · obtain ⟨middle, done, freed⟩ := table.freeReservation true inside (by simp)
      have gone := freed.held cpu less
      rw [owner, update_self] at gone
      obtain ⟨s', made, table', held'⟩ :=
        freed.table.makeReservation address manualFree less
          (Table.byCpu_of_held_none gone)
      have changed : ¬ (some (s.reservations i).held).map Held.address = some address :=
        fun eq => same (some.inj eq)
      rw [if_neg same, if_neg changed, done]
      refine ⟨s', made, table', ?_⟩
      intro other otherLess
      rw [held' other otherLess]
      by_cases own : other = cpu
      · rw [own, update_self, update_self]
      · rw [update_of_ne own, update_of_ne own, freed.held other otherLess, owner, update_of_ne own]

theorem Table.cancelReservation (table : Table s) (less : cpu < maxNumberOfCpus) :
    ∃ s', cancelReservation s cpu = .ok s' ∧ Table s' ∧
      ∀ other < maxNumberOfCpus, s'.held other = s.held.apply (.cancel cpu) other := by
  unfold Atomic.cancelReservation ReservationMap.apply
  rw [table.findReservationByCpu less]
  cases index : s.reservationsByCpu cpu with
  | none =>
    refine ⟨s, rfl, table, ?_⟩
    intro other _
    dsimp only
    by_cases own : other = cpu
    · rw [own, update_self]
      unfold AtomicMemoryState.held
      rw [index]
      rfl
    · rw [update_of_ne own]
  | some i =>
    obtain ⟨inside, owner⟩ := table.owner_byCpu cpu less i index
    obtain ⟨s', done, freed⟩ := table.freeReservation true inside (by simp)
    dsimp only
    rw [done]
    refine ⟨s', rfl, freed.table, ?_⟩
    intro other otherLess
    rw [freed.held other otherLess, owner]

theorem Table.applyOp (table : Table s) (op : ReservationOp) (less : op.cpu < maxNumberOfCpus) :
    ∃ s', (∀ turns > s.reservationsCount, applyOp s turns op = .ok s') ∧ Table s' ∧
      ∀ other < maxNumberOfCpus, s'.held other = s.held.apply op other := by
  cases op with
  | reserve cpu address manualFree =>
    obtain ⟨s', done, after⟩ := table.reserveAddress less
    exact ⟨s', fun _ _ => done, after⟩
  | check cpu address =>
    refine ⟨s, ?_, table, fun _ _ => rfl⟩
    intro turns _
    have found : Atomic.findReservationByCpu s cpu = .ok (s.reservationsByCpu cpu) :=
      table.findReservationByCpu less
    unfold Atomic.applyOp checkAddressReservation
    dsimp only
    rw [found]
    cases s.reservationsByCpu cpu <;> rfl
  | access cpu address =>
    have none' : ∀ j < 0, j < s.reservationsCount → Kept s cpu address j :=
      fun j less => absurd less (Nat.not_lt_zero j)
    obtain ⟨s', done, after⟩ :=
      Table.registerAddressAccess (s.reservationsCount + 1) table none' (by omega)
    exact ⟨s', fun turns enough => registerAddressAccess_mono enough done, after⟩
  | cancel cpu =>
    obtain ⟨s', done, after⟩ := table.cancelReservation less
    exact ⟨s', fun _ _ => done, after⟩

theorem Table.of_applyOp (table : Table s) {op : ReservationOp} (less : op.cpu < maxNumberOfCpus)
    (done : Atomic.applyOp s turns op = .ok s') :
    Table s' ∧ ∀ other < maxNumberOfCpus, s'.held other = s.held.apply op other := by
  obtain ⟨result, returns, after⟩ := table.applyOp op less
  have more : Atomic.applyOp s (turns + s.reservationsCount + 1) op = .ok s' := by
    cases op with
    | access cpu address => exact registerAddressAccess_mono (by omega) done
    | reserve cpu address manualFree => exact done
    | check cpu address => exact done
    | cancel cpu => exact done
  rw [returns _ (by omega)] at more
  rw [← Except.ok.inj more]
  exact after

theorem Reachable.table (reachable : Reachable s) : Table s := by
  induction reachable with
  | start => exact table_start
  | step turns _ less done ih => exact (ih.of_applyOp less done).1

/-- In every table that CPUs with ids below the limit make, the entries in use come
first and are inverse to the index; every further operation returns, keeps it so and
changes the map from CPUs to reservations as it should. In particular an access removes
exactly the reservations of its address by other CPUs that are not freed manually. -/
theorem reservations_of_reachable (reachable : Reachable s) :
    Table s ∧ ∀ op : ReservationOp, op.cpu < maxNumberOfCpus →
      ∃ s', (∀ turns > s.reservationsCount, applyOp s turns op = .ok s') ∧ Table s' ∧
        ∀ other < maxNumberOfCpus, s'.held other = s.held.apply op other :=
  ⟨reachable.table, fun op less => reachable.table.applyOp op less⟩

/-! ### A table for examples -/

def runOps (turns : Nat) : List ReservationOp → AtomicMemoryState → Except Abort AtomicMemoryState
  | [], s => .ok s
  | op :: rest, s =>
    match applyOp s turns op with
    | .error abort => .error abort
    | .ok s => runOps turns rest s

theorem Reachable.runOps (ops : List ReservationOp) (ids : ∀ op ∈ ops, op.cpu < maxNumberOfCpus) :
    ∀ {s : AtomicMemoryState}, Reachable s → Atomic.runOps turns ops s = .ok s' → Reachable s' := by
  induction ops with
  | nil =>
    intro s reachable done
    cases done
    exact reachable
  | cons op rest ih =>
    intro s reachable done
    unfold Atomic.runOps at done
    cases first : Atomic.applyOp s turns op with
    | error abort =>
      rw [first] at done
      cases done
    | ok middle =>
      rw [first] at done
      exact ih (fun op member => ids op (mem_cons_of_mem _ member))
        (reachable.step turns (ids op mem_cons_self) first) done

def tableOf (ops : List ReservationOp) : AtomicMemoryState :=
  match runOps 5 ops initializeAtomicMemoryState with
  | .ok s => s
  | .error _ => initializeAtomicMemoryState

theorem reachable_tableOf (ops : List ReservationOp)
    (ids : ∀ op ∈ ops, op.cpu < maxNumberOfCpus) : Reachable (tableOf ops) := by
  unfold tableOf
  split
  next s done => exact Reachable.start.runOps ops ids done
  next => exact .start

def fourOwners : AtomicMemoryState :=
  tableOf [.reserve 0 8 false, .reserve 1 8 true, .reserve 2 8 false, .reserve 3 8 false]

/-- The store of one of them removes two reservations. -/
theorem reservations_of_reachable_sample :
    Table fourOwners ∧ ∃ s', (∀ turns > 4, applyOp fourOwners turns (.access 3 8) = .ok s') ∧
      Table s' ∧ s'.held 0 = none ∧ s'.held 1 = some { address := 8, manualFree := true } ∧
        s'.held 2 = none ∧ s'.held 3 = some { address := 8, manualFree := false } := by
  have every := reservations_of_reachable (s := fourOwners) (reachable_tableOf _ (by decide))
  obtain ⟨s', returns, table, held⟩ := every.2 (.access 3 8) (by decide)
  refine ⟨every.1, s', returns, table, ?_, ?_, ?_, ?_⟩
  · exact (held 0 (by decide)).trans (by decide)
  · exact (held 1 (by decide)).trans (by decide)
  · exact (held 2 (by decide)).trans (by decide)
  · exact (held 3 (by decide)).trans (by decide)

end Tlib.Atomic
