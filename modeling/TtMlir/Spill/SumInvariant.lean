import TtMlir.Library.DictTotals
import TtMlir.Library.EventLog
import TtMlir.Spill.FreeList

/-!
The representation invariant of the address simulation: the free blocks and the
slots of the placed values are a partition of the budget, and the alias groups
count the values of each slot. Every operation of the tracker keeps it.
-/

namespace TtMlir.Spill

namespace AddressState

def Taken (state : AddressState) (byte : Nat) : Prop :=
  ∃ value slot, state.tensorAddresses.lookup value = some slot ∧ slot.1 ≤ byte ∧ byte < slot.1 + slot.2

def sharers (state : AddressState) (start : Nat) : Nat :=
  keysWith (fun slot : Nat × Nat => slot.1 = start) state.tensorAddresses

structure Sound (l1Budget : Nat) (state : AddressState) : Prop where
  /-- Sorted, disjoint and coalesced: no block touches the next. -/
  apart : state.freeList.Pairwise fun low high => low.stop < high.start
  nonempty : 0 < l1Budget → ∀ block ∈ state.freeList, block.start < block.stop
  slots : ∀ value start size, state.tensorAddresses.lookup value = some (start, size) →
    0 < size ∧ start + size ≤ l1Budget ∧
      ∃ group, state.aliasGroups.lookup start = some group ∧ size = alignedSize group.rawSize
  disjoint : ∀ value other slot otherSlot, state.tensorAddresses.lookup value = some slot →
    state.tensorAddresses.lookup other = some otherSlot →
    slot = otherSlot ∨ slot.1 + slot.2 ≤ otherSlot.1 ∨ otherSlot.1 + otherSlot.2 ≤ slot.1
  partition : ∀ byte, Free state.freeList byte ↔ byte < l1Budget ∧ ¬ state.Taken byte
  counts : ∀ start group, state.aliasGroups.lookup start = some group →
    group.count = state.sharers start ∧ 0 < group.count
  occupied : state.currentOccupied = total (fun group => group.rawSize) state.aliasGroups

theorem taken_insert (state next : AddressState) (result : Value) (slot : Nat × Nat)
    (fresh : state.tensorAddresses.lookup result = none)
    (inserted : next.tensorAddresses = state.tensorAddresses.insert result slot) (byte : Nat) :
    next.Taken byte ↔ (slot.1 ≤ byte ∧ byte < slot.1 + slot.2) ∨ state.Taken byte := by
  simp only [Taken, inserted]
  constructor
  · rintro ⟨value, placed, found, inside⟩
    by_cases same : value = result
    · rw [same, AList.lookup_insert] at found
      cases found
      exact Or.inl inside
    · rw [AList.lookup_insert_ne same] at found
      exact Or.inr ⟨value, placed, found, inside⟩
  · rintro (inside | ⟨value, placed, found, inside⟩)
    · exact ⟨result, slot, AList.lookup_insert _, inside⟩
    · have differs : value ≠ result := by
        rintro rfl
        rw [fresh] at found
        cases found
      exact ⟨value, placed, by rw [AList.lookup_insert_ne differs]; exact found, inside⟩

namespace Sound
variable {l1Budget : Nat} {state : AddressState} (sound : Sound l1Budget state)
include sound

theorem coalesced (budgeted : 0 < l1Budget) : Coalesced state.freeList := ⟨sound.apart, sound.nonempty budgeted⟩

theorem slot_taken {value : Value} {slot : Nat × Nat} (found : state.tensorAddresses.lookup value = some slot)
    {byte : Nat}
    (inside : slot.1 ≤ byte ∧ byte < slot.1 + slot.2) : ¬ Free state.freeList byte := by
  rw [sound.partition]
  exact fun free => free.2 ⟨value, slot, found, inside⟩

theorem no_group_of_free {start : Nat} (free : Free state.freeList start) : state.aliasGroups.lookup start = none := by
  cases found : state.aliasGroups.lookup start with
  | none => rfl
  | some group =>
      obtain ⟨counted, positive⟩ := sound.counts start group found
      obtain ⟨value, slot, placed, starts⟩ := (keysWith_pos _ _).mp (counted ▸ positive)
      obtain ⟨sized, _⟩ := sound.slots value slot.1 slot.2 placed
      exact absurd free (sound.slot_taken placed ⟨starts.le, by omega⟩)

theorem no_sharer_of_free {start : Nat} (free : Free state.freeList start) : state.sharers start = 0 := by
  by_contra some
  obtain ⟨value, slot, placed, starts⟩ := (keysWith_pos _ _).mp (Nat.pos_of_ne_zero some)
  obtain ⟨sized, _⟩ := sound.slots value slot.1 slot.2 placed
  exact sound.slot_taken placed ⟨starts.le, by omega⟩ free

end Sound

theorem init_sound (l1Budget : Nat) : Sound l1Budget (SumL1MemoryTracker.init l1Budget).addresses where
  apart := List.pairwise_singleton _ _
  nonempty budgeted block member := by
    rw [List.mem_singleton.mp member]
    exact budgeted
  slots value start size found := by cases found
  disjoint value other slot otherSlot found := by cases found
  partition byte := by
    have untaken : ¬ (SumL1MemoryTracker.init l1Budget).addresses.Taken byte := fun ⟨_, _, found, _⟩ => by cases found
    simp only [untaken, not_false_eq_true, and_true]
    simp [SumL1MemoryTracker.init, Free]
  counts start group found := by cases found
  occupied := rfl

theorem sharers_insert (state next : AddressState) (result : Value) (slot : Nat × Nat)
    (fresh : state.tensorAddresses.lookup result = none)
    (inserted : next.tensorAddresses = state.tensorAddresses.insert result slot) (start : Nat) :
    next.sharers start = (if slot.1 = start then 1 else 0) + state.sharers start := by
  rw [sharers, inserted, keysWith, total_insert_fresh _ _ _ _ fresh]
  rfl

theorem sharers_erase (state next : AddressState) (result : Value) (slot : Nat × Nat)
    (found : state.tensorAddresses.lookup result = some slot)
    (erased : next.tensorAddresses = state.tensorAddresses.erase result) (start : Nat) :
    state.sharers start = (if slot.1 = start then 1 else 0) + next.sharers start := by
  rw [sharers, keysWith, total_erase _ _ _ _ found, sharers, erased]
  rfl

/-- A query finds the address that the allocation then uses, and fails only where it would. -/
theorem allocateAddress_wouldAllocateAt (state : AddressState) (l1Budget : Nat) (result : Value) (l1SizePerCore : Nat) :
    match state.allocateAddress l1Budget result l1SizePerCore with
    | none => state.wouldAllocateAt l1Budget l1SizePerCore = none
    | some next => ∃ address, state.wouldAllocateAt l1Budget l1SizePerCore = some address ∧
        (if l1SizePerCore = 0 ∨ l1Budget = 0 then next = state
          else next.tensorAddresses.lookup result = some (address, alignedSize l1SizePerCore)) := by
  unfold allocateAddress wouldAllocateAt
  by_cases unplaced : l1SizePerCore = 0 ∨ l1Budget = 0
  · simp only [if_pos unplaced]
    exact ⟨l1Budget, rfl, trivial⟩
  · simp only [if_neg unplaced]
    cases carve (alignedSize l1SizePerCore) state.freeList with
    | none => rfl
    | some carved => exact ⟨carved.1, rfl, AList.lookup_insert _⟩

theorem apart_of_no_byte {start size other otherSize : Nat} (sized : 0 < size) (otherSized : 0 < otherSize)
    (none : ∀ byte, start ≤ byte ∧ byte < start + size → ¬ (other ≤ byte ∧ byte < other + otherSize)) :
    start + size ≤ other ∨ other + otherSize ≤ start := by
  by_contra overlap
  rcases le_total start other with before | after
  · exact none other ⟨before, by omega⟩ ⟨le_rfl, by omega⟩
  · exact none start ⟨le_rfl, by omega⟩ ⟨after, by omega⟩

theorem allocateAddress_sound {l1Budget : Nat} {state next : AddressState} (sound : Sound l1Budget state)
    (result : Value)
    (l1SizePerCore : Nat) (fresh : state.tensorAddresses.lookup result = none)
    (allocated : state.allocateAddress l1Budget result l1SizePerCore = some next) : Sound l1Budget next := by
  unfold allocateAddress at allocated
  split at allocated
  · cases allocated
    exact sound
  · rename_i sized
    push Not at sized
    have aligned := alignedSize_pos l1SizePerCore (Nat.pos_of_ne_zero sized.1)
    obtain ⟨⟨start, remaining⟩, carved, isNext⟩ := Option.map_eq_some_iff.mp allocated
    have freeList : next.freeList = remaining := by rw [← isNext]
    have addresses : next.tensorAddresses = state.tensorAddresses.insert result (start, alignedSize l1SizePerCore) := by
      rw [← isNext]
    have groups : next.aliasGroups = state.aliasGroups.insert start { count := 1, rawSize := l1SizePerCore } := by
      rw [← isNext]
    have occupied : next.currentOccupied = state.currentOccupied + l1SizePerCore := by rw [← isNext]
    obtain ⟨coalesced, wasFree, left⟩ := carve_spec (alignedSize l1SizePerCore) aligned state.freeList remaining start
      (sound.coalesced (Nat.pos_of_ne_zero sized.2)) carved
    have startFree := wasFree start ⟨le_rfl, by omega⟩
    have ends := ((sound.partition _).mp (wasFree (start + alignedSize l1SizePerCore - 1) (by omega))).1
    -- a free byte lies in no slot, so neither a group nor a sharer is at `start`
    have noGroup := sound.no_group_of_free startFree
    have noSharer := sound.no_sharer_of_free startFree
    -- the slot was free in all its bytes, so no placed value meets it
    have placedApart : ∀ value slot, state.tensorAddresses.lookup value = some slot →
        start + alignedSize l1SizePerCore ≤ slot.1 ∨ slot.1 + slot.2 ≤ start := by
      intro value slot found
      refine apart_of_no_byte aligned (sound.slots value slot.1 slot.2 found).1 fun byte inside inSlot => ?_
      exact sound.slot_taken found inSlot (wasFree byte inside)
    refine ⟨freeList ▸ coalesced.apart, fun _ => freeList ▸ coalesced.nonempty, ?_, ?_, ?_, ?_, ?_⟩
    · intro value low size found
      rw [addresses] at found
      rw [groups]
      by_cases same : value = result
      · rw [same, AList.lookup_insert] at found
        cases found
        exact ⟨aligned, by omega, _, AList.lookup_insert _, rfl⟩
      · rw [AList.lookup_insert_ne same] at found
        obtain ⟨positive, inBudget, group, grouped, rounded⟩ := sound.slots value low size found
        have differs : low ≠ start := by
          rintro rfl
          rw [noGroup] at grouped
          cases grouped
        exact ⟨positive, inBudget, group, by rw [AList.lookup_insert_ne differs]; exact grouped, rounded⟩
    · intro value other slot otherSlot found otherFound
      rw [addresses] at found otherFound
      by_cases same : value = result
      · rw [same, AList.lookup_insert] at found
        cases found
        by_cases otherSame : other = result
        · rw [otherSame, AList.lookup_insert] at otherFound
          cases otherFound
          exact Or.inl rfl
        · rw [AList.lookup_insert_ne otherSame] at otherFound
          exact Or.inr (placedApart other otherSlot otherFound)
      · rw [AList.lookup_insert_ne same] at found
        by_cases otherSame : other = result
        · rw [otherSame, AList.lookup_insert] at otherFound
          cases otherFound
          exact Or.inr (placedApart value slot found).symm
        · rw [AList.lookup_insert_ne otherSame] at otherFound
          exact sound.disjoint value other slot otherSlot found otherFound
    · intro byte
      rw [freeList, left byte, sound.partition byte, taken_insert state next result _ fresh addresses]
      tauto
    · intro low group found
      rw [groups] at found
      rw [sharers_insert state next result _ fresh addresses]
      by_cases same : low = start
      · rw [same, AList.lookup_insert] at found
        cases found
        simp [same, noSharer]
      · rw [AList.lookup_insert_ne same] at found
        rw [if_neg (Ne.symm same), zero_add]
        exact sound.counts low group found
    · rw [occupied, groups, total_insert_fresh _ _ _ _ noGroup, sound.occupied, add_comm]

theorem allocateAddressAt_sound {l1Budget : Nat} {state : AddressState} (sound : Sound l1Budget state)
    (result srcAtSameAddr : Value) (fresh : state.tensorAddresses.lookup result = none)
    (placed : state.hasTensorAddress srcAtSameAddr = true) :
    Sound l1Budget (state.allocateAddressAt result srcAtSameAddr) := by
  obtain ⟨⟨start, size⟩, found⟩ := Option.isSome_iff_exists.mp placed
  obtain ⟨_, _, group, grouped, rounded⟩ := sound.slots srcAtSameAddr start size found
  generalize isNext : state.allocateAddressAt result srcAtSameAddr = next
  have freeList : next.freeList = state.freeList := by rw [← isNext, allocateAddressAt_freeList]
  have addresses : next.tensorAddresses = state.tensorAddresses.insert result (start, size) := by
    simp only [← isNext, allocateAddressAt, found]
  have groups : next.aliasGroups = state.aliasGroups.insert start { group with count := group.count + 1 } := by
    simp only [← isNext, allocateAddressAt, found, grouped]
  have occupied : next.currentOccupied = state.currentOccupied := by
    simp only [← isNext, allocateAddressAt, found]
  -- every slot is one that a value had before
  have old : ∀ value slot, next.tensorAddresses.lookup value = some slot →
      ∃ owner, state.tensorAddresses.lookup owner = some slot := by
    intro value slot isSlot
    rw [addresses] at isSlot
    by_cases same : value = result
    · rw [same, AList.lookup_insert] at isSlot
      cases isSlot
      exact ⟨srcAtSameAddr, found⟩
    · rw [AList.lookup_insert_ne same] at isSlot
      exact ⟨value, isSlot⟩
  refine ⟨freeList ▸ sound.apart, fun budgeted => freeList ▸ sound.nonempty budgeted, ?_, ?_, ?_, ?_, ?_⟩
  · intro value low length isSlot
    obtain ⟨owner, owned⟩ := old value _ isSlot
    obtain ⟨positive, inBudget, other, otherGrouped, otherRounded⟩ := sound.slots owner low length owned
    refine ⟨positive, inBudget, ?_⟩
    rw [groups]
    by_cases same : low = start
    · rw [same, grouped] at otherGrouped
      cases otherGrouped
      exact ⟨{ group with count := group.count + 1 }, by rw [same, AList.lookup_insert], otherRounded⟩
    · exact ⟨other, by rw [AList.lookup_insert_ne same]; exact otherGrouped, otherRounded⟩
  · intro value other slot otherSlot isSlot isOther
    obtain ⟨owner, owned⟩ := old value slot isSlot
    obtain ⟨otherOwner, otherOwned⟩ := old other otherSlot isOther
    exact sound.disjoint owner otherOwner slot otherSlot owned otherOwned
  · intro byte
    rw [freeList, sound.partition, taken_insert state next result _ fresh addresses]
    change _ ↔ _ ∧ ¬ ((start ≤ byte ∧ byte < start + size) ∨ _)
    have shared : (start ≤ byte ∧ byte < start + size) → state.Taken byte :=
      fun inside => ⟨srcAtSameAddr, _, found, inside⟩
    tauto
  · intro low other isGroup
    rw [groups] at isGroup
    rw [sharers_insert state next result _ fresh addresses]
    by_cases same : low = start
    · rw [same, AList.lookup_insert] at isGroup
      cases isGroup
      obtain ⟨counted, _⟩ := sound.counts start group grouped
      simp only [same, if_true, counted]
      omega
    · rw [AList.lookup_insert_ne same] at isGroup
      rw [if_neg (Ne.symm same), zero_add]
      exact sound.counts low other isGroup
  · rw [occupied, sound.occupied, groups, total_insert, total_erase _ _ _ _ grouped]

section Erase
variable {l1Budget : Nat} {state next : AddressState} (sound : Sound l1Budget state) {result : Value} {start size : Nat}
  (found : state.tensorAddresses.lookup result = some (start, size))
  (addresses : next.tensorAddresses = state.tensorAddresses.erase result)
include addresses

theorem lookup_erased {value : Value} {slot : Nat × Nat} :
    next.tensorAddresses.lookup value = some slot ↔ value ≠ result ∧ state.tensorAddresses.lookup value = some slot := by
  rw [addresses]
  by_cases same : value = result
  · rw [same, AList.lookup_erase]
    simp
  · rw [AList.lookup_erase_ne same]
    simp [same]

include sound found

theorem taken_of_shared (shared : 0 < next.sharers start) (byte : Nat) : next.Taken byte ↔ state.Taken byte := by
  obtain ⟨other, slot, placed, starts⟩ := (keysWith_pos _ _).mp shared
  obtain ⟨differs, before⟩ := (lookup_erased addresses).mp placed
  have positive := (sound.slots result start size found).1
  have otherPositive := (sound.slots other slot.1 slot.2 before).1
  have same : slot = (start, size) := by
    rcases sound.disjoint other result slot (start, size) before found with same | below | above
    · exact same
    · simp only at below starts
      omega
    · simp only at above starts
      omega
  constructor
  · rintro ⟨value, taken, isSlot, inside⟩
    exact ⟨value, taken, ((lookup_erased addresses).mp isSlot).2, inside⟩
  · rintro ⟨value, taken, isSlot, inside⟩
    by_cases isResult : value = result
    · rw [isResult, found] at isSlot
      cases isSlot
      exact ⟨other, slot, placed, same ▸ inside⟩
    · exact ⟨value, taken, (lookup_erased addresses).mpr ⟨isResult, isSlot⟩, inside⟩

theorem apart_of_last (last : next.sharers start = 0) {value : Value} {slot : Nat × Nat}
    (placed : next.tensorAddresses.lookup value = some slot) :
    slot.1 ≠ start ∧ (slot.1 + slot.2 ≤ start ∨ start + size ≤ slot.1) := by
  have differs : slot.1 ≠ start := by
    intro starts
    have shared : 0 < next.sharers start := (keysWith_pos _ _).mpr ⟨value, slot, placed, starts⟩
    omega
  obtain ⟨_, before⟩ := (lookup_erased addresses).mp placed
  rcases sound.disjoint value result slot (start, size) before found with same | apart
  · exact absurd (congrArg Prod.fst same) differs
  · exact ⟨differs, apart⟩

theorem taken_of_last (last : next.sharers start = 0) (byte : Nat) :
    next.Taken byte ↔ state.Taken byte ∧ ¬ (start ≤ byte ∧ byte < start + size) := by
  constructor
  · rintro ⟨value, slot, placed, inside⟩
    obtain ⟨_, apart⟩ := apart_of_last sound found addresses last placed
    exact ⟨⟨value, slot, ((lookup_erased addresses).mp placed).2, inside⟩, by omega⟩
  · rintro ⟨⟨value, slot, placed, inside⟩, outside⟩
    have differs : value ≠ result := by
      rintro rfl
      rw [found] at placed
      cases placed
      exact outside inside
    exact ⟨value, slot, (lookup_erased addresses).mpr ⟨differs, placed⟩, inside⟩

end Erase

section
variable {l1Budget : Nat} {state next : AddressState} (sound : Sound l1Budget state) (result : Value)
  (start size : Nat) (group : AliasGroup) (found : state.tensorAddresses.lookup result = some (start, size))
  (grouped : state.aliasGroups.lookup start = some group)
include sound size found grouped

theorem detach_sound (shared : 0 < group.count - 1)
    (freeList : next.freeList = state.freeList) (addresses : next.tensorAddresses = state.tensorAddresses.erase result)
    (groups : next.aliasGroups = state.aliasGroups.insert start { group with count := group.count - 1 })
    (occupied : next.currentOccupied = state.currentOccupied) : Sound l1Budget next := by
  have counted := (sound.counts start group grouped).1
  have others := sharers_erase state next result _ found addresses
  have left : 0 < next.sharers start := by
    have here := others start
    simp only [if_true] at here
    omega
  refine ⟨freeList ▸ sound.apart, fun budgeted => freeList ▸ sound.nonempty budgeted, ?_, ?_, ?_, ?_, ?_⟩
  · intro value low length placed
    obtain ⟨positive, inBudget, other, otherGrouped, rounded⟩ :=
      sound.slots value low length ((lookup_erased addresses).mp placed).2
    refine ⟨positive, inBudget, ?_⟩
    rw [groups]
    by_cases same : low = start
    · rw [same, grouped] at otherGrouped
      cases otherGrouped
      exact ⟨{ group with count := group.count - 1 }, by rw [same, AList.lookup_insert], rounded⟩
    · exact ⟨other, by rw [AList.lookup_insert_ne same]; exact otherGrouped, rounded⟩
  · intro value other slot otherSlot placed otherPlaced
    exact sound.disjoint value other slot otherSlot ((lookup_erased addresses).mp placed).2
      ((lookup_erased addresses).mp otherPlaced).2
  · intro byte
    rw [freeList, sound.partition, taken_of_shared sound found addresses left]
  · intro low other isGroup
    rw [groups] at isGroup
    have here := others low
    by_cases same : low = start
    · rw [same, AList.lookup_insert] at isGroup
      cases isGroup
      subst same
      simp only [if_true] at here
      exact ⟨by simp only; omega, by simp only; omega⟩
    · rw [AList.lookup_insert_ne same] at isGroup
      rw [if_neg (Ne.symm same), zero_add] at here
      exact here ▸ sound.counts low other isGroup
  · rw [occupied, sound.occupied, groups, total_insert, total_erase _ _ _ _ grouped]

theorem reclaim_sound (last : ¬ 0 < group.count - 1)
    (freeList : next.freeList = release start (start + size) state.freeList)
    (addresses : next.tensorAddresses = state.tensorAddresses.erase result)
    (groups : next.aliasGroups = state.aliasGroups.erase start)
    (occupied : next.currentOccupied = state.currentOccupied - group.rawSize) : Sound l1Budget next := by
  obtain ⟨positive, inBudget, _⟩ := sound.slots result start size found
  obtain ⟨counted, _⟩ := sound.counts start group grouped
  have others := sharers_erase state next result _ found addresses
  have alone : next.sharers start = 0 := by
    have here := others start
    simp only [if_true] at here
    omega
  obtain ⟨coalesced, released⟩ := release_spec start (start + size) (by omega) state.freeList
    (sound.coalesced (by omega)) fun byte inside => sound.slot_taken found inside
  refine ⟨freeList ▸ coalesced.apart, fun _ => freeList ▸ coalesced.nonempty, ?_, ?_, ?_, ?_, ?_⟩
  · intro value low length placed
    obtain ⟨differs, _⟩ := apart_of_last sound found addresses alone placed
    obtain ⟨lengthPos, within, other, otherGrouped, rounded⟩ :=
      sound.slots value low length ((lookup_erased addresses).mp placed).2
    exact ⟨lengthPos, within, other, by rw [groups, AList.lookup_erase_ne differs]; exact otherGrouped, rounded⟩
  · intro value other slot otherSlot placed otherPlaced
    exact sound.disjoint value other slot otherSlot ((lookup_erased addresses).mp placed).2
      ((lookup_erased addresses).mp otherPlaced).2
  · intro byte
    rw [freeList, released, sound.partition, taken_of_last sound found addresses alone]
    have wasTaken : (start ≤ byte ∧ byte < start + size) → state.Taken byte := fun inside => ⟨result, _, found, inside⟩
    have below : (start ≤ byte ∧ byte < start + size) → byte < l1Budget := fun inside => by omega
    tauto
  · intro low other isGroup
    have differs : low ≠ start := by
      rintro rfl
      rw [groups, AList.lookup_erase] at isGroup
      cases isGroup
    rw [groups, AList.lookup_erase_ne differs] at isGroup
    have here := others low
    rw [if_neg (Ne.symm differs), zero_add] at here
    exact here ▸ sound.counts low other isGroup
  · rw [occupied, sound.occupied, groups, total_erase _ _ _ _ grouped, Nat.add_sub_cancel_left]

end

theorem freeAddress_sound {l1Budget : Nat} {state : AddressState} (sound : Sound l1Budget state) (result : Value) :
    Sound l1Budget (state.freeAddress result) := by
  unfold freeAddress
  cases found : state.tensorAddresses.lookup result with
  | none => exact sound
  | some slot =>
      obtain ⟨start, size⟩ := slot
      obtain ⟨_, _, group, grouped, _⟩ := sound.slots result start size found
      simp only [grouped]
      split
      · rename_i shared
        exact detach_sound sound result start size group found grouped shared rfl rfl rfl rfl
      · rename_i last
        exact reclaim_sound sound result start size group found grouped last rfl rfl rfl rfl

theorem Sound.freeList_eq {l1Budget : Nat} {state other : AddressState} (sound : Sound l1Budget state)
    (otherSound : Sound l1Budget other) (budgeted : 0 < l1Budget)
    (slots : ∀ value, state.tensorAddresses.lookup value = other.tensorAddresses.lookup value) :
    state.freeList = other.freeList := by
  refine (sound.coalesced budgeted).unique (otherSound.coalesced budgeted) fun byte => ?_
  rw [sound.partition, otherSound.partition]
  simp only [Taken, slots]

theorem lookup_insert_congr {left right : DenseMap Value (Nat × Nat)}
    (alike : ∀ value, left.lookup value = right.lookup value) (result : Value) (slot : Nat × Nat) (value : Value) :
    (left.insert result slot).lookup value = (right.insert result slot).lookup value := by
  by_cases same : value = result
  · rw [same, AList.lookup_insert, AList.lookup_insert]
  · rw [AList.lookup_insert_ne same, AList.lookup_insert_ne same, alike]

theorem freeAddress_lookup (state : AddressState) (result value : Value) :
    (state.freeAddress result).tensorAddresses.lookup value =
      if value = result then none else state.tensorAddresses.lookup value := by
  have erased : (state.tensorAddresses.erase result).lookup value =
      if value = result then none else state.tensorAddresses.lookup value := by
    by_cases same : value = result
    · rw [same, AList.lookup_erase, if_pos rfl]
    · rw [AList.lookup_erase_ne same, if_neg same]
  rw [freeAddress]
  split
  · by_cases same : value = result
    · rwa [if_pos same, same]
    · rw [if_neg same]
  · split
    · exact erased
    · split <;> exact erased

end AddressState

structure SumSimulation where
  tracker : SumL1MemoryTracker
  snapshots : List AddressState := []

inductive SumSimulationOp
  | addTensor (result : Value) (l1SizePerCore : Nat)
  | addTensorAtAddress (result : Value) (l1SizePerCore : Nat) (srcAtSameAddr : Value)
  | removeTensor (result : Value)
  | takeSnapshot
  | restoreSnapshot (index : Nat)

namespace SumSimulation

/-- `none` where an operation is unreachable in the source. A snapshot leaves the sizes alone. -/
def perform (s : SumSimulation) : SumSimulationOp → Option SumSimulation
  | .addTensor result l1SizePerCore =>
      (s.tracker.addTensor result l1SizePerCore).map fun tracker => { s with tracker }
  | .addTensorAtAddress result l1SizePerCore srcAtSameAddr =>
      some { s with tracker := s.tracker.addTensorAtAddress result l1SizePerCore srcAtSameAddr }
  | .removeTensor result => some { s with tracker := s.tracker.removeTensor result }
  | .takeSnapshot => some { s with snapshots := s.snapshots ++ [s.tracker.addresses] }
  | .restoreSnapshot index =>
      (s.snapshots[index]?).map fun addresses => { s with tracker := { s.tracker with addresses } }

/-- A tensor is added under a value that has no address, a fitting one or that of a tracked source. -/
def Allowed (s : SumSimulation) : SumSimulationOp → Prop
  | .addTensor result l1SizePerCore =>
      s.tracker.addresses.hasTensorAddress result = false ∧ (s.tracker.wouldAllocateAt l1SizePerCore).isSome = true
  | .addTensorAtAddress result _ srcAtSameAddr =>
      s.tracker.addresses.hasTensorAddress result = false ∧ s.tracker.addresses.hasTensorAddress srcAtSameAddr = true
  | .removeTensor _ => True
  | .takeSnapshot => True
  | .restoreSnapshot index => index < s.snapshots.length

instance (s : SumSimulation) : (op : SumSimulationOp) → Decidable (s.Allowed op)
  | .addTensor _ _ => inferInstanceAs (Decidable (_ ∧ _))
  | .addTensorAtAddress _ _ _ => inferInstanceAs (Decidable (_ ∧ _))
  | .removeTensor _ => isTrue trivial
  | .takeSnapshot => isTrue trivial
  | .restoreSnapshot _ => inferInstanceAs (Decidable (_ < _))

inductive Reached (l1Budget : Nat) : SumSimulation → Prop
  | init : Reached l1Budget { tracker := SumL1MemoryTracker.init l1Budget }
  | perform {s next : SumSimulation} (op : SumSimulationOp) : Reached l1Budget s → s.Allowed op → s.perform op = some next →
      Reached l1Budget next

structure Sound (l1Budget : Nat) (s : SumSimulation) : Prop where
  budget : s.tracker.l1Budget = l1Budget
  addresses : s.tracker.addresses.Sound l1Budget
  snapshots : ∀ snapshot ∈ s.snapshots, snapshot.Sound l1Budget

theorem no_address {state : AddressState} {value : Value} (absent : state.hasTensorAddress value = false) :
    state.tensorAddresses.lookup value = none := by
  simpa [AddressState.hasTensorAddress] using absent

theorem perform_sound {l1Budget : Nat} {s : SumSimulation} (sound : s.Sound l1Budget) (op : SumSimulationOp)
    (allowed : s.Allowed op) : ∃ next, s.perform op = some next ∧ next.Sound l1Budget := by
  obtain ⟨budget, addresses, snapshots⟩ := sound
  cases op with
  | addTensor result l1SizePerCore =>
      obtain ⟨fresh, fits⟩ := allowed
      have agrees := s.tracker.addresses.allocateAddress_wouldAllocateAt s.tracker.l1Budget result l1SizePerCore
      cases allocated : s.tracker.addresses.allocateAddress s.tracker.l1Budget result l1SizePerCore with
      | none =>
          rw [allocated] at agrees
          rw [SumL1MemoryTracker.wouldAllocateAt, agrees] at fits
          cases fits
      | some next =>
          have performed : s.perform (.addTensor result l1SizePerCore) = some { s with tracker := { s.tracker with
              tensorSizes := s.tracker.tensorSizes.insert result l1SizePerCore, addresses := next } } := by
            simp only [perform, SumL1MemoryTracker.addTensor, allocated, Option.map_some]
          refine ⟨_, performed, budget, ?_, snapshots⟩
          exact AddressState.allocateAddress_sound addresses result l1SizePerCore (no_address fresh)
            (budget ▸ allocated)
  | addTensorAtAddress result l1SizePerCore srcAtSameAddr =>
      refine ⟨_, rfl, budget, ?_, snapshots⟩
      exact AddressState.allocateAddressAt_sound addresses result srcAtSameAddr (no_address allowed.1) allowed.2
  | removeTensor result =>
      exact ⟨_, rfl, budget, AddressState.freeAddress_sound addresses result, snapshots⟩
  | takeSnapshot =>
      refine ⟨_, rfl, budget, addresses, fun snapshot member => ?_⟩
      rcases List.mem_append.mp member with earlier | new
      · exact snapshots snapshot earlier
      · exact List.mem_singleton.mp new ▸ addresses
  | restoreSnapshot index =>
      obtain ⟨snapshot, known⟩ : ∃ snapshot, s.snapshots[index]? = some snapshot :=
        ⟨_, List.getElem?_eq_getElem allowed⟩
      have performed : s.perform (.restoreSnapshot index) = some { s with tracker := { s.tracker with
          addresses := snapshot } } := by
        rw [perform, known, Option.map_some]
      exact ⟨_, performed, budget, snapshots snapshot (List.mem_of_getElem? known), snapshots⟩

theorem Reached.sound {l1Budget : Nat} {s : SumSimulation} (reached : Reached l1Budget s) : s.Sound l1Budget := by
  induction reached with
  | init => exact ⟨rfl, AddressState.init_sound l1Budget, fun _ member => nomatch member⟩
  | perform op _ allowed performed ih =>
      obtain ⟨next, performs, sound⟩ := perform_sound ih op allowed
      cases performs.symm.trans performed
      exact sound

/-- In every reached state the invariant holds, and a query gives the address that the
allocation then uses. -/
theorem reached_sound (l1Budget : Nat) (s : SumSimulation) (reached : Reached l1Budget s) :
    s.tracker.addresses.Sound l1Budget ∧ ∀ result l1SizePerCore,
      match s.tracker.addresses.allocateAddress l1Budget result l1SizePerCore with
      | none => s.tracker.wouldAllocateAt l1SizePerCore = none
      | some next => ∃ address, s.tracker.wouldAllocateAt l1SizePerCore = some address ∧
          (if l1SizePerCore = 0 ∨ l1Budget = 0 then next = s.tracker.addresses
            else next.tensorAddresses.lookup result = some (address, alignedSize l1SizePerCore)) := by
  obtain ⟨budget, sound, _⟩ := reached.sound
  refine ⟨sound, fun result l1SizePerCore => ?_⟩
  rw [SumL1MemoryTracker.wouldAllocateAt, budget]
  exact s.tracker.addresses.allocateAddress_wouldAllocateAt l1Budget result l1SizePerCore

/-- A view outlives its source, which a snapshot then brings back. -/
theorem reached_sound_restored :
    ∃ s, Reached 128 s ∧ s.tracker.addresses.Sound 128 ∧ s.tracker.addresses.sharers 64 = 2 ∧
      s.tracker.wouldAllocateAt 40 = some 0 := by
  have first := Reached.perform (.addTensor (.result 0 0) 50) (Reached.init : Reached 128 _) (by decide) rfl
  have second := Reached.perform (.addTensorAtAddress (.result 1 0) 50 (.result 0 0)) first (by decide) rfl
  have third := Reached.perform .takeSnapshot second trivial rfl
  have fourth := Reached.perform (.removeTensor (.result 0 0)) third trivial rfl
  have last := Reached.perform (.restoreSnapshot 0) fourth (by decide) rfl
  exact ⟨_, last, (reached_sound 128 _ last).1, by decide, by decide⟩

/-- A value that still has a slot of its own is put on a tracked source's address: its
group keeps counting it, and the slot is neither free nor anybody's. -/
theorem slot_lost_on_second_address :
    ∃ tracker, ((SumL1MemoryTracker.init 128).addTensor (.result 0 0) 64).bind
        (fun tracker => tracker.addTensor (.result 1 0) 32) = some tracker ∧
      tracker.addresses.hasTensorAddress (.result 0 0) = true ∧
      let next := (tracker.addTensorAtAddress (.result 1 0) 32 (.result 0 0)).addresses
      next.aliasGroups.lookup 32 = some { count := 1, rawSize := 32 } ∧ next.sharers 32 = 0 ∧ ¬ next.Sound 128 := by
  refine ⟨_, rfl, by decide, by decide, by decide, fun sound => ?_⟩
  have counted := (sound.counts 32 { count := 1, rawSize := 32 } (by decide)).1
  exact absurd counted (by decide)

section History
open AddressState

def permitted (op : SumSimulationOp) (s : SumSimulation) : Option SumSimulation := if s.Allowed op then s.perform op else none

/-- Every value has the same slot in both, and every query gets the same answer. -/
structure Alike (s other : SumSimulation) : Prop where
  slots : ∀ value, s.tracker.addresses.tensorAddresses.lookup value = other.tracker.addresses.tensorAddresses.lookup value
  answers : ∀ l1SizePerCore, s.tracker.wouldAllocateAt l1SizePerCore = other.tracker.wouldAllocateAt l1SizePerCore

theorem Alike.allowed {s other : SumSimulation} (alike : s.Alike other) (op : SumSimulationOp)
    (plain : ∀ index, op ≠ .restoreSnapshot index) :
    s.Allowed op ↔ other.Allowed op := by
  cases op with
  | restoreSnapshot index => exact absurd rfl (plain index)
  | _ => simp only [Allowed, hasTensorAddress, alike.slots, alike.answers]

section
variable {l1Budget : Nat} {s other : SumSimulation} (reached : Reached l1Budget s) (otherReached : Reached l1Budget other)
include reached otherReached

/-- The slots in use decide what is free, whatever calls led to them. -/
theorem Alike.of_slots (slots : ∀ value, s.tracker.addresses.tensorAddresses.lookup value =
    other.tracker.addresses.tensorAddresses.lookup value) : s.Alike other where
  slots := slots
  answers l1SizePerCore := by
    simp only [SumL1MemoryTracker.wouldAllocateAt, AddressState.wouldAllocateAt, reached.sound.budget,
      otherReached.sound.budget]
    by_cases none : l1Budget = 0
    · rw [if_pos (.inr none), if_pos (.inr none)]
    · rw [reached.sound.addresses.freeList_eq otherReached.sound.addresses (Nat.pos_of_ne_zero none) slots]

theorem perform_slots (alike : s.Alike other) (op : SumSimulationOp) (plain : ∀ index, op ≠ .restoreSnapshot index)
    {next otherNext : SumSimulation} (performed : s.perform op = some next)
    (otherPerformed : other.perform op = some otherNext) (value : Value) :
    next.tracker.addresses.tensorAddresses.lookup value = otherNext.tracker.addresses.tensorAddresses.lookup value := by
  cases op with
  | addTensor result l1SizePerCore =>
      obtain ⟨tracker, added, rfl⟩ := Option.map_eq_some_iff.mp performed
      obtain ⟨otherTracker, otherAdded, rfl⟩ := Option.map_eq_some_iff.mp otherPerformed
      obtain ⟨addresses, allocated, rfl⟩ := Option.map_eq_some_iff.mp added
      obtain ⟨otherAddresses, otherAllocated, rfl⟩ := Option.map_eq_some_iff.mp otherAdded
      rw [reached.sound.budget, allocateAddress] at allocated
      rw [otherReached.sound.budget, allocateAddress] at otherAllocated
      split at allocated
      · rename_i unplaced
        rw [if_pos unplaced] at otherAllocated
        cases allocated
        cases otherAllocated
        exact alike.slots value
      · rename_i sized
        push Not at sized
        rw [if_neg (by simp [sized]), ← reached.sound.addresses.freeList_eq otherReached.sound.addresses
          (Nat.pos_of_ne_zero sized.2) alike.slots] at otherAllocated
        obtain ⟨carved, found, rfl⟩ := Option.map_eq_some_iff.mp allocated
        rw [found] at otherAllocated
        cases otherAllocated
        exact lookup_insert_congr alike.slots result _ value
  | addTensorAtAddress result l1SizePerCore srcAtSameAddr =>
      cases performed
      cases otherPerformed
      simp only [SumL1MemoryTracker.addTensorAtAddress, allocateAddressAt, ← alike.slots srcAtSameAddr]
      split
      · exact lookup_insert_congr alike.slots result _ value
      · exact alike.slots value
  | removeTensor result =>
      cases performed
      cases otherPerformed
      simp only [SumL1MemoryTracker.removeTensor, freeAddress_lookup, alike.slots]
  | takeSnapshot =>
      cases performed
      cases otherPerformed
      exact alike.slots value
  | restoreSnapshot index => exact absurd rfl (plain index)

theorem permitted_alike (alike : s.Alike other) (op : SumSimulationOp) (plain : ∀ index, op ≠ .restoreSnapshot index) :
    Option.Rel (fun next otherNext => Reached l1Budget next ∧ Reached l1Budget otherNext ∧ next.Alike otherNext)
      (permitted op s) (permitted op other) := by
  by_cases allowed : s.Allowed op
  · have otherAllowed := (alike.allowed op plain).mp allowed
    obtain ⟨next, performed, -⟩ := perform_sound reached.sound op allowed
    obtain ⟨otherNext, otherPerformed, -⟩ := perform_sound otherReached.sound op otherAllowed
    have nextReached := reached.perform op allowed performed
    have otherNextReached := otherReached.perform op otherAllowed otherPerformed
    rw [permitted, if_pos allowed, performed, permitted, if_pos otherAllowed, otherPerformed]
    exact .some ⟨nextReached, otherNextReached, .of_slots nextReached otherNextReached
      (perform_slots reached otherReached alike op plain performed otherPerformed)⟩
  · rw [permitted, if_neg allowed, permitted, if_neg fun also => allowed ((alike.allowed op plain).mpr also)]
    exact .none

end

/-- A tensor that is added and removed leaves nothing behind. -/
theorem reached_restores {l1Budget : Nat} {s : SumSimulation} (reached : Reached l1Budget s) (result : Value)
    (l1SizePerCore : Nat) (fresh : s.tracker.addresses.hasTensorAddress result = false)
    (tracker : SumL1MemoryTracker) (added : s.tracker.addTensor result l1SizePerCore = some tracker) :
    (tracker.removeTensor result).addresses = s.tracker.addresses := by
  obtain ⟨budget, sound, _⟩ := reached.sound
  have absent := no_address fresh
  obtain ⟨next, allocated, rfl⟩ := Option.map_eq_some_iff.mp added
  rw [budget] at allocated
  change next.freeAddress result = _
  have nextSound := allocateAddress_sound sound result l1SizePerCore absent allocated
  have freed := freeAddress_sound nextSound result
  unfold allocateAddress at allocated
  split at allocated
  · cases allocated
    rw [freeAddress, absent]
  · rename_i sized
    push Not at sized
    obtain ⟨⟨start, remaining⟩, carved, rfl⟩ := Option.map_eq_some_iff.mp allocated
    have aligned := alignedSize_pos l1SizePerCore (Nat.pos_of_ne_zero sized.1)
    obtain ⟨-, wasFree, -⟩ := carve_spec _ aligned _ _ _ (sound.coalesced (Nat.pos_of_ne_zero sized.2)) carved
    have noGroup := sound.no_group_of_free (wasFree start ⟨le_rfl, by omega⟩)
    simp only [freeAddress, AList.lookup_insert, Nat.sub_self, gt_iff_lt, lt_irrefl, ↓reduceIte, erase_insert absent,
      erase_insert noGroup, Nat.add_sub_cancel] at freed ⊢
    -- but for the free list the two states are the same, and so are then the free lists
    have freeLists := freed.freeList_eq sound (Nat.pos_of_ne_zero sized.2) fun _ => rfl
    exact congrArg (fun freeList => { s.tracker.addresses with freeList }) freeLists

theorem reached_restores_beside : ∃ s tracker, s.tracker.addresses.sharers 64 = 2 ∧
    (SumL1MemoryTracker.removeTensor tracker (.result 2 0)).addresses = (SumSimulation.tracker s).addresses := by
  have first := Reached.perform (.addTensor (.result 0 0) 50) (Reached.init : Reached 128 _) (by decide) rfl
  have second := Reached.perform (.addTensorAtAddress (.result 1 0) 50 (.result 0 0)) first (by decide) rfl
  exact ⟨_, _, by decide, reached_restores second (.result 2 0) 40 rfl _ rfl⟩

/-- Nothing leaks: once no value has a slot, the addresses are those of the start. -/
theorem reached_initial {l1Budget : Nat} {s : SumSimulation} (reached : Reached l1Budget s) (budgeted : 0 < l1Budget)
    (empty : s.tracker.addresses.tensorAddresses = ∅) :
    s.tracker.addresses = (SumL1MemoryTracker.init l1Budget).addresses := by
  have sound := reached.sound.addresses
  have freeLists := sound.freeList_eq (init_sound l1Budget) budgeted fun _ => by rw [empty]; rfl
  have groups : s.tracker.addresses.aliasGroups = ∅ := by
    refine AList.ext (List.eq_nil_iff_forall_not_mem.mpr fun group member => ?_)
    obtain ⟨counted, some⟩ := sound.counts group.1 group.2 (AList.mem_lookup_iff.mpr member)
    rw [counted, sharers, empty] at some
    exact lt_irrefl _ some
  have occupied := sound.occupied
  rw [groups, total_empty] at occupied
  cases addresses : s.tracker.addresses
  simp_all [SumL1MemoryTracker.init]

theorem reached_initial_removed : ∃ s : SumSimulation, s.tracker.tensorSizes = ∅ ∧
    s.tracker.addresses = (SumL1MemoryTracker.init 128).addresses := by
  have first := Reached.perform (.addTensor (.result 0 0) 50) (Reached.init : Reached 128 _) (by decide) rfl
  have second := Reached.perform (.addTensorAtAddress (.result 1 0) 50 (.result 0 0)) first (by decide) rfl
  have third := Reached.perform (.removeTensor (.result 0 0)) second trivial rfl
  have last := Reached.perform (.removeTensor (.result 1 0)) third trivial rfl
  exact ⟨_, rfl, reached_initial last (by decide) rfl⟩

end History

end SumSimulation

end TtMlir.Spill
