import TtMlir.Library.DictTotals
import TtMlir.Spill.MockTracker

/-!
Which buffers are live. `Sharing` says what the alias records stand for: a view holds the
buffer of its source, and a buffer lives while a value holds it. The tracker follows it as long as
no value is added whose earlier buffer still has a view.
-/

namespace TtMlir.Spill

/-- Buffers in the order they were added, each with the value it was added for, and
the buffer that every live value holds. -/
structure Sharing where
  buffers : List (Value × AllocationRecord) := []
  holds : DenseMap Value Nat := ∅

namespace Sharing

def add (s : Sharing) (result : Value) (record : AllocationRecord) : Sharing :=
  { buffers := s.buffers ++ [(result, record)], holds := s.holds.insert result s.buffers.length }

def view (s : Sharing) (out src : Value) : Sharing :=
  match s.holds.lookup src with
  | some buffer => { s with holds := s.holds.insert out buffer }
  | none => s

def remove (s : Sharing) (result : Value) : Sharing := { s with holds := s.holds.erase result }

def Held (s : Sharing) (owner : Value) (buffer : Nat) (record : AllocationRecord) : Prop :=
  (∃ value, s.holds.lookup value = some buffer) ∧ s.buffers[buffer]? = some (owner, record)

def holders (s : Sharing) (buffer : Nat) : Nat := keysWith (fun held => held = buffer) s.holds

def heldBuffers (s : Sharing) : List Nat := (s.holds.entries.map fun entry => entry.2).dedup

end Sharing

structure Follows (records : MockAllocatorL1Tracker.Snapshot) (s : Sharing) : Prop where
  known : ∀ value buffer, s.holds.lookup value = some buffer → buffer < s.buffers.length
  owners : ∀ value, records.aliasOf.lookup value =
    (s.holds.lookup value).bind fun buffer => (s.buffers[buffer]?).map fun entry => entry.1
  unique : ∀ owner buffer other record otherRecord, s.Held owner buffer record → s.Held owner other otherRecord →
    buffer = other
  live : ∀ owner allocations, records.liveRecords.lookup owner = some allocations ↔
    ∃ buffer record, s.Held owner buffer record ∧ allocations = [record]
  counts : ∀ owner count, records.aliasRefcount.lookup owner = some count ↔
    ∃ buffer record, s.Held owner buffer record ∧ count = s.holders buffer

namespace Follows
variable {records : MockAllocatorL1Tracker.Snapshot} {s : Sharing} (follows : Follows records s)
include follows

theorem tracked {value : Value} {buffer : Nat} (holds : s.holds.lookup value = some buffer) :
    ∃ owner record, s.Held owner buffer record ∧ records.aliasOf.lookup value = some owner := by
  have inside := follows.known value buffer holds
  have known : s.buffers[buffer]? = some s.buffers[buffer] := List.getElem?_eq_getElem inside
  refine ⟨s.buffers[buffer].1, s.buffers[buffer].2, ⟨⟨value, holds⟩, known⟩, ?_⟩
  rw [follows.owners, holds, Option.bind_some, known, Option.map_some]

theorem holds_of_tracked {value owner : Value} (tracked : records.aliasOf.lookup value = some owner) :
    ∃ buffer record, s.holds.lookup value = some buffer ∧ s.Held owner buffer record := by
  rw [follows.owners] at tracked
  obtain ⟨buffer, holds, isOwner⟩ := Option.bind_eq_some_iff.mp tracked
  obtain ⟨⟨first, record⟩, known, rfl⟩ := Option.map_eq_some_iff.mp isOwner
  exact ⟨buffer, record, holds, ⟨value, holds⟩, known⟩

theorem untracked_iff (value : Value) : records.aliasOf.lookup value = none ↔ s.holds.lookup value = none := by
  constructor
  · intro untracked
    cases holds : s.holds.lookup value with
    | none => rfl
    | some buffer =>
        obtain ⟨owner, _, _, tracked⟩ := follows.tracked holds
        rw [untracked] at tracked
        cases tracked
  · intro none
    rw [follows.owners, none, Option.bind_none]

end Follows

theorem holders_pos (s : Sharing) (buffer : Nat) : 0 < s.holders buffer ↔
    ∃ value, s.holds.lookup value = some buffer := by
  rw [Sharing.holders, keysWith_pos]
  constructor
  · rintro ⟨value, held, found, rfl⟩
    exact ⟨value, found⟩
  · rintro ⟨value, found⟩
    exact ⟨value, buffer, found, rfl⟩

theorem holders_split (s : Sharing) (value : Value) (buffer : Nat) :
    s.holders buffer = (if s.holds.lookup value = some buffer then 1 else 0) + (s.remove value).holders buffer := by
  cases found : s.holds.lookup value with
  | none => rw [if_neg (by simp), zero_add, Sharing.holders, Sharing.holders, Sharing.remove, erase_of_absent found]
  | some held =>
      rw [Sharing.holders, keysWith, total_erase _ _ _ _ found]
      simp only [Option.some.injEq]
      rfl

theorem holders_insert (s next : Sharing) (value : Value) (held : Nat)
    (inserted : next.holds = s.holds.insert value held) (buffer : Nat) :
    next.holders buffer = (if held = buffer then 1 else 0) + (s.remove value).holders buffer := by
  rw [Sharing.holders, inserted, keysWith, total_insert]
  rfl

section Add
variable {records : MockAllocatorL1Tracker.Snapshot} {s : Sharing} (follows : Follows records s) (result : Value)
  (record : AllocationRecord) (noView : ∀ value, records.aliasOf.lookup value = some result → value = result)
  (notView : ∀ owner, records.aliasOf.lookup result = some owner → owner = result)

theorem lookup_add (value : Value) : (s.add result record).holds.lookup value =
    if value = result then some s.buffers.length else s.holds.lookup value := by
  split
  · rename_i same
    rw [same]
    exact AList.lookup_insert _
  · rename_i differs
    exact AList.lookup_insert_ne differs

theorem buffer_add (buffer : Nat) (inside : buffer < s.buffers.length) :
    (s.add result record).buffers[buffer]? = s.buffers[buffer]? := List.getElem?_append_left inside

theorem new_buffer : (s.add result record).buffers[s.buffers.length]? = some (result, record) := by
  simp [Sharing.add]

include follows noView notView

theorem own_iff {owner : Value} {buffer : Nat} {allocation : AllocationRecord} (held : s.Held owner buffer allocation)
    (value : Value) (holds : s.holds.lookup value = some buffer) : owner = result ↔ value = result := by
  obtain ⟨_, known⟩ := held
  have tracked : records.aliasOf.lookup value = some owner := by
    rw [follows.owners, holds, Option.bind_some, known, Option.map_some]
  constructor
  · rintro rfl
    exact noView value tracked
  · rintro rfl
    exact notView owner tracked

theorem held_add (owner : Value) (buffer : Nat) (allocation : AllocationRecord) :
    (s.add result record).Held owner buffer allocation ↔
      (owner = result ∧ buffer = s.buffers.length ∧ allocation = record) ∨
        (owner ≠ result ∧ s.Held owner buffer allocation) := by
  constructor
  · rintro ⟨⟨value, holds⟩, known⟩
    rw [lookup_add] at holds
    split at holds
    · cases holds
      rw [new_buffer] at known
      cases known
      exact Or.inl ⟨rfl, rfl, rfl⟩
    · rename_i differs
      rw [buffer_add result record buffer (follows.known value buffer holds)] at known
      have held : s.Held owner buffer allocation := ⟨⟨value, holds⟩, known⟩
      exact Or.inr ⟨fun isResult => differs ((own_iff follows result noView notView held value holds).mp isResult),
        held⟩
  · rintro (⟨rfl, rfl, rfl⟩ | ⟨differs, held⟩)
    · exact ⟨⟨owner, by rw [lookup_add, if_pos rfl]⟩, new_buffer owner allocation⟩
    · obtain ⟨value, holds⟩ := held.1
      have notResult : value ≠ result :=
        fun isResult => differs ((own_iff follows result noView notView held value holds).mpr isResult)
      refine ⟨⟨value, by rw [lookup_add, if_neg notResult, holds]⟩, ?_⟩
      rw [buffer_add result record buffer (follows.known value buffer holds), held.2]

theorem holders_add {owner : Value} {buffer : Nat} {allocation : AllocationRecord}
    (held : (s.add result record).Held owner buffer allocation) :
    (s.add result record).holders buffer = if owner = result then 1 else s.holders buffer := by
  rw [holders_insert s (s.add result record) result s.buffers.length rfl]
  rcases (held_add follows result record noView notView _ _ _).mp held with ⟨isResult, isNew, _⟩ | ⟨differs, held⟩
  · have alone : (s.remove result).holders buffer = 0 := by
      by_contra some
      obtain ⟨value, holds⟩ := (holders_pos _ _).mp (Nat.pos_of_ne_zero some)
      have notResult : value ≠ result := by
        rintro rfl
        rw [Sharing.remove, AList.lookup_erase] at holds
        cases holds
      rw [Sharing.remove, AList.lookup_erase_ne notResult] at holds
      have := follows.known value _ holds
      omega
    rw [if_pos isNew.symm, if_pos isResult, alone]
  · obtain ⟨value, holds⟩ := held.1
    have inside := follows.known value buffer holds
    have notHeld : s.holds.lookup result ≠ some buffer :=
      fun holds => differs ((own_iff follows result noView notView held result holds).mpr rfl)
    rw [if_neg (by omega), if_neg differs, holders_split s result, if_neg notHeld]

theorem add_follows : Follows
    { liveRecords := records.liveRecords.insert result [record]
      aliasOf := records.aliasOf.insert result result
      aliasRefcount := records.aliasRefcount.insert result 1 } (s.add result record) := by
  have heldAdd := held_add follows result record noView notView
  have length : (s.add result record).buffers.length = s.buffers.length + 1 := List.length_append ..
  constructor
  · intro value buffer holds
    rw [lookup_add] at holds
    split at holds
    · cases holds
      omega
    · have := follows.known value buffer holds
      omega
  · intro value
    rw [lookup_add]
    split
    · rename_i same
      rw [same, AList.lookup_insert, Option.bind_some, new_buffer, Option.map_some]
    · rename_i differs
      rw [AList.lookup_insert_ne differs, follows.owners]
      cases holds : s.holds.lookup value with
      | none => rfl
      | some buffer =>
          rw [Option.bind_some, Option.bind_some, buffer_add result record buffer (follows.known value buffer holds)]
  · intro owner buffer other allocation otherAllocation held otherHeld
    -- the new buffer is held by the result alone
    rcases (heldAdd _ _ _).mp held with ⟨isResult, rfl, _⟩ | ⟨differs, held⟩
    · rcases (heldAdd _ _ _).mp otherHeld with ⟨_, rfl, _⟩ | ⟨otherDiffers, _⟩
      · rfl
      · exact absurd isResult otherDiffers
    · rcases (heldAdd _ _ _).mp otherHeld with ⟨isResult, _⟩ | ⟨_, otherHeld⟩
      · exact absurd isResult differs
      · exact follows.unique owner buffer other allocation otherAllocation held otherHeld
  · intro owner allocations
    simp only [heldAdd]
    by_cases same : owner = result
    · subst same
      rw [AList.lookup_insert]
      simp [eq_comm]
    · rw [AList.lookup_insert_ne same, follows.live]
      simp [same]
  · intro owner count
    by_cases same : owner = result
    · subst same
      rw [AList.lookup_insert]
      constructor
      · intro isOne
        have held := (heldAdd owner s.buffers.length record).mpr (Or.inl ⟨rfl, rfl, rfl⟩)
        refine ⟨_, _, held, ?_⟩
        rw [holders_add follows owner record noView notView held, if_pos rfl, Option.some.inj isOne]
      · rintro ⟨buffer, allocation, held, rfl⟩
        rw [holders_add follows owner record noView notView held, if_pos rfl]
    · rw [AList.lookup_insert_ne same, follows.counts]
      constructor
      · rintro ⟨buffer, allocation, held, rfl⟩
        have kept := (heldAdd owner buffer allocation).mpr (Or.inr ⟨same, held⟩)
        exact ⟨buffer, allocation, kept, by rw [holders_add follows result record noView notView kept, if_neg same]⟩
      · rintro ⟨buffer, allocation, held, rfl⟩
        rw [holders_add follows result record noView notView held, if_neg same]
        rcases (heldAdd _ _ _).mp held with ⟨isResult, _⟩ | ⟨_, held⟩
        · exact absurd isResult same
        · exact ⟨buffer, allocation, held, rfl⟩

end Add

theorem view_follows {records : MockAllocatorL1Tracker.Snapshot} {s : Sharing} (follows : Follows records s)
    (out src owner : Value) (source : records.aliasOf.lookup src = some owner)
    (fresh : records.aliasOf.lookup out = none) :
    Follows { records with
      aliasOf := records.aliasOf.insert out owner
      aliasRefcount := records.aliasRefcount.insert owner ((records.aliasRefcount.lookup owner).getD 0 + 1) }
      (s.view out src) := by
  obtain ⟨buffer, record, holds, held⟩ := follows.holds_of_tracked source
  have unheld := (follows.untracked_iff out).mp fresh
  generalize isNext : s.view out src = next
  have buffers : next.buffers = s.buffers := by simp only [← isNext, Sharing.view, holds]
  have inserted : next.holds = s.holds.insert out buffer := by simp only [← isNext, Sharing.view, holds]
  have lookup (value : Value) :
      next.holds.lookup value = if value = out then some buffer else s.holds.lookup value := by
    rw [inserted]
    split
    · rename_i same
      rw [same, AList.lookup_insert]
    · rename_i differs
      rw [AList.lookup_insert_ne differs]
  -- `out` was untracked, so it adds a holder to a buffer already held through `src`
  have same (other : Value) (kept : Nat) (allocation : AllocationRecord) :
      next.Held other kept allocation ↔ s.Held other kept allocation := by
    simp only [Sharing.Held, buffers, lookup]
    refine and_congr_left fun _ => ⟨?_, ?_⟩
    · rintro ⟨value, isHeld⟩
      split at isHeld
      · cases isHeld
        exact ⟨src, holds⟩
      · exact ⟨value, isHeld⟩
    · rintro ⟨value, isHeld⟩
      have differs : value ≠ out := by
        rintro rfl
        rw [unheld] at isHeld
        cases isHeld
      exact ⟨value, by rw [if_neg differs, isHeld]⟩
  -- the buffer gains one holder, every other one keeps its number
  have counted (kept : Nat) : next.holders kept = (if buffer = kept then 1 else 0) + s.holders kept := by
    rw [holders_insert s next out buffer inserted, holders_split s out kept, unheld]
    simp
  have count : records.aliasRefcount.lookup owner = some (s.holders buffer) :=
    (follows.counts owner _).mpr ⟨buffer, record, held, rfl⟩
  constructor
  · intro value kept isHeld
    rw [lookup] at isHeld
    rw [buffers]
    split at isHeld
    · cases isHeld
      exact follows.known src buffer holds
    · exact follows.known value kept isHeld
  · intro value
    rw [lookup, buffers]
    split
    · rename_i isOut
      rw [isOut, AList.lookup_insert, Option.bind_some, held.2, Option.map_some]
    · rename_i differs
      rw [AList.lookup_insert_ne differs, follows.owners]
  · intro other kept kept' allocation allocation'
    rw [same, same]
    exact follows.unique other kept kept' allocation allocation'
  · intro other allocations
    simp only [same]
    exact follows.live other allocations
  · intro other n
    simp only [same, counted, count, Option.getD_some]
    by_cases isOwner : other = owner
    · subst isOwner
      rw [AList.lookup_insert]
      constructor
      · intro isCount
        exact ⟨buffer, record, held, by rw [if_pos rfl, ← Option.some.inj isCount, add_comm]⟩
      · rintro ⟨kept, allocation, keptHeld, rfl⟩
        rw [follows.unique other kept buffer allocation record keptHeld held, if_pos rfl, add_comm]
    · have notShared {kept : Nat} {allocation : AllocationRecord} (keptHeld : s.Held other kept allocation) :
          buffer ≠ kept := by
        rintro rfl
        have known := keptHeld.2.symm.trans held.2
        cases known
        exact isOwner rfl
      rw [AList.lookup_insert_ne isOwner, follows.counts]
      constructor
      · rintro ⟨kept, allocation, keptHeld, rfl⟩
        exact ⟨kept, allocation, keptHeld, by rw [if_neg (notShared keptHeld), zero_add]⟩
      · rintro ⟨kept, allocation, keptHeld, rfl⟩
        exact ⟨kept, allocation, keptHeld, by rw [if_neg (notShared keptHeld), zero_add]⟩

section Remove
variable {records : MockAllocatorL1Tracker.Snapshot} {s : Sharing} (follows : Follows records s) {result owner : Value}
  {buffer : Nat} {record : AllocationRecord} (holds : s.holds.lookup result = some buffer)
  (held : s.Held owner buffer record)

theorem lookup_remove (value : Value) :
    (s.remove result).holds.lookup value = if value = result then none else s.holds.lookup value := by
  split
  · rename_i same
    rw [same]
    exact AList.lookup_erase ..
  · rename_i differs
    exact AList.lookup_erase_ne differs

theorem held_of_remove {other : Value} {kept : Nat} {allocation : AllocationRecord}
    (keptHeld : (s.remove result).Held other kept allocation) : s.Held other kept allocation := by
  obtain ⟨⟨value, isHeld⟩, known⟩ := keptHeld
  rw [lookup_remove] at isHeld
  split at isHeld
  · cases isHeld
  · exact ⟨⟨value, isHeld⟩, known⟩

include holds in
theorem holders_remove (kept : Nat) :
    s.holders kept = (if buffer = kept then 1 else 0) + (s.remove result).holders kept := by
  rw [holders_split s result kept, holds]
  simp only [Option.some.injEq]

include holds in
/-- A buffer is still held after the removal of a value unless that was its last holder. -/
theorem held_remove {other : Value} {kept : Nat} {allocation : AllocationRecord}
    (keptHeld : s.Held other kept allocation)
    (left : kept = buffer → 0 < (s.remove result).holders buffer) : (s.remove result).Held other kept allocation := by
  refine ⟨?_, keptHeld.2⟩
  by_cases same : kept = buffer
  · exact (holders_pos _ _).mp (same ▸ left same)
  · obtain ⟨value, isHeld⟩ := keptHeld.1
    have differs : value ≠ result := by
      rintro rfl
      rw [holds] at isHeld
      exact same (Option.some.inj isHeld).symm
    exact ⟨value, by rw [lookup_remove, if_neg differs, isHeld]⟩

include held in
theorem other_buffer {other : Value} {kept : Nat} {allocation : AllocationRecord}
    (keptHeld : s.Held other kept allocation)
    (differs : other ≠ owner) : kept ≠ buffer := by
  rintro rfl
  have known := keptHeld.2.symm.trans held.2
  cases known
  exact differs rfl

include follows

theorem owners_remove (value : Value) : (records.aliasOf.erase result).lookup value =
    ((s.remove result).holds.lookup value).bind fun buffer => (s.buffers[buffer]?).map fun entry => entry.1 := by
  rw [lookup_remove]
  split
  · rename_i same
    rw [same, AList.lookup_erase, Option.bind_none]
  · rename_i differs
    rw [AList.lookup_erase_ne differs, follows.owners]

theorem known_remove (value : Value) (kept : Nat) (isHeld : (s.remove result).holds.lookup value = some kept) :
    kept < s.buffers.length := by
  rw [lookup_remove] at isHeld
  split at isHeld
  · cases isHeld
  · exact follows.known value kept isHeld

include holds held

theorem last_remove_follows (last : (s.remove result).holders buffer = 0) :
    Follows { liveRecords := records.liveRecords.erase owner, aliasOf := records.aliasOf.erase result
              aliasRefcount := records.aliasRefcount.erase owner } (s.remove result) := by
  have gone {kept : Nat} {allocation : AllocationRecord} : ¬ (s.remove result).Held owner kept allocation := by
    intro keptHeld
    have same := follows.unique owner kept buffer allocation record (held_of_remove keptHeld) held
    have some := (holders_pos _ _).mpr keptHeld.1
    rw [same] at some
    omega
  have iff {other : Value} (differs : other ≠ owner) {kept : Nat} {allocation : AllocationRecord} :
      (s.remove result).Held other kept allocation ↔ s.Held other kept allocation :=
    ⟨held_of_remove, fun keptHeld => held_remove holds keptHeld fun same =>
      absurd same (other_buffer held keptHeld differs)⟩
  constructor
  · exact known_remove follows
  · exact owners_remove follows
  · intro other kept kept' allocation allocation' keptHeld keptHeld'
    exact follows.unique other kept kept' allocation allocation' (held_of_remove keptHeld) (held_of_remove keptHeld')
  · intro other allocations
    by_cases same : other = owner
    · subst same
      rw [AList.lookup_erase]
      simp [gone]
    · rw [AList.lookup_erase_ne same, follows.live]
      simp only [iff same]
  · intro other count
    by_cases same : other = owner
    · subst same
      rw [AList.lookup_erase]
      simp [gone]
    · rw [AList.lookup_erase_ne same, follows.counts]
      simp only [iff same]
      refine exists_congr fun kept => exists_congr fun allocation => and_congr_right fun keptHeld => ?_
      rw [holders_remove holds kept, if_neg (other_buffer held keptHeld same).symm, zero_add]

theorem shared_remove_follows (shared : 0 < (s.remove result).holders buffer) :
    Follows { records with
      aliasOf := records.aliasOf.erase result
      aliasRefcount := records.aliasRefcount.insert owner ((s.remove result).holders buffer) } (s.remove result) := by
  have iff {other : Value} {kept : Nat} {allocation : AllocationRecord} :
      (s.remove result).Held other kept allocation ↔ s.Held other kept allocation :=
    ⟨held_of_remove, fun keptHeld => held_remove holds keptHeld fun _ => shared⟩
  constructor
  · exact known_remove follows
  · exact owners_remove follows
  · intro other kept kept' allocation allocation'
    rw [iff, iff]
    exact follows.unique other kept kept' allocation allocation'
  · intro other allocations
    simp only [iff]
    exact follows.live other allocations
  · intro other count
    simp only [iff]
    by_cases same : other = owner
    · subst same
      rw [AList.lookup_insert]
      constructor
      · intro isCount
        exact ⟨buffer, record, held, (Option.some.inj isCount).symm⟩
      · rintro ⟨kept, allocation, keptHeld, rfl⟩
        rw [follows.unique other kept buffer allocation record keptHeld held]
    · rw [AList.lookup_insert_ne same, follows.counts]
      refine exists_congr fun kept => exists_congr fun allocation => and_congr_right fun keptHeld => ?_
      rw [holders_remove holds kept, if_neg (other_buffer held keptHeld same).symm, zero_add]

end Remove

namespace MockAllocatorL1Tracker

def pendingRecord (tracker : MockAllocatorL1Tracker) : Value → Option AllocationRecord
  | .argument _ => none
  | .result op idx => (tracker.pendingRecords.lookup op).bind fun records => records[idx]?

theorem addTensor_snapshot (tracker : MockAllocatorL1Tracker) (func : Func) (result : Value) :
    (tracker.addTensor func result).takeSnapshot = match tracker.pendingRecord result with
      | none => tracker.takeSnapshot
      | some record =>
          { liveRecords := tracker.liveRecords.insert result [record]
            aliasOf := tracker.aliasOf.insert result result
            aliasRefcount := tracker.aliasRefcount.insert result 1 } := by
  cases result with
  | argument index => rfl
  | result op idx =>
      simp only [addTensor, pendingRecord]
      cases tracker.pendingRecords.lookup op with
      | none => rfl
      | some records =>
          simp only [Option.bind_some]
          cases records[idx]? with
          | none => split <;> rfl
          | some record => split <;> rfl

theorem accept_snapshot (tracker : MockAllocatorL1Tracker) (op : OpId) (result : ValidationResult) :
    (tracker.accept op result).2.takeSnapshot = tracker.takeSnapshot := by
  unfold accept
  split
  · split
    · rfl
    · split <;> rfl
  · rfl

def Unviewed (tracker : MockAllocatorL1Tracker) (value : Value) : Prop :=
  ∀ other, tracker.aliasOf.lookup other = some value → other = value

theorem removeTensor_follows {tracker : MockAllocatorL1Tracker} {s : Sharing} (follows : Follows tracker.takeSnapshot s)
    (result : Value) (calm : tracker.hasTensor result = true ∨ tracker.Unviewed result) :
    Follows (tracker.removeTensor result).takeSnapshot (s.remove result) := by
  unfold removeTensor
  cases tracked : tracker.aliasOf.lookup result with
  | none =>
      have unheld : s.holds.lookup result = none := (follows.untracked_iff result).mp tracked
      have unviewed : tracker.Unviewed result := by
        rcases calm with has | unviewed
        · rw [hasTensor, tracked] at has
          cases has
        · exact unviewed
      have absent : tracker.liveRecords.lookup result = none := by
        cases found : tracker.liveRecords.lookup result with
        | none => rfl
        | some allocations =>
            obtain ⟨buffer, record, held, _⟩ := (follows.live result allocations).mp found
            obtain ⟨value, holds⟩ := held.1
            obtain ⟨owner, other, ownerHeld, isTracked⟩ := follows.tracked holds
            have same := ownerHeld.2.symm.trans held.2
            cases same
            have isResult := unviewed value isTracked
            rw [isResult, unheld] at holds
            cases holds
      have same : s.remove result = s := by rw [Sharing.remove, erase_of_absent unheld]
      simp only [erase_of_absent absent, same]
      exact follows
  | some owner =>
      obtain ⟨buffer, record, holds, held⟩ := follows.holds_of_tracked tracked
      have count : tracker.aliasRefcount.lookup owner = some (s.holders buffer) :=
        (follows.counts owner _).mpr ⟨buffer, record, held, rfl⟩
      have split := holders_remove holds buffer
      rw [if_pos rfl, Nat.add_comm] at split
      simp only [count, split, Nat.add_sub_cancel]
      by_cases last : (s.remove result).holders buffer = 0
      · rw [if_pos last]
        exact last_remove_follows follows holds held last
      · rw [if_neg last]
        exact shared_remove_follows follows holds held (Nat.pos_of_ne_zero last)

theorem mem_heldBuffers (s : Sharing) (buffer : Nat) :
    buffer ∈ s.heldBuffers ↔ ∃ value, s.holds.lookup value = some buffer := by
  rw [Sharing.heldBuffers, List.mem_dedup, List.mem_map]
  constructor
  · rintro ⟨⟨value, held⟩, member, rfl⟩
    exact ⟨value, AList.mem_lookup_iff.mpr member⟩
  · rintro ⟨value, holds⟩
    exact ⟨⟨value, buffer⟩, AList.mem_lookup_iff.mp holds, rfl⟩

def bufferBytes (s : Sharing) (buffer : Nat) : Nat := ((s.buffers[buffer]?).map fun entry => l1Bytes [entry.2]).getD 0

theorem occupied_follows {tracker : MockAllocatorL1Tracker} {s : Sharing} (follows : Follows tracker.takeSnapshot s) :
    tracker.getOccupiedL1 = (s.heldBuffers.map (bufferBytes s)).sum := by
  let entry (buffer : Nat) : Sigma fun _ : Value => List AllocationRecord :=
    ((s.buffers[buffer]?).map fun entry => ⟨entry.1, [entry.2]⟩).getD ⟨.argument 0, []⟩
  have known (buffer : Nat) (member : buffer ∈ s.heldBuffers) : ∃ owner record, s.Held owner buffer record ∧
      entry buffer = ⟨owner, [record]⟩ := by
    obtain ⟨value, holds⟩ := (mem_heldBuffers s buffer).mp member
    obtain ⟨owner, record, held, _⟩ := follows.tracked holds
    exact ⟨owner, record, held, by simp only [entry, held.2, Option.map_some, Option.getD_some]⟩
  have distinct : (s.heldBuffers.map entry).Nodup := by
    refine List.Nodup.map_on ?_ (List.nodup_dedup _)
    intro buffer member other otherMember same
    obtain ⟨owner, record, held, isEntry⟩ := known buffer member
    obtain ⟨otherOwner, otherRecord, otherHeld, isOther⟩ := known other otherMember
    rw [isEntry, isOther] at same
    cases same
    exact follows.unique owner buffer other record record held otherHeld
  have permuted : tracker.liveRecords.entries.Perm (s.heldBuffers.map entry) := by
    refine (List.perm_ext_iff_of_nodup (List.NodupKeys.nodup tracker.liveRecords.nodupKeys) distinct).mpr ?_
    rintro ⟨owner, allocations⟩
    rw [← AList.mem_lookup_iff, Option.mem_def, List.mem_map]
    constructor
    · intro found
      obtain ⟨buffer, record, held, rfl⟩ := (follows.live owner allocations).mp found
      refine ⟨buffer, (mem_heldBuffers s buffer).mpr held.1, ?_⟩
      simp only [entry, held.2, Option.map_some, Option.getD_some]
    · rintro ⟨buffer, member, isEntry⟩
      obtain ⟨_, record, held, same⟩ := known buffer member
      rw [same] at isEntry
      cases isEntry
      exact (follows.live owner _).mpr ⟨buffer, record, held, rfl⟩
  rw [getOccupiedL1, (permuted.map _).sum_eq, List.map_map]
  refine congrArg List.sum (List.map_congr_left fun buffer member => ?_)
  obtain ⟨owner, record, held, isEntry⟩ := known buffer member
  simp only [Function.comp_apply, isEntry, bufferBytes, held.2, Option.map_some, Option.getD_some]

end MockAllocatorL1Tracker

open MockAllocatorL1Tracker

/-- The tracker, what its records stand for, and the snapshots taken so far with the
holders at that time. -/
structure Tracking where
  tracker : MockAllocatorL1Tracker
  sharing : Sharing := {}
  snapshots : List (MockAllocatorL1Tracker.Snapshot × DenseMap Value Nat) := []

inductive TrackingOp
  | validate (op : OpId) (result : ValidationResult)
  | addTensor (result : Value)
  | addTensorAlias (out src : Value)
  | removeTensor (result : Value)
  | takeSnapshot
  | restoreSnapshot (index : Nat)

namespace Tracking
variable (func : Func)

def perform (s : Tracking) : TrackingOp → Option Tracking
  | .validate op result => some { s with tracker := (s.tracker.accept op result).2 }
  | .addTensor result =>
      some { s with
        tracker := s.tracker.addTensor func result
        sharing := match s.tracker.pendingRecord result with
          | some record => s.sharing.add result record
          | none => s.sharing }
  | .addTensorAlias out src =>
      some { s with tracker := s.tracker.addTensorAlias out src, sharing := s.sharing.view out src }
  | .removeTensor result => some { s with tracker := s.tracker.removeTensor result, sharing := s.sharing.remove result }
  | .takeSnapshot => some { s with snapshots := s.snapshots ++ [(s.tracker.takeSnapshot, s.sharing.holds)] }
  | .restoreSnapshot index =>
      (s.snapshots[index]?).map fun saved =>
        { s with tracker := s.tracker.restoreSnapshot saved.1, sharing := { s.sharing with holds := saved.2 } }

/-- A view has a tracked source, and a restored snapshot was taken. -/
def Allowed (s : Tracking) : TrackingOp → Prop
  | .addTensorAlias _ src => s.tracker.hasTensor src = true
  | .restoreSnapshot index => index < s.snapshots.length
  | _ => True

/-- A value is added only while it is no view and has none, and put on a source's buffer only while
it is not tracked. -/
def Calm (s : Tracking) : TrackingOp → Prop
  | .addTensor result =>
      s.tracker.pendingRecord result = none ∨
        (s.tracker.Unviewed result ∧ ∀ owner, s.tracker.aliasOf.lookup result = some owner → owner = result)
  | .addTensorAlias out _ => s.tracker.hasTensor out = false
  | .removeTensor result => s.tracker.hasTensor result = true ∨ s.tracker.Unviewed result
  | _ => True

inductive Reached (permitted : Tracking → TrackingOp → Prop) (l1Budget : Nat) : Tracking → Prop
  | init : Reached permitted l1Budget { tracker := MockAllocatorL1Tracker.init l1Budget }
  | perform {s next : Tracking} (op : TrackingOp) : Reached permitted l1Budget s → permitted s op →
      s.perform func op = some next → Reached permitted l1Budget next

/-- A buffer's record is live as long as a value holds it, and counts these values; every held buffer
occupies its bytes once. -/
structure LivesWithUsers (s : Tracking) : Prop where
  follows : Follows s.tracker.takeSnapshot s.sharing
  occupied : s.tracker.getOccupiedL1 = (s.sharing.heldBuffers.map (bufferBytes s.sharing)).sum

structure Sound (s : Tracking) : Prop where
  current : Follows s.tracker.takeSnapshot s.sharing
  snapshots : ∀ saved ∈ s.snapshots, Follows saved.1 { s.sharing with holds := saved.2 }

theorem follows_grow {records : MockAllocatorL1Tracker.Snapshot} {s : Sharing} (follows : Follows records s)
    (more : List (Value × AllocationRecord)) : Follows records { s with buffers := s.buffers ++ more } := by
  have same {buffer : Nat} (inside : buffer < s.buffers.length) : (s.buffers ++ more)[buffer]? = s.buffers[buffer]? :=
    List.getElem?_append_left inside
  have iff {owner : Value} {buffer : Nat} {record : AllocationRecord} :
      Sharing.Held { s with buffers := s.buffers ++ more } owner buffer record ↔ s.Held owner buffer record := by
    refine and_congr_right fun ⟨value, holds⟩ => ?_
    rw [same (follows.known value buffer holds)]
  constructor
  · intro value buffer holds
    have := follows.known value buffer holds
    simp only [List.length_append]
    omega
  · intro value
    rw [follows.owners]
    cases holds : s.holds.lookup value with
    | none => rfl
    | some buffer => rw [Option.bind_some, Option.bind_some, same (follows.known value buffer holds)]
  · intro owner buffer other record otherRecord
    rw [iff, iff]
    exact follows.unique owner buffer other record otherRecord
  · intro owner allocations
    simp only [iff]
    exact follows.live owner allocations
  · intro owner count
    simp only [iff]
    exact follows.counts owner count

theorem hasTensor_eq_true {tracker : MockAllocatorL1Tracker} {value : Value} (has : tracker.hasTensor value = true) :
    ∃ owner, tracker.aliasOf.lookup value = some owner := Option.isSome_iff_exists.mp has

theorem hasTensor_eq_false {tracker : MockAllocatorL1Tracker} {value : Value}
    (absent : tracker.hasTensor value = false) :
    tracker.aliasOf.lookup value = none := by
  simpa [MockAllocatorL1Tracker.hasTensor] using absent

theorem perform_sound {s next : Tracking} (sound : s.Sound) (op : TrackingOp) (allowed : s.Allowed op)
    (calm : s.Calm op) (performed : s.perform func op = some next) : next.Sound := by
  obtain ⟨current, snapshots⟩ := sound
  cases op with
  | validate op result =>
      cases performed
      exact ⟨(accept_snapshot s.tracker op result).symm ▸ current, snapshots⟩
  | addTensor result =>
      cases performed
      have after := addTensor_snapshot s.tracker func result
      cases pending : s.tracker.pendingRecord result with
      | none =>
          rw [pending] at after
          exact ⟨by simp only [after]; exact current, snapshots⟩
      | some record =>
          rw [pending] at after
          rcases calm with none | ⟨unviewed, notView⟩
          · rw [pending] at none
            cases none
          · refine ⟨?_, fun saved member => ?_⟩
            · simp only [after]
              exact add_follows current result record unviewed notView
            · exact follows_grow (snapshots saved member) [(result, record)]
  | addTensorAlias out src =>
      cases performed
      obtain ⟨owner, source⟩ := hasTensor_eq_true allowed
      have followed := view_follows current out src owner source (hasTensor_eq_false calm)
      have buffers : (s.sharing.view out src).buffers = s.sharing.buffers := by
        unfold Sharing.view
        split <;> rfl
      refine ⟨?_, fun saved member => ?_⟩
      · have isOwner : (s.tracker.aliasOf.lookup src).getD src = owner := by rw [source, Option.getD_some]
        unfold addTensorAlias
        rw [isOwner]
        exact followed
      · simp only [buffers]
        exact snapshots saved member
  | removeTensor result =>
      cases performed
      exact ⟨removeTensor_follows current result calm, snapshots⟩
  | takeSnapshot =>
      cases performed
      refine ⟨current, fun saved member => ?_⟩
      rcases List.mem_append.mp member with earlier | new
      · exact snapshots saved earlier
      · rw [List.mem_singleton.mp new]
        exact current
  | restoreSnapshot index =>
      obtain ⟨saved, known, rfl⟩ := Option.map_eq_some_iff.mp performed
      exact ⟨snapshots saved (List.mem_of_getElem? known), snapshots⟩

theorem Reached.sound {l1Budget : Nat} {s : Tracking}
    (reached : Reached func (fun s op => s.Allowed op ∧ s.Calm op) l1Budget s) : s.Sound := by
  induction reached with
  | init =>
      refine ⟨⟨?_, ?_, ?_, ?_, ?_⟩, fun _ member => nomatch member⟩
      · exact fun value buffer holds => nomatch holds
      · exact fun value => rfl
      · rintro owner buffer other record otherRecord ⟨⟨value, holds⟩, _⟩
        cases holds
      · intro owner allocations
        refine ⟨fun found => (by cases found), ?_⟩
        rintro ⟨buffer, record, ⟨⟨value, holds⟩, _⟩, _⟩
        cases holds
      · intro owner count
        refine ⟨fun found => (by cases found), ?_⟩
        rintro ⟨buffer, record, ⟨⟨value, holds⟩, _⟩, _⟩
        cases holds
  | perform op _ permitted performed ih => exact perform_sound func ih op permitted.1 permitted.2 performed

/-- In every state of a calm run the records live exactly as long as their users. -/
theorem reached_lives_with_users (l1Budget : Nat) (s : Tracking)
    (reached : Reached func (fun s op => s.Allowed op ∧ s.Calm op) l1Budget s) : s.LivesWithUsers :=
  ⟨reached.sound.current, occupied_follows reached.sound.current⟩

def viewedTensor : Func :=
  let sharded : Option TTNNLayout := some { bufferType := .l1, memLayout := .heightSharded, perCoreL1Usage := 64 }
  { ops := [{ kind := .other true, operands := [], results := [sharded] },
      { kind := .view fun _ _ => true, operands := [.result 0 0], results := [sharded] }]
    body := [0, 1] }

def placedAnswer : ValidationResult :=
  { status := .success, outputL1Usage := 64, outputAllocations := [{ bufferType := .l1, sizePerBank := 64 }] }

/-- The owner is removed before its view, and added again once the view is gone too. -/
theorem lives_with_users_readded :
    ∃ s, Reached viewedTensor (fun s op => s.Allowed op ∧ s.Calm op) 1024 s ∧ s.LivesWithUsers ∧
      s.tracker.hasTensor (.result 0 0) = true ∧ s.tracker.getOccupiedL1 = 64 := by
  have start : Reached viewedTensor (fun s op => s.Allowed op ∧ s.Calm op) 1024 _ := Reached.init
  have first := Reached.perform (.validate 0 placedAnswer) start ⟨trivial, trivial⟩ rfl
  have second := Reached.perform (.addTensor (.result 0 0)) first ⟨trivial, Or.inr ⟨nofun, nofun⟩⟩ rfl
  have third := Reached.perform (.addTensorAlias (.result 1 0) (.result 0 0)) second ⟨rfl, rfl⟩ rfl
  have fourth := Reached.perform (.removeTensor (.result 0 0)) third ⟨trivial, Or.inl rfl⟩ rfl
  have fifth := Reached.perform (.removeTensor (.result 1 0)) fourth ⟨trivial, Or.inl rfl⟩ rfl
  have sixth := Reached.perform (.validate 0 placedAnswer) fifth ⟨trivial, trivial⟩ rfl
  have last := Reached.perform (.addTensor (.result 0 0)) sixth ⟨trivial, Or.inr ⟨nofun, nofun⟩⟩ rfl
  exact ⟨_, last, reached_lives_with_users viewedTensor 1024 _ last, by decide, by decide⟩

/-- The owner is added again while its view is live: its count restarts at one, and the
removal of the view takes the record of the live owner with it. -/
theorem readded_owner_loses_record :
    ∃ s, Reached viewedTensor Allowed 1024 s ∧ s.tracker.hasTensor (.result 0 0) = true ∧
      s.tracker.getOccupiedL1 = 0 ∧ ¬ s.LivesWithUsers := by
  have start : Reached viewedTensor Allowed 1024 _ := Reached.init
  have first := Reached.perform (.validate 0 placedAnswer) start trivial rfl
  have second := Reached.perform (.addTensor (.result 0 0)) first trivial rfl
  have third := Reached.perform (.addTensorAlias (.result 1 0) (.result 0 0)) second rfl rfl
  have fourth := Reached.perform (.removeTensor (.result 0 0)) third trivial rfl
  have fifth := Reached.perform (.validate 0 placedAnswer) fourth trivial rfl
  have sixth := Reached.perform (.addTensor (.result 0 0)) fifth trivial rfl
  have last := Reached.perform (.removeTensor (.result 1 0)) sixth trivial rfl
  refine ⟨_, last, by decide, by decide, fun lives => ?_⟩
  exact absurd lives.occupied (by decide)

end Tracking

end TtMlir.Spill
