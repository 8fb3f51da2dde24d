import TtMlir.Library.Copies
import TtMlir.Trace.Runtime

/-!
What refreshing the slots, staging the host inputs and replaying a trace do to
the tensors. Where equal versions mean equal contents, skipping a copy changes
nothing, so a refresh is a sequence of copies of versions and contents together.
-/

namespace TtMlir.Trace

variable {Value : Type}

def stamps (pool : Pool Value) (tensor : Nat) : Nat × Value := ((pool tensor).version, (pool tensor).content)

def contents (pool : Pool Value) (tensor : Nat) : Value := (pool tensor).content

def versions (pool : Pool Value) (tensor : Nat) : Nat := (pool tensor).version

def SameStorage (pool next : Pool Value) : Prop := ∀ tensor, (next tensor).storageType = (pool tensor).storageType

def Agree (live known : Nat → Prop) (memory : Nat → Nat × Value) : Prop :=
  ∀ tensor, live tensor → ∀ slot, known slot →
    (memory tensor).1 = (memory slot).1 → (memory tensor).2 = (memory slot).2

def PairPlaced (pool : Pool Value) (deviceResident : Bool) (pair : Nat × Nat) : Prop :=
  (pool pair.1).storageType = (if deviceResident then .device else .host) ∧ (pool pair.2).storageType = .device

theorem SameStorage.refl (pool : Pool Value) : SameStorage pool pool := fun _ => rfl

theorem SameStorage.trans {first second third : Pool Value} (early : SameStorage first second)
    (late : SameStorage second third) : SameStorage first third := fun tensor => (late tensor).trans (early tensor)

theorem PairPlaced.carry {pool next : Pool Value} {deviceResident : Bool} {pair : Nat × Nat}
    (placed : PairPlaced pool deviceResident pair) (same : SameStorage pool next) :
    PairPlaced next deviceResident pair := by
  unfold PairPlaced
  rw [same pair.1, same pair.2]
  exact placed

theorem setContent_storage (pool : Pool Value) (tensor : Nat) (content : Value) :
    SameStorage pool (setContent pool tensor content) := by
  intro other
  unfold setContent
  by_cases same : other = tensor
  · rw [same, Function.update_self]
  · rw [Function.update_of_ne same]

theorem contents_setContent (pool : Pool Value) (tensor : Nat) (content : Value) :
    contents (setContent pool tensor content) = Function.update (contents pool) tensor content := by
  funext other
  unfold contents setContent
  by_cases same : other = tensor
  · rw [same, Function.update_self, Function.update_self]
  · rw [Function.update_of_ne same, Function.update_of_ne same]

theorem versions_setContent (pool : Pool Value) (tensor : Nat) (content : Value) :
    versions (setContent pool tensor content) = versions pool := by
  funext other
  unfold versions setContent
  by_cases same : other = tensor
  · rw [same, Function.update_self]
  · rw [Function.update_of_ne same]

theorem syncVersion_storage (pool : Pool Value) (tensor other : Nat) :
    SameStorage pool (syncVersion pool tensor other) := by
  intro cell
  unfold syncVersion
  by_cases same : cell = tensor
  · rw [same, Function.update_self]
  · rw [Function.update_of_ne same]

theorem stamps_copied (pool : Pool Value) (input slot : Nat) :
    stamps (syncVersion (setContent pool slot (pool input).content) slot input) =
      Function.update (stamps pool) slot (stamps pool input) := by
  funext other
  unfold stamps syncVersion setContent
  by_cases same : other = slot
  · rw [same, Function.update_self, Function.update_self, Function.update_self]
    by_cases itself : input = slot
    · rw [itself, Function.update_self]
    · rw [Function.update_of_ne itself]
  · rw [Function.update_of_ne same, Function.update_of_ne same, Function.update_of_ne same]

theorem agree_copies {live known : Nat → Prop} {memory : Nat → Nat × Value} (agree : Agree live known memory)
    (liveKnown : ∀ tensor, live tensor → known tensor) (pairs : List (Nat × Nat))
    (sources : ∀ pair ∈ pairs, live pair.1) : Agree live known (copies pairs memory) := by
  intro tensor isLive slot isKnown
  obtain ⟨first, firstLive, firstHolds⟩ : ∃ origin, live origin ∧ copies pairs memory tensor = memory origin := by
    rcases copies_origin live pairs memory sources tensor with kept | copied
    · exact ⟨tensor, isLive, kept⟩
    · exact copied
  obtain ⟨second, secondKnown, secondHolds⟩ : ∃ origin, known origin ∧ copies pairs memory slot = memory origin := by
    rcases copies_origin live pairs memory sources slot with kept | ⟨origin, isSource, copied⟩
    · exact ⟨slot, isKnown, kept⟩
    · exact ⟨origin, liveKnown origin isSource, copied⟩
  rw [firstHolds, secondHolds]
  exact agree first firstLive second secondKnown

theorem updateTraceInputSlot_copies {live known : Nat → Prop} (deviceResident : Bool) (input slot : Nat)
    (pool : Pool Value) (agree : Agree live known (stamps pool)) (isLive : live input) (isKnown : known slot)
    (placed : PairPlaced pool deviceResident (input, slot)) :
    ∃ next, updateTraceInputSlot deviceResident input slot pool = .ok next ∧ SameStorage pool next ∧
      stamps next = Function.update (stamps pool) slot (stamps pool input) := by
  unfold updateTraceInputSlot
  by_cases current : (pool input).version = (pool slot).version
  · have same : stamps pool input = stamps pool slot :=
      Prod.ext current (agree input isLive slot isKnown current)
    rw [if_pos current]
    refine ⟨pool, rfl, SameStorage.refl pool, ?_⟩
    rw [same, Function.update_eq_self]
  · have copied : (if deviceResident = true then copyTensorFromDeviceToDevice input slot pool
        else copyTensorFromHostToDevice input slot pool) =
          .ok (setContent pool slot (pool input).content) := by
      cases deviceResident with
      | true => exact if_pos placed
      | false => exact if_pos placed
    rw [if_neg current, copied]
    refine ⟨_, rfl, ?_, stamps_copied pool input slot⟩
    exact (setContent_storage pool slot _).trans (syncVersion_storage _ slot input)

def refreshed (op : TraceOp Value) (deviceResidentOnly : Bool) : Nat → List (Nat × Nat) → List (Nat × Nat)
  | _, [] => []
  | idx, pair :: rest =>
      if deviceResidentOnly && !op.inDeviceMemory idx then refreshed op deviceResidentOnly (idx + 1) rest
      else pair :: refreshed op deviceResidentOnly (idx + 1) rest

theorem refreshed_all (op : TraceOp Value) (idx : Nat) (pairs : List (Nat × Nat)) :
    refreshed op false idx pairs = pairs := by
  induction pairs generalizing idx with
  | nil => rfl
  | cons pair rest ih => rw [refreshed, Bool.false_and, if_neg Bool.false_ne_true, ih]

theorem refreshed_resident (op : TraceOp Value) (idx : Nat) (pairs : List (Nat × Nat)) :
    refreshed op true idx pairs = pairs.take (op.numDeviceResident - idx) := by
  induction pairs generalizing idx with
  | nil => rw [refreshed, List.take_nil]
  | cons pair rest ih =>
      rw [refreshed, ih]
      by_cases resident : idx < op.numDeviceResident
      · have more : op.numDeviceResident - idx = (op.numDeviceResident - (idx + 1)) + 1 := by omega
        rw [more, List.take_succ_cons]
        simp [TraceOp.inDeviceMemory, resident]
      · have none : op.numDeviceResident - idx = 0 := by omega
        have noneLater : op.numDeviceResident - (idx + 1) = 0 := by omega
        rw [none, noneLater, List.take_zero]
        simp [TraceOp.inDeviceMemory, resident]

theorem updateTraceInputSlotsFrom_copies {live known : Nat → Prop} (op : TraceOp Value) (deviceResidentOnly : Bool)
    (liveKnown : ∀ tensor, live tensor → known tensor) (idx : Nat) (pairs : List (Nat × Nat)) (pool : Pool Value)
    (agree : Agree live known (stamps pool)) (members : ∀ pair ∈ pairs, live pair.1 ∧ known pair.2)
    (placed : ∀ offset (inside : offset < pairs.length),
      PairPlaced pool (op.inDeviceMemory (idx + offset)) pairs[offset]) :
    ∃ next, updateTraceInputSlotsFrom op deviceResidentOnly idx pairs pool = .ok next ∧ SameStorage pool next ∧
      stamps next = copies (refreshed op deviceResidentOnly idx pairs) (stamps pool) := by
  induction pairs generalizing idx pool with
  | nil => exact ⟨pool, rfl, SameStorage.refl pool, rfl⟩
  | cons pair rest ih =>
      obtain ⟨input, slot⟩ := pair
      have membersRest : ∀ pair ∈ rest, live pair.1 ∧ known pair.2 :=
        fun pair member => members pair (List.mem_cons_of_mem _ member)
      have placedRest : ∀ offset (inside : offset < rest.length),
          PairPlaced pool (op.inDeviceMemory (idx + 1 + offset)) rest[offset] := by
        intro offset inside
        have later := placed (offset + 1) (Nat.succ_lt_succ inside)
        rwa [List.getElem_cons_succ, show idx + (offset + 1) = idx + 1 + offset by omega] at later
      rw [updateTraceInputSlotsFrom, refreshed]
      by_cases skipped : (deviceResidentOnly && !op.inDeviceMemory idx) = true
      · rw [if_pos skipped, if_pos skipped]
        exact ih (idx + 1) pool agree membersRest placedRest
      · obtain ⟨inputLive, slotKnown⟩ := members (input, slot) List.mem_cons_self
        obtain ⟨middle, updated, same, copied⟩ := updateTraceInputSlot_copies (op.inDeviceMemory idx) input slot pool
          agree inputLive slotKnown (placed 0 (Nat.zero_lt_succ _))
        have agreeMiddle : Agree live known (stamps middle) := by
          rw [copied]
          refine agree_copies agree liveKnown [(input, slot)] fun pair member => ?_
          rw [List.mem_singleton.mp member]
          exact inputLive
        obtain ⟨next, finished, sameRest, copiedRest⟩ := ih (idx + 1) middle agreeMiddle membersRest
          fun offset inside => (placedRest offset inside).carry same
        rw [if_neg skipped, if_neg skipped, updated]
        refine ⟨next, finished, same.trans sameRest, ?_⟩
        rw [copiedRest, copied, copies]

theorem writeHostStaged_copies (pairs : List (Nat × Nat)) (pool : Pool Value)
    (placed : ∀ pair ∈ pairs, PairPlaced pool false pair) :
    ∃ next, writeHostStaged pairs pool = .ok next ∧ SameStorage pool next ∧ versions next = versions pool ∧
      contents next = copies pairs (contents pool) := by
  induction pairs generalizing pool with
  | nil => exact ⟨pool, rfl, SameStorage.refl pool, rfl, rfl⟩
  | cons pair rest ih =>
      obtain ⟨input, slot⟩ := pair
      obtain ⟨onHost, onDevice⟩ := placed (input, slot) List.mem_cons_self
      have written : writeTensor input slot pool = .ok (setContent pool slot (pool input).content) := by
        have hostInput : (pool input).storageType = .host := onHost
        have deviceSlot : (pool slot).storageType = .device := onDevice
        unfold writeTensor
        rw [if_neg (not_not.mpr hostInput), if_neg (not_not.mpr deviceSlot)]
      have same := setContent_storage pool slot (pool input).content
      obtain ⟨next, finished, sameRest, versionsRest, contentsRest⟩ :=
        ih (setContent pool slot (pool input).content) fun pair member =>
          (placed pair (List.mem_cons_of_mem _ member)).carry same
      rw [writeHostStaged, written]
      refine ⟨next, finished, same.trans sameRest, ?_, ?_⟩
      · rw [versionsRest, versions_setContent]
      · rw [contentsRest, contents_setContent, copies]
        rfl

section Execution
variable (trace : MeshTrace Value) (pool : Pool Value)

theorem foldl_setContent (pairs : List (Nat × Value)) (pool : Pool Value) :
    SameStorage pool (pairs.foldl (fun pool store => setContent pool store.1 store.2) pool) ∧
      versions (pairs.foldl (fun pool store => setContent pool store.1 store.2) pool) = versions pool ∧
      contents (pairs.foldl (fun pool store => setContent pool store.1 store.2) pool) =
        stores pairs (contents pool) := by
  induction pairs generalizing pool with
  | nil => exact ⟨SameStorage.refl pool, rfl, rfl⟩
  | cons store rest ih =>
      obtain ⟨storage, version, content⟩ := ih (setContent pool store.1 store.2)
      rw [List.foldl_cons]
      refine ⟨(setContent_storage pool store.1 store.2).trans storage, ?_, ?_⟩
      · rw [version, versions_setContent]
      · rw [content, contents_setContent, stores]

theorem execute_storage : SameStorage pool (execute trace pool) := (foldl_setContent _ pool).1

theorem execute_versions : versions (execute trace pool) = versions pool := (foldl_setContent _ pool).2.1

theorem execute_contents : contents (execute trace pool) =
    stores (trace.outputSlots.zip (trace.commands (trace.inputSlots.map (contents pool)))) (contents pool) :=
  (foldl_setContent _ pool).2.2

theorem execute_outputs (distinct : trace.outputSlots.Nodup)
    (lengths : trace.outputSlots.length = (trace.commands (trace.inputSlots.map (contents pool))).length) :
    trace.outputSlots.map (contents (execute trace pool)) = trace.commands (trace.inputSlots.map (contents pool)) := by
  rw [execute_contents]
  exact stores_zip _ _ _ distinct lengths

theorem execute_frame (tensor : Nat) (apart : tensor ∉ trace.outputSlots) :
    contents (execute trace pool) tensor = contents pool tensor := by
  rw [execute_contents]
  apply stores_frame
  rintro store member rfl
  exact apart (List.of_mem_zip member).1

theorem execute_twice (apart : ∀ slot ∈ trace.inputSlots, slot ∉ trace.outputSlots) :
    trace.inputSlots.map (contents (execute trace pool)) = trace.inputSlots.map (contents pool) :=
  List.map_congr_left fun slot member => execute_frame trace pool slot (apart slot member)

end Execution

end TtMlir.Trace
