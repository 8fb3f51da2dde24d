import TtMlir.Trace.SlotRefresh

/-!
What the callers of the runtime may do: make tensors, change one together with a
fresh version, drop one, and run trace ops on tensors they hold. Whatever they
do, the versions stay truthful as long as the runs keep them so.
-/

namespace TtMlir.Trace

inductive Action (Key Value : Type) where
  | create (storageType : StorageType) (content : Value)
  | update (tensor : Nat) (content : Value)
  | drop (tensor : Nat)
  | run (key : Key) (inputs : List Nat)

variable {Key Value : Type}

namespace Machine

def updateTensor (machine : Machine Key Value) (tensor : Nat) (content : Value) : Machine Key Value :=
  { machine with
    wrappers := Function.update machine.wrappers tensor
      { machine.wrappers tensor with content, version := machine.latestVersion }
    latestVersion := machine.latestVersion + 1 }

def createTensor (machine : Machine Key Value) (storageType : StorageType) (content : Value) : Machine Key Value :=
  { machine.newTensor storageType content with live := Function.update machine.live machine.allocated true }

def dropTensor (machine : Machine Key Value) (tensor : Nat) : Machine Key Value :=
  { machine with live := Function.update machine.live tensor false }

def InputSlot (machine : Machine Key Value) (slot : Nat) : Prop :=
  ∃ key traceData, machine.cache key = some traceData ∧ slot ∈ traceData.inputTensors

def Published (machine : Machine Key Value) (slot : Nat) : Prop :=
  ∃ key traceData, machine.cache key = some traceData ∧ slot ∈ traceData.outputTensors

def Known (machine : Machine Key Value) (tensor : Nat) : Prop := machine.live tensor = true ∨ machine.InputSlot tensor

/-- An input slot with the version of a live tensor holds what that tensor holds. -/
def VersionsTell (machine : Machine Key Value) : Prop :=
  ∀ tensor, machine.live tensor = true ∨ machine.Published tensor → ∀ slot, machine.InputSlot slot →
    versions machine.wrappers slot = versions machine.wrappers tensor →
      contents machine.wrappers slot = contents machine.wrappers tensor

end Machine

/-- The inputs of a run are tensors the caller holds, as many as the op has and
each with the storage the op asks for. -/
def Placed (op : TraceOp Value) (inputs : List Nat) (machine : Machine Key Value) : Prop :=
  inputs.length = op.numTensorInputs ∧ (∀ input ∈ inputs, machine.live input = true) ∧
    ∀ idx (inside : idx < inputs.length),
      (machine.wrappers inputs[idx]).storageType = if op.inDeviceMemory idx then .device else .host

instance (op : TraceOp Value) (inputs : List Nat) (machine : Machine Key Value) :
    Decidable (Placed op inputs machine) := by
  unfold Placed
  infer_instance

section System
variable [DecidableEq Key] [Inhabited Value] (ops : Key → TraceOp Value)
variable (allowed : Machine Key Value → Key → List Nat → Prop)

def perform : Action Key Value → Machine Key Value → Except String (Machine Key Value)
  | .create storageType content, machine => .ok (machine.createTensor storageType content)
  | .update tensor content, machine => .ok (machine.updateTensor tensor content)
  | .drop tensor, machine => .ok (machine.dropTensor tensor)
  | .run key inputs, machine => do
      let (_, machine) ← machine.run ops key inputs
      .ok machine

/-- What a caller may do: it changes and passes only tensors it holds. -/
def Permitted (machine : Machine Key Value) : Action Key Value → Prop
  | .create _ _ => True
  | .update tensor _ => machine.live tensor = true
  | .drop _ => True
  | .run key inputs => Placed (ops key) inputs machine ∧ allowed machine key inputs

instance [∀ machine key inputs, Decidable (allowed machine key inputs)] (machine : Machine Key Value)
    (action : Action Key Value) : Decidable (Permitted ops allowed machine action) := by
  cases action <;> unfold Permitted <;> infer_instance

inductive Reachable : Machine Key Value → Prop where
  | start : Reachable Machine.start
  | step {machine next : Machine Key Value} (action : Action Key Value) : Reachable machine →
      Permitted ops allowed machine action → perform ops action machine = .ok next → Reachable next

def script [∀ machine key inputs, Decidable (allowed machine key inputs)] :
    List (Action Key Value) → Machine Key Value → Except String (Machine Key Value)
  | [], machine => .ok machine
  | action :: rest, machine =>
      if Permitted ops allowed machine action then do
        let machine ← perform ops action machine
        script rest machine
      else .error "Not permitted"

theorem reachable_script [∀ machine key inputs, Decidable (allowed machine key inputs)]
    (actions : List (Action Key Value)) (machine last : Machine Key Value)
    (reachable : Reachable ops allowed machine) (performed : script ops allowed actions machine = .ok last) :
    Reachable ops allowed last := by
  induction actions generalizing machine with
  | nil =>
      cases performed
      exact reachable
  | cons action rest ih =>
      rw [script] at performed
      by_cases permitted : Permitted ops allowed machine action
      · rw [if_pos permitted] at performed
        cases stepped : perform ops action machine with
        | error message =>
            rw [stepped] at performed
            cases performed
        | ok next =>
            rw [stepped] at performed
            exact ih next (.step action reachable permitted stepped) performed
      · rw [if_neg permitted] at performed
        cases performed

end System

/-- Tensors with equal versions hold the same, and no output slot shares a version with a known
tensor. -/
structure Told (live known published : Nat → Prop) (memory : Nat → Nat × Value) : Prop where
  agree : Agree live known memory
  apart : ∀ output, published output → ∀ tensor, known tensor → (memory output).1 ≠ (memory tensor).1

structure SlotsSound (op : TraceOp Value) (machine : Machine Key Value) (inputSlots outputSlots : List Nat) : Prop where
  inputs_length : inputSlots.length = op.numTensorInputs
  outputs_length : outputSlots.length = op.numOutputs
  distinct : (inputSlots.drop op.numDeviceResident).Nodup
  separate : ∀ slot ∈ inputSlots.drop op.numDeviceResident,
    slot ∉ inputSlots.take op.numDeviceResident ∧ machine.live slot = false
  outputs_distinct : outputSlots.Nodup
  allocated : ∀ slot ∈ inputSlots ++ outputSlots, slot < machine.allocated
  buffers : ∀ slot ∈ inputSlots ++ outputSlots, (machine.wrappers slot).storageType = .device

structure Sound (ops : Key → TraceOp Value) (machine : Machine Key Value) : Prop where
  live_allocated : ∀ tensor, machine.live tensor = true → tensor < machine.allocated
  versions_used : ∀ tensor, tensor < machine.allocated → versions machine.wrappers tensor < machine.latestVersion
  slots : ∀ key traceData, machine.cache key = some traceData →
    SlotsSound (ops key) machine traceData.inputTensors traceData.outputTensors
  captured : ∀ key traceData, machine.cache key = some traceData → machine.meshTraces traceData.traceId =
    some ⟨(ops key).traceFunc, traceData.inputTensors, traceData.outputTensors⟩
  trace_ids : ∀ key traceData, machine.cache key = some traceData → traceData.traceId < machine.nextTraceId
  own_trace : ∀ key traceData other otherData, machine.cache key = some traceData →
    machine.cache other = some otherData → traceData.traceId = otherData.traceId → key = other
  generations : ∀ key traceData, machine.cache key = some traceData → traceData.generationId ≤ machine.generationId
  told : Told (fun tensor => machine.live tensor = true) machine.Known machine.Published (stamps machine.wrappers)

section Telling
variable {live known published : Nat → Prop} {memory : Nat → Nat × Value}

theorem Told.separate (told : Told live known published memory) {tensor : Nat} (output : published tensor) :
    ¬ known tensor := fun isKnown => told.apart tensor output tensor isKnown rfl

theorem Told.mono {fewerLive fewerKnown fewerPublished : Nat → Prop} (told : Told live known published memory)
    (lives : ∀ tensor, fewerLive tensor → live tensor) (knows : ∀ tensor, fewerKnown tensor → known tensor)
    (publishes : ∀ tensor, fewerPublished tensor → published tensor) :
    Told fewerLive fewerKnown fewerPublished memory := by
  constructor
  · intro tensor isLive slot isKnown
    exact told.agree tensor (lives tensor isLive) slot (knows slot isKnown)
  · intro output isPublished tensor isKnown
    exact told.apart output (publishes output isPublished) tensor (knows tensor isKnown)

theorem Told.congr (told : Told live known published memory) {other : Nat → Nat × Value}
    (lives : ∀ tensor, live tensor → known tensor)
    (onKnown : ∀ tensor, known tensor → other tensor = memory tensor)
    (onPublished : ∀ tensor, published tensor → (other tensor).1 = (memory tensor).1) :
    Told live known published other := by
  constructor
  · intro tensor isLive slot isKnown
    rw [onKnown tensor (lives tensor isLive), onKnown slot isKnown]
    exact told.agree tensor isLive slot isKnown
  · intro output isPublished tensor isKnown
    rw [onPublished output isPublished, onKnown tensor isKnown]
    exact told.apart output isPublished tensor isKnown

section
variable (told : Told live known published memory) (lives : ∀ tensor, live tensor → known tensor)
include told lives

theorem Told.copied (pairs : List (Nat × Nat)) (sources : ∀ pair ∈ pairs, live pair.1) (targets : ∀ pair ∈ pairs, known pair.2) :
    Told live known published (copies pairs memory) := by
  constructor
  · exact agree_copies told.agree lives pairs sources
  · intro output isPublished tensor isKnown
    have kept : copies pairs memory output = memory output := by
      refine copies_frame pairs memory output fun pair member same => ?_
      exact told.separate isPublished (same ▸ targets pair member)
    rw [kept]
    rcases copies_origin live pairs memory sources tensor with own | ⟨origin, isLive, held⟩
    · rw [own]
      exact told.apart output isPublished tensor isKnown
    · rw [held]
      exact told.apart output isPublished origin (lives origin isLive)

theorem Told.renew (renewed : Nat) (stamp : Nat × Value) (unused : ∀ tensor, known tensor ∨ published tensor →
      (memory tensor).1 ≠ stamp.1) (unpublished : ¬ published renewed) :
    Told (fun tensor => live tensor ∨ tensor = renewed) (fun tensor => known tensor ∨ tensor = renewed) published
      (Function.update memory renewed stamp) := by
  constructor
  · intro tensor isLive slot isKnown same
    by_cases first : tensor = renewed
    · by_cases second : slot = renewed
      · rw [first, second]
      · rw [first, Function.update_self, Function.update_of_ne second] at same
        exact absurd same.symm (unused slot (Or.inl (isKnown.resolve_right second)))
    · have wasLive := isLive.resolve_right first
      by_cases second : slot = renewed
      · rw [second, Function.update_self, Function.update_of_ne first] at same
        exact absurd same (unused tensor (Or.inl (lives tensor wasLive)))
      · rw [Function.update_of_ne first, Function.update_of_ne second] at same ⊢
        exact told.agree tensor wasLive slot (isKnown.resolve_right second) same
  · intro output isPublished tensor isKnown
    have otherOutput : output ≠ renewed := fun same => unpublished (same ▸ isPublished)
    rw [Function.update_of_ne otherOutput]
    by_cases same : tensor = renewed
    · rw [same, Function.update_self]
      exact unused output (Or.inr isPublished)
    · rw [Function.update_of_ne same]
      exact told.apart output isPublished tensor (isKnown.resolve_right same)

theorem Told.extend (newKnown newPublished : Nat → Prop)
    (unused : ∀ slot, newKnown slot ∨ newPublished slot → ∀ tensor, known tensor ∨ published tensor →
      (memory tensor).1 ≠ (memory slot).1)
    (apart : ∀ output, newPublished output → ∀ slot, newKnown slot → (memory output).1 ≠ (memory slot).1) :
    Told live (fun tensor => known tensor ∨ newKnown tensor) (fun tensor => published tensor ∨ newPublished tensor)
      memory := by
  constructor
  · rintro tensor isLive slot (isKnown | isNew) same
    · exact told.agree tensor isLive slot isKnown same
    · exact absurd same (unused slot (Or.inl isNew) tensor (Or.inl (lives tensor isLive)))
  · rintro output (isPublished | isNewOutput) slot (isKnown | isNew)
    · exact told.apart output isPublished slot isKnown
    · exact unused slot (Or.inl isNew) output (Or.inr isPublished)
    · exact (unused output (Or.inr isNewOutput) slot (Or.inl isKnown)).symm
    · exact apart output isNewOutput slot isNew

end

end Telling

section Frames
variable {op : TraceOp Value} {machine next : Machine Key Value} {inputSlots outputSlots : List Nat}

theorem SlotsSound.carry (sound : SlotsSound op machine inputSlots outputSlots)
    (grows : machine.allocated ≤ next.allocated)
    (storage : ∀ tensor, tensor < machine.allocated →
      (next.wrappers tensor).storageType = (machine.wrappers tensor).storageType)
    (lives : ∀ tensor, tensor < machine.allocated → next.live tensor = true → machine.live tensor = true) :
    SlotsSound op next inputSlots outputSlots := by
  constructor
  · exact sound.inputs_length
  · exact sound.outputs_length
  · exact sound.distinct
  · intro slot staged
    obtain ⟨notResident, notLive⟩ := sound.separate slot staged
    have inside := sound.allocated slot (List.mem_append_left _ (List.mem_of_mem_drop staged))
    refine ⟨notResident, Bool.eq_false_iff.mpr fun nowLive => ?_⟩
    rw [lives slot inside nowLive] at notLive
    cases notLive
  · exact sound.outputs_distinct
  · intro slot member
    exact Nat.lt_of_lt_of_le (sound.allocated slot member) grows
  · intro slot member
    rw [storage slot (sound.allocated slot member)]
    exact sound.buffers slot member

variable {ops : Key → TraceOp Value}

theorem Sound.known_allocated (sound : Sound ops machine) {tensor : Nat} (known : machine.Known tensor) :
    tensor < machine.allocated := by
  rcases known with live | ⟨key, traceData, cached, member⟩
  · exact sound.live_allocated tensor live
  · exact (sound.slots key traceData cached).allocated tensor (List.mem_append_left _ member)

theorem Sound.published_allocated (sound : Sound ops machine) {tensor : Nat} (published : machine.Published tensor) :
    tensor < machine.allocated := by
  obtain ⟨key, traceData, cached, member⟩ := published
  exact (sound.slots key traceData cached).allocated tensor (List.mem_append_right _ member)

theorem Sound.version_used (sound : Sound ops machine) {tensor : Nat}
    (used : machine.Known tensor ∨ machine.Published tensor) :
    (stamps machine.wrappers tensor).1 < machine.latestVersion := by
  rcases used with known | published
  · exact sound.versions_used tensor (sound.known_allocated known)
  · exact sound.versions_used tensor (sound.published_allocated published)

theorem Sound.change (sound : Sound ops machine) (wrappers : Pool Value) (allocated latestVersion : Nat)
    (live : Nat → Bool) (grows : machine.allocated ≤ allocated)
    (storage : ∀ tensor, tensor < machine.allocated →
      (wrappers tensor).storageType = (machine.wrappers tensor).storageType)
    (lives : ∀ tensor, tensor < machine.allocated → live tensor = true → machine.live tensor = true)
    (liveAllocated : ∀ tensor, live tensor = true → tensor < allocated)
    (versionsUsed : ∀ tensor, tensor < allocated → versions wrappers tensor < latestVersion)
    (told : Told (fun tensor => live tensor = true) (fun tensor => live tensor = true ∨ machine.InputSlot tensor)
      machine.Published (stamps wrappers)) :
    Sound ops { machine with wrappers, allocated, latestVersion, live } where
  live_allocated := liveAllocated
  versions_used := versionsUsed
  slots key traceData cached := (sound.slots key traceData cached).carry grows storage lives
  captured := sound.captured
  trace_ids := sound.trace_ids
  own_trace := sound.own_trace
  generations := sound.generations
  told := told

end Frames

section CallerSteps
variable {machine : Machine Key Value} {ops : Key → TraceOp Value}

theorem start_sound [Inhabited Value] : Sound ops (Machine.start : Machine Key Value) := by
  constructor
  case live_allocated => exact fun _ live => absurd live Bool.false_ne_true
  case versions_used => exact fun _ inside => absurd inside (Nat.not_lt_zero _)
  case told =>
    constructor
    · exact fun _ live => absurd live Bool.false_ne_true
    · rintro _ ⟨_, _, cached, _⟩
      cases cached
  all_goals
    intro _ _
    intros
    contradiction

theorem stamps_update (pool : Pool Value) (tensor : Nat) (wrapper : TensorWrapper Value) :
    stamps (Function.update pool tensor wrapper) =
      Function.update (stamps pool) tensor (wrapper.version, wrapper.content) := by
  funext other
  unfold stamps
  by_cases same : other = tensor
  · rw [same, Function.update_self, Function.update_self]
  · rw [Function.update_of_ne same, Function.update_of_ne same]

theorem Sound.unused (sound : Sound ops machine) (tensor : Nat)
    (used : machine.Known tensor ∨ machine.Published tensor) :
    (stamps machine.wrappers tensor).1 ≠ machine.latestVersion := Nat.ne_of_lt (sound.version_used used)

theorem newTensor_wrappers (storageType : StorageType) (content : Value) :
    (machine.newTensor storageType content).wrappers = Function.update machine.wrappers machine.allocated
      ⟨storageType, content, machine.latestVersion⟩ := rfl

theorem versions_newTensor (sound : Sound ops machine) (storageType : StorageType) (content : Value) (tensor : Nat)
    (inside : tensor < machine.allocated + 1) :
    versions (machine.newTensor storageType content).wrappers tensor < machine.latestVersion + 1 := by
  unfold versions
  rw [newTensor_wrappers]
  by_cases fresh : tensor = machine.allocated
  · rw [fresh, Function.update_self]
    exact Nat.lt_succ_self _
  · rw [Function.update_of_ne fresh]
    exact Nat.lt_succ_of_lt (sound.versions_used tensor (by omega))

theorem newTensor_storage (storageType : StorageType) (content : Value) (tensor : Nat)
    (inside : tensor < machine.allocated) :
    ((machine.newTensor storageType content).wrappers tensor).storageType =
      (machine.wrappers tensor).storageType := by
  rw [newTensor_wrappers, Function.update_of_ne (Nat.ne_of_lt inside)]

theorem newTensor_sound (sound : Sound ops machine) (storageType : StorageType) (content : Value) :
    Sound ops (machine.newTensor storageType content) := by
  refine sound.change _ _ _ _ (Nat.le_succ _) (newTensor_storage storageType content) (fun _ _ live => live)
    (fun tensor live => Nat.lt_succ_of_lt (sound.live_allocated tensor live))
    (versions_newTensor sound storageType content) ?_
  rw [stamps_update]
  refine sound.told.congr (fun _ => Or.inl) ?_ ?_
  · intro tensor known
    exact Function.update_of_ne (Nat.ne_of_lt (sound.known_allocated known)) _ _
  · intro tensor published
    rw [Function.update_of_ne (Nat.ne_of_lt (sound.published_allocated published))]

theorem createTensor_sound (sound : Sound ops machine) (storageType : StorageType) (content : Value) :
    Sound ops (machine.createTensor storageType content) := by
  have liveCases : ∀ tensor, Function.update machine.live machine.allocated true tensor = true →
      machine.live tensor = true ∨ tensor = machine.allocated := by
    intro tensor live
    by_cases fresh : tensor = machine.allocated
    · exact Or.inr fresh
    · rw [Function.update_of_ne fresh] at live
      exact Or.inl live
  refine sound.change _ _ _ _ (Nat.le_succ _) (newTensor_storage storageType content) ?_ ?_
    (versions_newTensor sound storageType content) ?_
  · intro tensor inside live
    exact (liveCases tensor live).resolve_right (Nat.ne_of_lt inside)
  · intro tensor live
    rcases liveCases tensor live with old | fresh
    · exact Nat.lt_succ_of_lt (sound.live_allocated tensor old)
    · rw [fresh]
      exact Nat.lt_succ_self _
  · rw [newTensor_wrappers, stamps_update]
    have renewed := sound.told.renew (fun _ => Or.inl) machine.allocated (machine.latestVersion, content) sound.unused
      fun published => Nat.lt_irrefl _ (sound.published_allocated published)
    refine renewed.mono liveCases ?_ fun _ published => published
    rintro tensor (live | slot)
    · exact (liveCases tensor live).imp_left Or.inl
    · exact Or.inl (Or.inr slot)

theorem updateTensor_sound (sound : Sound ops machine) (tensor : Nat) (content : Value)
    (live : machine.live tensor = true) : Sound ops (machine.updateTensor tensor content) := by
  refine sound.change _ _ _ _ (Nat.le_refl _) ?_ (fun _ _ live => live) sound.live_allocated ?_ ?_
  · intro other _
    by_cases same : other = tensor
    · rw [same, Function.update_self]
    · rw [Function.update_of_ne same]
  · intro other inside
    unfold versions
    by_cases same : other = tensor
    · rw [same, Function.update_self]
      exact Nat.lt_succ_self _
    · rw [Function.update_of_ne same]
      exact Nat.lt_succ_of_lt (sound.versions_used other inside)
  · rw [stamps_update]
    have renewed := sound.told.renew (fun _ => Or.inl) tensor (machine.latestVersion, content) sound.unused
      fun published => sound.told.separate published (Or.inl live)
    exact renewed.mono (fun _ => Or.inl) (fun _ => Or.inl) fun _ published => published

theorem dropTensor_sound (sound : Sound ops machine) (tensor : Nat) : Sound ops (machine.dropTensor tensor) := by
  have fewer : ∀ other, Function.update machine.live tensor false other = true → machine.live other = true := by
    intro other live
    by_cases same : other = tensor
    · rw [same, Function.update_self] at live
      cases live
    · rwa [Function.update_of_ne same] at live
  refine sound.change _ _ _ _ (Nat.le_refl _) (fun _ _ => rfl) (fun other _ => fewer other) ?_ sound.versions_used ?_
  · exact fun other live => sound.live_allocated other (fewer other live)
  · exact sound.told.mono fewer (fun other => Or.imp_left (fewer other)) fun _ published => published

end CallerSteps

end TtMlir.Trace
