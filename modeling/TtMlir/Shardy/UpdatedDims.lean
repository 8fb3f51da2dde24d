import Mathlib.Algebra.BigOperators.Group.List.Lemmas
import TtMlir.Shardy.Localize

/-!
When the extent of a shard is the tensor's divided by the number of shards,
`calculateUpdatedDim` and `populateShardedOutputType` in ShardyUtils.cpp. Every axis is checked
against the old extent, not against what the axes before it leave.
-/

namespace TtMlir.Shardy

section UpdatedDims
variable {mesh : Mesh}

/-- The dim divides by all its axes together, or the check fails. -/
def DimExact (mesh : Mesh) (axes : List String) (extent : Nat) : Prop :=
  calculateUpdatedDim mesh axes extent =
    if mesh.combinedSize axes ∣ extent then some (extent / mesh.combinedSize axes) else none

def shardCount (mesh : Mesh) (sharding : TensorSharding) : Nat := (sharding.map mesh.combinedSize).prod

/-- The shards of a local type have the volume of the tensor together. -/
def VolumeExact (mesh : Mesh) (sharding : TensorSharding) (shape : List Nat) : Prop :=
  ∀ newShape ∈ populateShardedOutputType mesh sharding shape, newShape.prod * shardCount mesh sharding = shape.prod

def DividesTogether (mesh : Mesh) (axes : List String) (extent : Nat) : Prop :=
  (∀ axis ∈ axes, mesh.axisSize axis ∣ extent) → mesh.combinedSize axes ∣ extent

theorem updatedDim_fold (axes : List String) (known : ∀ axis ∈ axes, mesh.Knows axis) (extent start : Nat) :
    axes.foldlM (fun updatedShapeDim axisName =>
      if ¬mesh.Knows axisName ∨ extent % mesh.axisSize axisName ≠ 0 then none
      else some (updatedShapeDim / mesh.axisSize axisName)) start =
        if ∀ axis ∈ axes, mesh.axisSize axis ∣ extent then some (start / mesh.combinedSize axes) else none := by
  induction axes generalizing start with
  | nil => simp [Mesh.combinedSize]
  | cons axis axes ih =>
      obtain ⟨here, later⟩ := List.forall_mem_cons.mp known
      rw [List.foldlM_cons]
      by_cases divides : mesh.axisSize axis ∣ extent
      · rw [if_neg (by simp [here, Nat.mod_eq_zero_of_dvd divides])]
        change List.foldlM _ (start / mesh.axisSize axis) axes = _
        rw [ih later, Mesh.combinedSize_cons, ← Nat.div_div_eq_div_mul]
        simp [divides]
      · have left : extent % mesh.axisSize axis ≠ 0 := fun none => divides (Nat.dvd_of_mod_eq_zero none)
        rw [if_pos (.inr left), if_neg (fun all => divides (all axis List.mem_cons_self))]
        rfl

theorem calculateUpdatedDim_each {axes : List String} (known : ∀ axis ∈ axes, mesh.Knows axis) (extent : Nat) :
    calculateUpdatedDim mesh axes extent =
      if ∀ axis ∈ axes, mesh.axisSize axis ∣ extent then some (extent / mesh.combinedSize axes) else none :=
  updatedDim_fold axes known extent extent

theorem axisSize_dvd_combined {axes : List String} {axis : String} (member : axis ∈ axes) :
    mesh.axisSize axis ∣ mesh.combinedSize axes :=
  List.dvd_prod (List.mem_map_of_mem member)

theorem dimExact_iff {axes : List String} (known : ∀ axis ∈ axes, mesh.Knows axis) (extent : Nat) :
    DimExact mesh axes extent ↔ DividesTogether mesh axes extent := by
  unfold DimExact DividesTogether
  rw [calculateUpdatedDim_each known]
  constructor
  · intro exact' each
    by_contra apart
    rw [if_pos each, if_neg apart] at exact'
    exact nomatch exact'
  · intro together
    by_cases each : ∀ axis ∈ axes, mesh.axisSize axis ∣ extent
    · rw [if_pos each, if_pos (together each)]
    · rw [if_neg each, if_neg]
      exact fun all => each fun axis member => (axisSize_dvd_combined member).trans all

theorem volumeExact_of_dims {sharding : TensorSharding} {shape : List Nat} (ranks : sharding.length = shape.length)
    (dims : ∀ entry ∈ sharding.zip shape, DimExact mesh entry.1 entry.2) : VolumeExact mesh sharding shape := by
  induction sharding generalizing shape with
  | nil =>
      obtain rfl : shape = [] := List.length_eq_zero_iff.mp ranks.symm
      intro newShape found
      cases found
      rfl
  | cons axes sharding ih =>
      cases shape with
      | nil => cases ranks
      | cons extent shape =>
          intro newShape found
          simp only [Option.mem_def, populateShardedOutputType, Option.bind_eq_bind, Option.bind_eq_some_iff] at found
          obtain ⟨updated, here, rest, tail, same⟩ := found
          cases same
          obtain ⟨dim, later⟩ := List.forall_mem_cons.mp dims
          have inner := ih (by simpa using ranks) later rest tail
          unfold DimExact at dim
          dsimp only at dim
          rw [here] at dim
          split at dim
          · -- The axes divide the dim together, so the quotients lose nothing.
            rename_i divides
            cases dim
            calc (extent / mesh.combinedSize axes :: rest).prod * shardCount mesh (axes :: sharding)
                = extent / mesh.combinedSize axes * rest.prod * (mesh.combinedSize axes * shardCount mesh sharding) := by
                  rw [List.prod_cons, shardCount, List.map_cons, List.prod_cons, shardCount]
              _ = extent / mesh.combinedSize axes * mesh.combinedSize axes * (rest.prod * shardCount mesh sharding) :=
                by ring
              _ = (extent :: shape).prod := by rw [Nat.div_mul_cancel divides, inner, List.prod_cons]
          · cases dim

/-- Local dims are exact, and local types have the volume, exactly when the axes of every dim divide it together where
each of them does. -/
theorem updatedDims_exact_iff (mesh : Mesh) (sharding : TensorSharding) (shape : List Nat)
    (ranks : sharding.length = shape.length) (known : ∀ axes ∈ sharding, ∀ axis ∈ axes, mesh.Knows axis) :
    ((∀ entry ∈ sharding.zip shape, DimExact mesh entry.1 entry.2) ∧ VolumeExact mesh sharding shape) ↔
      ∀ entry ∈ sharding.zip shape, DividesTogether mesh entry.1 entry.2 := by
  have each (entry : List String × Nat) (member : entry ∈ sharding.zip shape) :
      DimExact mesh entry.1 entry.2 ↔ DividesTogether mesh entry.1 entry.2 :=
    dimExact_iff (known entry.1 (List.of_mem_zip member).1) entry.2
  constructor
  · rintro ⟨dims, _⟩ entry member
    exact (each entry member).mp (dims entry member)
  · intro together
    have dims : ∀ entry ∈ sharding.zip shape, DimExact mesh entry.1 entry.2 := fun entry member =>
      (each entry member).mpr (together entry member)
    exact ⟨dims, volumeExact_of_dims ranks dims⟩

def twoByFour : Mesh where
  axes := [⟨"x", 2⟩, ⟨"y", 4⟩]
  distinct := by decide
  positive := by decide

theorem updatedDims_exact_eight :
    ((∀ entry ∈ [["x", "y"], []].zip [8, 3], DimExact twoByFour entry.1 entry.2) ∧ VolumeExact twoByFour [["x", "y"], []] [8, 3]) ↔
      ∀ entry ∈ [["x", "y"], []].zip [8, 3], DividesTogether twoByFour entry.1 entry.2 :=
  updatedDims_exact_iff twoByFour [["x", "y"], []] [8, 3] (by decide) (by decide)

/-- Both axes divide the extent four, and the shards get none of it. -/
theorem four_over_eight_shards : calculateUpdatedDim twoByFour ["x", "y"] 4 = some 0 ∧ ¬ DimExact twoByFour ["x", "y"] 4 ∧
    ¬ VolumeExact twoByFour [["x", "y"]] [4] := by
  have found : calculateUpdatedDim twoByFour ["x", "y"] 4 = some 0 := by decide
  refine ⟨found, ?_, ?_⟩
  · unfold DimExact
    rw [found]
    decide
  · intro volume
    exact absurd (volume [0] (by decide)) (by decide)

end UpdatedDims

end TtMlir.Shardy
