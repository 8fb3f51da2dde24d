import TtMlir.Library.Broadcast

/-!
A reshape after a broadcast that is moved in front of it, BroadcastCommutePatterns.cpp. The
volume of the broadcast is split into partitions of original and of broadcasted data, from
which the final shape draws its dims, from the back. With the volume of the broadcast the scan
is exact: it answers where some reshape in front of some broadcast gives the same tensor.
-/

namespace TtMlir.Ttir.BroadcastReshape

open Broadcasting

/-- The assertions. -/
inductive Stop
  | broadcastDimensions | accountedFor
  deriving DecidableEq, Repr

/-- Some volume of data in a tensor, and whether or not it is original, or broadcasted data. -/
structure VolumePartition where
  size : Int
  isOriginalData : Bool
  deriving DecidableEq, Repr

abbrev Partitions := List VolumePartition × VolumePartition

def unknown : VolumePartition := ⟨-1, false⟩

def extend (state : Partitions) (isOriginalData : Bool) (volume : Nat) : Partitions :=
  let current := if state.2.size = -1 then ⟨1, isOriginalData⟩ else state.2
  if current.isOriginalData = isOriginalData then (state.1, { current with size := current.size * volume })
  else (state.1 ++ [current], ⟨volume, isOriginalData⟩)

def addDim (state : Partitions) (extent broadcastDim : Nat) : Partitions :=
  if broadcastDim = 1 ∧ 1 < extent then extend state true extent
  else if 1 < broadcastDim then extend state false broadcastDim
  -- Both are one, and whether the dim is broadcasted is irrelevant.
  else state

def addDims : List (Nat × Nat) → Partitions → Except Stop (List VolumePartition)
  | [], state => .ok (state.1 ++ [state.2])
  | (extent, broadcastDim) :: dims, state =>
      if 1 < extent ∧ broadcastDim = 1 ∨ extent = 1 ∧ 1 ≤ broadcastDim then addDims dims (addDim state extent broadcastDim)
      else .error .broadcastDimensions

def addEntry (entry : Nat × Nat) (answer : Except Stop (Option (List (Nat × Nat)))) :
    Except Stop (Option (List (Nat × Nat))) :=
  answer.map fun entries => entries.map (entry :: ·)

/-- Draws the final dims from the partitions, both from the back. The head of the partitions is the one at
`partitionIndex`. -/
def drawDims : List Nat → List VolumePartition → Except Stop (Option (List (Nat × Nat)))
  | [], partitions => if partitions = [] then .ok (some []) else .error .accountedFor
  | dim :: dims, [] => if dim ≠ 1 then .ok none else addEntry (1, 1) (drawDims dims [])
  | dim :: dims, partition :: partitions =>
      if dim = 1 then addEntry (1, 1) (drawDims dims (partition :: partitions))
      else if partition.size < dim then .ok none
      else
        let size := partition.size / dim
        addEntry (if partition.isOriginalData then (dim, 1) else (1, dim))
          (drawDims dims (if size = 1 then partitions else { partition with size := size } :: partitions))

def getNewReshapeAndBroadcastDims (originalShape finalShape broadcastDims : List Nat) :
    Except Stop (Option (List Nat × List Nat)) :=
  match addDims (originalShape.zip broadcastDims) ([], unknown) with
  | .error stop => .error stop
  | .ok partitions =>
      (drawDims finalShape.reverse partitions.reverse).map fun drawn =>
        drawn.map fun entries => (entries.reverse.map Prod.fst, entries.reverse.map Prod.snd)

def isCommuteUpwardsViable (originalShape finalShape broadcastDims : List Nat) : Except Stop Bool :=
  (getNewReshapeAndBroadcastDims originalShape finalShape broadcastDims).map Option.isSome

/-- The tensor after the rewrite, where the new shape and dims are given. -/
def performCommuteUpwardsRewrite {α : Type} (input : Tensor α) (finalShape broadcastDims : List Nat) :
    Except Stop (Option (Tensor α)) :=
  (getNewReshapeAndBroadcastDims input.shape finalShape broadcastDims).map fun answer =>
    answer.map fun new => (input.reshape new.1).broadcast new.2

/-! ## The partitions are the merged chunks of the broadcast -/

def partitionOf (chunk : Nat × Bool) : VolumePartition := ⟨chunk.1, chunk.2⟩

def stateOf : Chunks → Partitions
  | [] => ([], unknown)
  | chunk :: chunks => ((chunks.map partitionOf).reverse, partitionOf chunk)

section Partitions
variable {chunks : Chunks} {shape dims : List Nat}

theorem extend_state (chunks : Chunks) (own : Bool) (size : Nat) (large : size ≠ 1) :
    extend (stateOf chunks.merge) own size = stateOf (Chunks.merge ((size, own) :: chunks)) := by
  rw [Chunks.merge, if_neg large]
  cases merged : chunks.merge with
  | nil => simp [stateOf, extend, unknown, partitionOf]
  | cons chunk rest =>
      obtain ⟨next, kind⟩ := chunk
      have known : (next : Int) ≠ -1 := by omega
      by_cases same : own = kind
      · subst same
        simp [stateOf, extend, partitionOf, known, mul_comm]
      · have other : kind ≠ own := fun equal => same equal.symm
        simp [stateOf, extend, partitionOf, known, same, other]

theorem addDim_state (chunks : Chunks) (extent count : Nat) (positive : 0 < extent ∧ 0 < count)
    (valid : extent = 1 ∨ count = 1) :
    addDim (stateOf chunks.merge) extent count = stateOf (Chunks.merge (chunkOf extent count :: chunks)) := by
  unfold addDim chunkOf
  split
  · rename_i original
    rw [original.1, Nat.mul_one]
    exact extend_state chunks true extent (by omega)
  · rename_i notOriginal
    split
    · rename_i broadcasted
      have unit : extent = 1 := by omega
      have more : count ≠ 1 := by omega
      rw [unit, Nat.one_mul, decide_eq_false more]
      exact extend_state chunks false count more
    · have unit : extent = 1 := by omega
      have single : count = 1 := by omega
      subst unit single
      simp [Chunks.merge]

theorem addDims_state (chunks : Chunks) (broadcasts : Broadcasts shape dims) :
    addDims (shape.zip dims) (stateOf chunks.merge) =
      .ok ((stateOf (Chunks.merge (parts shape dims ++ chunks))).1 ++
        [(stateOf (Chunks.merge (parts shape dims ++ chunks))).2]) := by
  induction broadcasts generalizing chunks with
  | nil => rfl
  | @cons extent count shape dims valid _ ih =>
      obtain ⟨wide, some, unit⟩ := valid
      rw [List.zip_cons_cons, addDims, if_pos (by omega), addDim_state chunks extent count ⟨wide, some⟩ unit, ih,
        parts_cons, List.append_assoc]
      rfl

theorem addDims_broadcast (broadcasts : Broadcasts shape dims) (some : (parts shape dims).merge ≠ []) :
    addDims (shape.zip dims) ([], unknown) = .ok ((parts shape dims).merge.map partitionOf).reverse := by
  have run := addDims_state [] broadcasts
  rw [List.append_nil] at run
  cases merged : (parts shape dims).merge with
  | nil => exact absurd merged some
  | cons chunk rest =>
      rw [merged] at run
      rw [List.map_cons, List.reverse_cons]
      exact run

theorem merge_ne_nil (broadcasts : Broadcasts shape dims) (repeats : ∃ count ∈ dims, count ≠ 1) :
    (parts shape dims).merge ≠ [] := by
  intro empty
  have volume := (Chunks.merge_alike (parts shape dims)).volume
  rw [empty, parts_volume] at volume
  have unit : (scaled shape dims).prod = 1 := volume.symm
  clear empty volume
  induction broadcasts with
  | nil => simp at repeats
  | @cons extent count shape dims valid _ ih =>
      have listed : (scaled (extent :: shape) (count :: dims)).prod = extent * count * (scaled shape dims).prod :=
        List.prod_cons
      rw [listed] at unit
      have here := Nat.eq_one_of_mul_eq_one_right unit
      obtain ⟨other, member, differs⟩ := repeats
      rcases List.mem_cons.mp member with rfl | later
      · exact differs (Nat.eq_one_of_mul_eq_one_left here)
      · exact ih ⟨other, later, differs⟩ (Nat.eq_one_of_mul_eq_one_left unit)

end Partitions

def entryChunk (entry : Nat × Nat) : Nat × Bool := chunkOf entry.1 entry.2

def drawnEntry (dim : Nat) (own : Bool) : Nat × Nat := if own then (dim, 1) else (1, dim)

def leftOver (size : Nat) (own : Bool) (chunks : Chunks) : Chunks := if size = 1 then chunks else (size, own) :: chunks

section Draw
variable {chunks : Chunks} {dim size : Nat} {own : Bool} {dims : List Nat} {entries : List (Nat × Nat)}

theorem drawDims_unit (dims : List Nat) (partitions : List VolumePartition) :
    drawDims (1 :: dims) partitions = addEntry (1, 1) (drawDims dims partitions) := by
  cases partitions with
  | nil => simp [drawDims]
  | cons partition partitions => simp [drawDims]

theorem drawDims_nil (other : dim ≠ 1) : drawDims (dim :: dims) [] = .ok none := by
  rw [drawDims, if_pos other]

theorem drawDims_none (other : dim ≠ 1) (less : size < dim) :
    drawDims (dim :: dims) (List.map partitionOf ((size, own) :: chunks)) = .ok none := by
  have known : (partitionOf (size, own)).size < dim := Int.ofNat_lt.mpr less
  rw [List.map_cons, drawDims, if_neg other, if_pos known]

theorem drawDims_cons (other : dim ≠ 1) (fits : dim ≤ size) :
    drawDims (dim :: dims) (List.map partitionOf ((size, own) :: chunks)) =
      addEntry (drawnEntry dim own) (drawDims dims ((leftOver (size / dim) own chunks).map partitionOf)) := by
  have known : ¬ (partitionOf (size, own)).size < dim := fun less => Nat.not_lt.mpr fits (Int.ofNat_lt.mp less)
  have whole : (size : Int) / dim = ((size / dim : Nat) : Int) := by norm_cast
  have single : ((size / dim : Nat) : Int) = 1 ↔ size / dim = 1 := by norm_cast
  rw [List.map_cons, drawDims, if_neg other, if_neg known]
  change addEntry (drawnEntry dim own) (drawDims dims (if (size : Int) / dim = 1 then chunks.map partitionOf
    else ⟨(size : Int) / dim, own⟩ :: chunks.map partitionOf)) = _
  rw [whole, leftOver]
  by_cases spent : size / dim = 1
  · rw [if_pos (single.mpr spent), if_pos spent]
  · rw [if_neg fun equal => spent (single.mp equal), if_neg spent]
    rfl

theorem addEntry_some {entry : Nat × Nat} {answer : Except Stop (Option (List (Nat × Nat)))}
    (found : addEntry entry answer = .ok (some entries)) :
    ∃ rest, answer = .ok (some rest) ∧ entries = entry :: rest := by
  unfold addEntry at found
  match answer with
  | .error stop => exact nomatch found
  | .ok none => exact nomatch found
  | .ok (some rest) =>
      simp only [Except.map, Option.map_some, Except.ok.injEq, Option.some.injEq] at found
      exact ⟨rest, rfl, found.symm⟩

theorem addEntry_error {entry : Nat × Nat} {answer : Except Stop (Option (List (Nat × Nat)))} {stop : Stop}
    (failed : addEntry entry answer = .error stop) : answer = .error stop := by
  unfold addEntry at failed
  match answer with
  | .error other =>
      simp only [Except.map, Except.error.injEq] at failed
      rw [failed]
  | .ok none => exact nomatch failed
  | .ok (some rest) => exact nomatch failed

theorem leftOver_spec (wide : ∀ chunk ∈ (size, own) :: chunks, 1 < chunk.1) (positive : 0 < dim) (fits : dim ≤ size) :
    (∀ chunk ∈ leftOver (size / dim) own chunks, 1 < chunk.1) ∧
      (leftOver (size / dim) own chunks).volume = size / dim * chunks.volume := by
  have some : 0 < size / dim := Nat.div_pos fits positive
  unfold leftOver
  split
  · rename_i spent
    rw [spent, Nat.one_mul]
    exact ⟨fun chunk member => wide chunk (List.mem_cons_of_mem _ member), rfl⟩
  · rename_i more
    constructor
    · intro chunk member
      rcases List.mem_cons.mp member with rfl | later
      · show 1 < size / dim
        omega
      · exact wide chunk (List.mem_cons_of_mem _ later)
    · exact Chunks.volume_cons _ _ _

theorem leftOver_volume_le (wide : ∀ chunk ∈ (size, own) :: chunks, 1 < chunk.1) (positive : 0 < dim)
    (fits : dim ≤ size) :
    dim * (leftOver (size / dim) own chunks).volume ≤ Chunks.volume ((size, own) :: chunks) := by
  rw [(leftOver_spec wide positive fits).2, Chunks.volume_cons, ← Nat.mul_assoc]
  exact Nat.mul_le_mul_right _ (Nat.mul_div_le size dim)

theorem drawDims_error {stop : Stop} (positive : ∀ dim ∈ dims, 0 < dim) (wide : ∀ chunk ∈ chunks, 1 < chunk.1)
    (failed : drawDims dims (chunks.map partitionOf) = .error stop) : dims.prod < chunks.volume := by
  induction dims generalizing chunks with
  | nil =>
      cases chunks with
      | nil => exact nomatch failed
      | cons chunk rest =>
          have large := wide chunk List.mem_cons_self
          have some : 0 < Chunks.volume rest :=
            Chunks.volume_pos fun chunk member => Nat.lt_of_succ_lt (wide chunk (List.mem_cons_of_mem _ member))
          -- All dims are drawn and a chunk is left: the assertion.
          rw [List.prod_nil, Chunks.volume_cons]
          exact Nat.lt_of_lt_of_le large (Nat.le_mul_of_pos_right _ some)
  | cons dim dims ih =>
      have rest : ∀ dim ∈ dims, 0 < dim := fun dim member => positive dim (List.mem_cons_of_mem _ member)
      have some : 0 < dim := positive dim List.mem_cons_self
      rw [List.prod_cons]
      by_cases unit : dim = 1
      · rw [unit, drawDims_unit] at failed
        rw [unit, Nat.one_mul]
        exact ih rest wide (addEntry_error failed)
      cases chunks with
      | nil =>
          rw [List.map_nil, drawDims_nil unit] at failed
          exact nomatch failed
      | cons chunk chunks =>
          obtain ⟨size, own⟩ := chunk
          by_cases less : size < dim
          · rw [drawDims_none unit less] at failed
            exact nomatch failed
          have fits : dim ≤ size := Nat.le_of_not_lt less
          rw [drawDims_cons unit fits] at failed
          -- What is left of the chunk counts less, so the bound of the rest carries over.
          have below := ih rest (leftOver_spec wide some fits).1 (addEntry_error failed)
          exact Nat.lt_of_lt_of_le (Nat.mul_lt_mul_of_pos_left below some) (leftOver_volume_le wide some fits)

theorem drawDims_entries (positive : ∀ dim ∈ dims, 0 < dim) {partitions : List VolumePartition}
    (drawn : drawDims dims partitions = .ok (some entries)) :
    entries.map (fun entry => entry.1 * entry.2) = dims ∧
      ∀ entry ∈ entries, 0 < entry.1 ∧ 0 < entry.2 ∧ (entry.1 = 1 ∨ entry.2 = 1) := by
  induction dims generalizing partitions entries with
  | nil =>
      unfold drawDims at drawn
      split at drawn
      · cases drawn
        exact ⟨rfl, by simp⟩
      · exact nomatch drawn
  | cons dim dims ih =>
      have rest : ∀ dim ∈ dims, 0 < dim := fun dim member => positive dim (List.mem_cons_of_mem _ member)
      have some : 0 < dim := positive dim List.mem_cons_self
      -- Every branch that goes on adds an entry whose product is the dim.
      have step (entry : Nat × Nat) (others : List VolumePartition) (product : entry.1 * entry.2 = dim)
          (valid : entry.1 = 1 ∨ entry.2 = 1) (run : addEntry entry (drawDims dims others) = .ok (.some entries)) :
          entries.map (fun entry => entry.1 * entry.2) = dim :: dims ∧
            ∀ entry ∈ entries, 0 < entry.1 ∧ 0 < entry.2 ∧ (entry.1 = 1 ∨ entry.2 = 1) := by
        obtain ⟨later, found, rfl⟩ := addEntry_some run
        obtain ⟨products, valids⟩ := ih rest found
        rw [← product] at some
        exact ⟨by rw [List.map_cons, products, product], List.forall_mem_cons.mpr
          ⟨⟨Nat.pos_of_mul_pos_right some, Nat.pos_of_mul_pos_left some, valid⟩, valids⟩⟩
      by_cases unit : dim = 1
      · rw [unit, drawDims_unit] at drawn
        exact step (1, 1) partitions unit.symm (.inl rfl) drawn
      cases partitions with
      | nil =>
          rw [drawDims_nil unit] at drawn
          exact nomatch drawn
      | cons partition partitions =>
          rw [drawDims, if_neg unit] at drawn
          split at drawn
          · exact nomatch drawn
          · cases kind : partition.isOriginalData with
            | true =>
                rw [kind] at drawn
                exact step (dim, 1) _ (Nat.mul_one dim) (.inr rfl) drawn
            | false =>
                rw [kind] at drawn
                exact step (1, dim) _ (Nat.one_mul dim) (.inl rfl) drawn

theorem entryChunk_drawn (other : dim ≠ 1) (own : Bool) : entryChunk (drawnEntry dim own) = (dim, own) := by
  cases own with
  | true => simp [entryChunk, drawnEntry, chunkOf]
  | false => simp [entryChunk, drawnEntry, chunkOf, other]

theorem drawDims_alike (positive : ∀ dim ∈ dims, 0 < dim) (wide : ∀ chunk ∈ chunks, 1 < chunk.1)
    (drawn : drawDims dims (chunks.map partitionOf) = .ok (some entries)) :
    dims.prod ≤ chunks.volume ∧ (dims.prod = chunks.volume → Chunks.Alike (entries.map entryChunk) chunks) := by
  induction dims generalizing chunks entries with
  | nil =>
      cases chunks with
      | nil =>
          cases drawn
          exact ⟨Nat.le_refl 1, fun _ => .refl []⟩
      | cons chunk rest => exact nomatch drawn
  | cons dim dims ih =>
      have rest : ∀ dim ∈ dims, 0 < dim := fun dim member => positive dim (List.mem_cons_of_mem _ member)
      have some : 0 < dim := positive dim List.mem_cons_self
      rw [List.prod_cons]
      by_cases unit : dim = 1
      · rw [unit, drawDims_unit] at drawn
        obtain ⟨later, found, rfl⟩ := addEntry_some drawn
        obtain ⟨bound, alike⟩ := ih rest wide found
        rw [unit, Nat.one_mul]
        exact ⟨bound, fun equal => (Chunks.Alike.unit true _).trans (alike equal)⟩
      cases chunks with
      | nil =>
          rw [List.map_nil, drawDims_nil unit] at drawn
          exact nomatch drawn
      | cons chunk chunks =>
          obtain ⟨size, own⟩ := chunk
          by_cases less : size < dim
          · rw [drawDims_none unit less] at drawn
            exact nomatch drawn
          have fits : dim ≤ size := Nat.le_of_not_lt less
          rw [drawDims_cons unit fits] at drawn
          obtain ⟨later, found, rfl⟩ := addEntry_some drawn
          obtain ⟨wideLeft, left⟩ := leftOver_spec wide some fits
          obtain ⟨bound, alike⟩ := ih rest wideLeft found
          have total := leftOver_volume_le wide some fits
          have scaledBound := Nat.mul_le_mul_left dim bound
          refine ⟨scaledBound.trans total, fun equal => ?_⟩
          -- Both steps of the bound are equalities, so the division has no remainder.
          have tight : dim * dims.prod = dim * (leftOver (size / dim) own chunks).volume :=
            scaledBound.antisymm (total.trans equal.ge)
          have inner := Nat.eq_of_mul_eq_mul_left some tight
          have volume : 0 < Chunks.volume chunks :=
            Chunks.volume_pos fun chunk member => Nat.lt_of_succ_lt (wide chunk (List.mem_cons_of_mem _ member))
          have divides : dim * (size / dim) = size := by
            rw [tight, left, Chunks.volume_cons, ← Nat.mul_assoc] at equal
            exact Nat.eq_of_mul_eq_mul_right volume equal
          have front : Chunks.Alike ((dim, own) :: leftOver (size / dim) own chunks) ((size, own) :: chunks) := by
            unfold leftOver
            split
            · rename_i spent
              rw [spent, Nat.mul_one] at divides
              rw [divides]
              exact .refl _
            · have fused := Chunks.Alike.fuse dim (size / dim) own chunks
              rwa [divides] at fused
          rw [List.map_cons, entryChunk_drawn unit]
          exact ((alike inner).cons dim own).trans front

theorem drawDims_merge (chunks : Chunks) (positive : ∀ chunk ∈ chunks, 0 < chunk.1) :
    ∃ entries, drawDims (chunks.map Prod.fst) (chunks.merge.map partitionOf) = .ok (some entries) := by
  induction chunks with
  | nil => exact ⟨[], rfl⟩
  | cons chunk chunks ih =>
      obtain ⟨size, own⟩ := chunk
      obtain ⟨entries, drawn⟩ := ih fun chunk member => positive chunk (List.mem_cons_of_mem _ member)
      have some : 0 < size := positive _ List.mem_cons_self
      rw [List.map_cons]
      -- A chunk of one is dropped by the merge, and its dim is one as well.
      by_cases unit : size = 1
      · rw [unit, drawDims_unit, Chunks.merge, if_pos rfl, drawn]
        exact ⟨(1, 1) :: entries, rfl⟩
      rw [Chunks.merge, if_neg unit]
      have wide := (Chunks.merge_canonical fun chunk member =>
          positive chunk (List.mem_cons_of_mem (size, own) member)).1
      -- The chunk in front of the merged ones: it joins the next one where both are of a kind.
      cases merged : Chunks.merge chunks with
      | nil =>
          rw [merged] at drawn
          rw [drawDims_cons unit (Nat.le_refl size), Nat.div_self some, leftOver, if_pos rfl, drawn]
          exact ⟨_ :: entries, rfl⟩
      | cons chunk rest =>
          obtain ⟨next, kind⟩ := chunk
          rw [merged] at drawn wide
          have large : 1 < next := wide _ List.mem_cons_self
          by_cases same : own = kind
          · subst same
            -- The dim draws its part of the joined chunk and leaves the next one.
            have fits : size ≤ size * next := Nat.le_mul_of_pos_right size (Nat.lt_of_succ_lt large)
            simp only [if_true]
            rw [drawDims_cons unit fits, Nat.mul_div_cancel_left next some, leftOver, if_neg large.ne', drawn]
            exact ⟨_ :: entries, rfl⟩
          · simp only [same, if_false]
            rw [drawDims_cons unit (Nat.le_refl size), Nat.div_self some, leftOver, if_pos rfl, drawn]
            exact ⟨_ :: entries, rfl⟩

end Draw

/-- A reshape in front of a broadcast that gives what the reshape after the first one gives, for all contents. -/
structure Moves (α : Type) (originalShape finalShape broadcastDims newShape newDims : List Nat) : Prop where
  broadcasts : Broadcasts newShape newDims
  volume : newShape.prod = originalShape.prod
  shape : scaled newShape newDims = finalShape
  commutes : Commutes α originalShape broadcastDims finalShape newShape newDims

section Answer
variable {α : Type} {originalShape finalShape broadcastDims newShape newDims : List Nat} {entries : List (Nat × Nat)}

theorem broadcasts_of_entries (valid : ∀ entry ∈ entries, 0 < entry.1 ∧ 0 < entry.2 ∧ (entry.1 = 1 ∨ entry.2 = 1)) :
    Broadcasts (entries.map Prod.fst) (entries.map Prod.snd) := by
  induction entries with
  | nil => exact List.Forall₂.nil
  | cons entry entries ih =>
      obtain ⟨here, later⟩ := List.forall_mem_cons.mp valid
      exact List.Forall₂.cons here (ih later)

theorem zipWith_entries {β : Type} (f : Nat → Nat → β) (entries : List (Nat × Nat)) :
    List.zipWith f (entries.map Prod.fst) (entries.map Prod.snd) = entries.map fun entry => f entry.1 entry.2 := by
  rw [List.zipWith_map_left, List.zipWith_map_right, List.zipWith_self]

theorem getNewReshapeAndBroadcastDims_eq (broadcasts : Broadcasts originalShape broadcastDims)
    (repeats : ∃ count ∈ broadcastDims, count ≠ 1) :
    getNewReshapeAndBroadcastDims originalShape finalShape broadcastDims =
      (drawDims finalShape.reverse ((parts originalShape broadcastDims).merge.map partitionOf)).map fun drawn =>
        drawn.map fun entries => (entries.reverse.map Prod.fst, entries.reverse.map Prod.snd) := by
  unfold getNewReshapeAndBroadcastDims
  rw [addDims_broadcast broadcasts (merge_ne_nil broadcasts repeats)]
  simp only [List.reverse_reverse]

theorem finalDims_positive (broadcasts : Broadcasts originalShape broadcastDims)
    (volume : finalShape.prod = (scaled originalShape broadcastDims).prod) : ∀ dim ∈ finalShape.reverse, 0 < dim := by
  intro dim member
  have total := Chunks.volume_pos (parts_positive broadcasts)
  rw [parts_volume, ← volume] at total
  exact List.prod_pos_iff_forall_pos_nat.mp total dim (List.mem_reverse.mp member)

theorem moves_of_drawn (broadcasts : Broadcasts originalShape broadcastDims)
    (volume : finalShape.prod = (scaled originalShape broadcastDims).prod)
    (drawn : drawDims finalShape.reverse ((parts originalShape broadcastDims).merge.map partitionOf) =
      .ok (some entries)) :
    Moves α originalShape finalShape broadcastDims (entries.reverse.map Prod.fst) (entries.reverse.map Prod.snd) := by
  have positive := finalDims_positive broadcasts volume
  have merged := Chunks.merge_alike (parts originalShape broadcastDims)
  have wide := (Chunks.merge_canonical (parts_positive broadcasts)).1
  obtain ⟨products, valid⟩ := drawDims_entries positive drawn
  have total : finalShape.reverse.prod = (parts originalShape broadcastDims).merge.volume := by
    rw [List.prod_reverse, volume, merged.volume, parts_volume]
  have alike := ((drawDims_alike positive wide drawn).2 total).trans merged
  have chunks : parts (entries.reverse.map Prod.fst) (entries.reverse.map Prod.snd) = entries.map entryChunk := by
    unfold parts
    rw [zipWith_entries, List.map_reverse, List.reverse_reverse]
    rfl
  have moved : Broadcasts (entries.reverse.map Prod.fst) (entries.reverse.map Prod.snd) :=
    broadcasts_of_entries fun entry member => valid entry (List.mem_reverse.mp member)
  have shape : scaled (entries.reverse.map Prod.fst) (entries.reverse.map Prod.snd) = finalShape := by
    unfold scaled
    rw [zipWith_entries, List.map_reverse, products, List.reverse_reverse]
  rw [← chunks] at alike
  refine ⟨moved, ?_, shape, ?_⟩
  · rw [← parts_ownVolume moved, alike.own, parts_ownVolume broadcasts]
  · have commutes := commutes_of_source broadcasts moved (shape ▸ volume) alike.source (α := α)
    rwa [shape] at commutes

theorem drawn_of_moves [Nontrivial α] (broadcasts : Broadcasts originalShape broadcastDims)
    (volume : finalShape.prod = (scaled originalShape broadcastDims).prod)
    (moves : Moves α originalShape finalShape broadcastDims newShape newDims) :
    ∃ entries, drawDims finalShape.reverse ((parts originalShape broadcastDims).merge.map partitionOf) =
      .ok (some entries) := by
  obtain ⟨moved, own, rfl, commutes⟩ := moves
  have same := source_of_commutes broadcasts moved own volume commutes
  have newMerged := Chunks.merge_alike (parts newShape newDims)
  have merged := Chunks.merge_alike (parts originalShape broadcastDims)
  have equal : (parts newShape newDims).merge = (parts originalShape broadcastDims).merge := by
    apply Chunks.Canonical.unique
    · exact Chunks.merge_canonical (parts_positive moved)
    · exact Chunks.merge_canonical (parts_positive broadcasts)
    · rw [newMerged.volume, merged.volume, parts_volume, parts_volume, volume]
    · intro flat below
      rw [newMerged.volume, parts_volume] at below
      rw [newMerged.source, merged.source]
      exact same flat below
  have dims : (scaled newShape newDims).reverse = (parts newShape newDims).map Prod.fst := by
    unfold parts scaled
    rw [List.map_reverse, List.map_zipWith]
    rfl
  rw [← equal, dims]
  exact drawDims_merge (parts newShape newDims) (parts_positive moved)

theorem drawDims_ne_error {stop : Stop} (broadcasts : Broadcasts originalShape broadcastDims)
    (volume : finalShape.prod = (scaled originalShape broadcastDims).prod) :
    drawDims finalShape.reverse ((parts originalShape broadcastDims).merge.map partitionOf) ≠ .error stop := by
  intro failed
  have positive := finalDims_positive broadcasts volume
  have less := drawDims_error positive (Chunks.merge_canonical (parts_positive broadcasts)).1 failed
  rw [List.prod_reverse, volume, (Chunks.merge_alike _).volume, parts_volume] at less
  exact Nat.lt_irrefl _ less

/-- The scan ends without an assertion. What it answers moves the reshape, and where it answers none nothing does. -/
theorem getNewReshapeAndBroadcastDims_spec [Nontrivial α] (originalShape finalShape broadcastDims : List Nat)
    (broadcasts : Broadcasts originalShape broadcastDims) (repeats : ∃ count ∈ broadcastDims, count ≠ 1)
    (volume : finalShape.prod = (scaled originalShape broadcastDims).prod) :
    ∃ answer, getNewReshapeAndBroadcastDims originalShape finalShape broadcastDims = .ok answer ∧
      (∀ new ∈ answer, Moves α originalShape finalShape broadcastDims new.1 new.2) ∧
        (answer = none → ∀ newShape newDims, ¬ Moves α originalShape finalShape broadcastDims newShape newDims) := by
  rw [getNewReshapeAndBroadcastDims_eq broadcasts repeats]
  cases drawn : drawDims finalShape.reverse ((parts originalShape broadcastDims).merge.map partitionOf) with
  | error stop => exact absurd drawn (drawDims_ne_error broadcasts volume)
  | ok answer =>
      cases answer with
      | none =>
          refine ⟨none, rfl, ?_, ?_⟩
          · intro new found
            exact nomatch found
          · intro _ newShape newDims moves
            obtain ⟨entries, found⟩ := drawn_of_moves broadcasts volume moves
            rw [drawn] at found
            exact nomatch found
      | some entries =>
          refine ⟨_, rfl, ?_, ?_⟩
          · rintro new ⟨⟩
            exact moves_of_drawn broadcasts volume drawn
          · intro absent
            exact nomatch absent

/-- A row of two, repeated three times, is split in the repeated dim. -/
theorem repeated_row_moves :
    ∃ answer, getNewReshapeAndBroadcastDims [1, 2] [3, 2, 1] [3, 1] = .ok answer ∧
      (∀ new ∈ answer, Moves Bool [1, 2] [3, 2, 1] [3, 1] new.1 new.2) ∧
        (answer = none → ∀ newShape newDims, ¬ Moves Bool [1, 2] [3, 2, 1] [3, 1] newShape newDims) :=
  getNewReshapeAndBroadcastDims_spec [1, 2] [3, 2, 1] [3, 1]
    (.cons (by decide) (.cons (by decide) .nil)) ⟨3, by decide⟩ (by decide)

example : getNewReshapeAndBroadcastDims [2, 1, 1, 64] [2, 8, 4, 2, 16, 8, 8] [1, 32, 32, 1] =
    .ok (some ([2, 1, 1, 1, 1, 8, 8], [1, 8, 4, 2, 16, 1, 1])) := by decide

end Answer

end TtMlir.Ttir.BroadcastReshape
