import TtMlir.Ttir.ReduceCommute

/-!
Permutes through reductions: what the permuted, contracted and expanded
permutations are, and that a reduction commutes with them unless it is an argmax
whose reduced dims change places.
-/

namespace TtMlir.Ttir.ReduceCommute

open Tensor

section Values

theorem max?_perm {K : Type} [LinearOrder K] {left right : List K} (same : left.Perm right) :
    left.max? = right.max? := by
  cases largest : right.max? with
  | none =>
      rw [List.max?_eq_none_iff] at largest ⊢
      rw [largest] at same
      exact same.eq_nil
  | some value =>
      rw [List.max?_eq_some_iff] at largest ⊢
      exact ⟨same.mem_iff.mpr largest.1, fun other member => largest.2 other (same.mem_iff.mp member)⟩

theorem min?_perm {K : Type} [LinearOrder K] {left right : List K} (same : left.Perm right) :
    left.min? = right.min? := by
  cases smallest : right.min? with
  | none =>
      rw [List.min?_eq_none_iff] at smallest ⊢
      rw [smallest] at same
      exact same.eq_nil
  | some value =>
      rw [List.min?_eq_some_iff] at smallest ⊢
      exact ⟨same.mem_iff.mpr smallest.1, fun other member => smallest.2 other (same.mem_iff.mp member)⟩

theorem eval_symmetric {K : Type} [Field K] [LinearOrder K] {op : ReduceOp} (other : op ≠ .argMax)
    (left right : List K) (same : left.Perm right) :
    op.eval left = op.eval right := by
  cases op with
  | sum => exact same.sum_eq
  | mean => simp only [ReduceOp.eval, same.sum_eq, same.length_eq]
  | max => simp only [ReduceOp.eval, max?_perm same]
  | min => simp only [ReduceOp.eval, min?_perm same]
  | prod => exact same.prod_eq
  | reduceAnd => simp only [ReduceOp.eval, same.all_eq]
  | reduceOr => simp only [ReduceOp.eval, same.any_eq]
  | argMax => exact absurd rfl other

end Values

section Dims

def maskOf (rank : Nat) (dims : List Nat) : List Bool := (List.range rank).map fun dim => decide (dim ∈ dims)

@[simp] theorem maskOf_length (rank : Nat) (dims : List Nat) : (maskOf rank dims).length = rank := by
  simp [maskOf]

theorem maskOf_getD (rank : Nat) (dims : List Nat) (dim : Nat) (known : dim < rank) :
    (maskOf rank dims).getD dim false = decide (dim ∈ dims) := by
  simp [maskOf, List.getD_eq_getElem?_getD, known]

def InRange (rank : Nat) (dimArg : Option (List Int)) : Prop :=
  ∀ dims, dimArg = some dims → ∀ dim ∈ dims, -(rank : Int) ≤ dim ∧ dim < rank

theorem inRange_of_verified {rank : Nat} {dimArg : Option (List Int)} (verified : verifyReduceOp rank dimArg = true) :
    InRange rank dimArg := by
  rintro dims rfl dim member
  simp only [verifyReduceOp, Bool.and_eq_true, List.all_eq_true, decide_eq_true_eq] at verified
  exact verified.1 dim member

theorem normalized_range {rank : Nat} {dim : Int} (bounds : -(rank : Int) ≤ dim ∧ dim < rank) :
    0 ≤ normalized rank dim ∧ normalized rank dim < rank := by
  unfold normalized
  split <;> omega

theorem normalized_natural (rank dim : Nat) : (normalized rank dim).toNat = dim := by
  rw [normalized, if_neg (by omega), Int.toNat_natCast]

theorem getReduceDimValues_lt {rank : Nat} {dimArg : Option (List Int)} (inRange : InRange rank dimArg) :
    ∀ dim ∈ getReduceDimValues rank dimArg, dim < rank := by
  intro dim member
  cases dimArg with
  | none => exact List.mem_range.mp member
  | some dims =>
      obtain ⟨listed, inDims, rfl⟩ := List.mem_map.mp member
      have := normalized_range (inRange dims rfl listed inDims)
      omega

theorem reduceDimsMask_eq {rank : Nat} {dimArg : Option (List Int)} (inRange : InRange rank dimArg) :
    reduceDimsMask rank dimArg = maskOf rank (getReduceDimValues rank dimArg) := by
  unfold reduceDimsMask maskOf
  refine List.map_congr_left fun index member => ?_
  have known := List.mem_range.mp member
  cases dimArg with
  | none => simp [getReduceDimValues, known]
  | some dims =>
      have listed : index ∈ getReduceDimValues rank (some dims) ↔ ∃ d ∈ dims, (normalized rank d).toNat = index :=
        List.mem_map
      rw [Bool.eq_iff_iff, List.any_eq_true, decide_eq_true_iff, listed]
      refine exists_congr fun dim => and_congr_right fun inDims => ?_
      have bounds := inRange dims rfl dim inDims
      have wrapped : (dim + rank) % rank = normalized rank dim := by
        unfold normalized
        split
        · exact Int.emod_eq_of_lt (by omega) (by omega)
        · rw [Int.add_emod_right]
          exact Int.emod_eq_of_lt (by omega) (by omega)
      have range := normalized_range bounds
      rw [decide_eq_true_eq, wrapped]
      omega

def survivors (rank : Nat) (dims : List Nat) : List Nat := (List.range rank).filter fun dim => decide (dim ∉ dims)

theorem keptDims_maskOf (rank : Nat) (dims : List Nat) : keptDims (maskOf rank dims) = survivors rank dims := by
  unfold keptDims survivors
  rw [maskOf_length]
  refine List.filter_congr fun dim member => ?_
  rw [maskOf_getD rank dims dim (List.mem_range.mp member), decide_not]

theorem mem_survivors {rank : Nat} {dims : List Nat} {dim : Nat} : dim ∈ survivors rank dims ↔ dim < rank ∧
    dim ∉ dims := by
  unfold survivors
  rw [List.mem_filter, List.mem_range, decide_eq_true_eq]

theorem survivors_nodup (rank : Nat) (dims : List Nat) : (survivors rank dims).Nodup := List.nodup_range.filter _

theorem getReduceDimValues_natural (rank : Nat) (dims : List Nat) :
    getReduceDimValues rank (some (dims.map fun d : Nat => (d : Int))) = dims := by
  simp only [getReduceDimValues, List.map_map]
  conv_rhs => rw [← List.map_id dims]
  exact List.map_congr_left fun dim _ => normalized_natural rank dim

theorem permuteDims_eq (dimArg : Option (List Int)) (permutation : List Nat) :
    permuteDims dimArg permutation =
      (gather permutation (getReduceDimValues permutation.length dimArg)).map fun d : Nat => (d : Int) := by
  unfold permuteDims gather getReduceDimValues
  cases dimArg with
  | none =>
      simp only [Option.getD_none, List.map_map]
      refine List.map_congr_left fun dim _ => ?_
      simp only [Function.comp_apply, normalized_natural]
  | some dims =>
      simp only [Option.getD_some, List.map_map]
      rfl

end Dims

section Permutations

theorem survivors_getD (rank : Nat) (dims : List Nat) (dim : Nat) (survives : dim ∈ survivors rank dims) :
    (survivors rank dims).getD (survivors dim dims).length 0 = dim ∧
      (survivors dim dims).length < (survivors rank dims).length := by
  obtain ⟨known, kept⟩ := mem_survivors.mp survives
  obtain ⟨rest, rfl⟩ : ∃ rest, rank = dim + (rest + 1) := ⟨rank - dim - 1, by omega⟩
  have split : survivors (dim + (rest + 1)) dims = survivors dim dims ++
      dim :: (((List.range rest).map Nat.succ).map (dim + ·)).filter fun other => decide (other ∉ dims) := by
    unfold survivors
    rw [List.range_add, List.filter_append, List.range_succ_eq_map, List.map_cons, List.filter_cons,
      if_pos (by simpa using kept), Nat.add_zero]
  rw [split]
  constructor
  · exact getD_middle _ _ _
  · simp

theorem Permutes.of_gather {values axes : List Nat} (length : axes.length = values.length)
    (below : ∀ axis ∈ axes, axis < values.length) (nodup : (gather values axes).Nodup) :
    Permutes values.length axes :=
  (List.subperm_of_subset (List.Nodup.of_map _ nodup) fun axis member =>
    List.mem_range.mpr (below axis member)).perm_of_length_le (by rw [List.length_range, length])

variable {n : Nat} {permutation : List Nat} (permutes : Permutes n permutation)
include permutes

theorem contractPermutation_eq (removed : List Nat) : contractPermutation permutation removed =
    (survivors n removed).map fun i => (survivors (permutation.getD i 0) (gather permutation removed)).length := by
  unfold contractPermutation
  simp only [permutes.length]
  refine List.map_congr_left fun i member => ?_
  have known := permutes.getD_lt i (mem_survivors.mp member).1
  rw [List.getD_eq_getElem _ _ (by simpa using known), List.getElem_map, List.getElem_range]
  rfl

theorem mem_gather {dims : List Nat} (inRange : ∀ dim ∈ dims, dim < n) (position : Nat) (known : position < n) :
    permutation.getD position 0 ∈ gather permutation dims ↔ position ∈ dims := by
  unfold gather
  rw [List.mem_map]
  constructor
  · rintro ⟨dim, member, same⟩
    rwa [← permutes.getD_injective dim position (inRange dim member) known same]
  · intro member
    exact ⟨position, member, rfl⟩

theorem getD_mem_survivors {dims : List Nat} (inRange : ∀ dim ∈ dims, dim < n) {position : Nat}
    (survives : position ∈ survivors n dims) :
    permutation.getD position 0 ∈ survivors n (gather permutation dims) := by
  obtain ⟨known, kept⟩ := mem_survivors.mp survives
  exact mem_survivors.mpr ⟨permutes.getD_lt position known, fun member =>
    kept ((mem_gather permutes inRange position known).mp member)⟩

theorem gather_survivors_perm {dims : List Nat} (inRange : ∀ dim ∈ dims, dim < n) :
    (gather permutation (survivors n dims)).Perm (survivors n (gather permutation dims)) := by
  have nodup : (gather permutation (survivors n dims)).Nodup := by
    refine List.Nodup.map_on ?_ (survivors_nodup n dims)
    intro left leftMember right rightMember same
    exact permutes.getD_injective left right (mem_survivors.mp leftMember).1 (mem_survivors.mp rightMember).1 same
  rw [List.perm_ext_iff_of_nodup nodup (survivors_nodup _ _)]
  intro value
  constructor
  · intro member
    obtain ⟨position, survives, rfl⟩ := List.mem_map.mp member
    exact getD_mem_survivors permutes inRange survives
  · intro member
    obtain ⟨known, kept⟩ := mem_survivors.mp member
    have place := permutes.getD_idxOf value known
    refine List.mem_map.mpr ⟨permutation.idxOf value, mem_survivors.mpr ⟨permutes.idxOf_lt value known, ?_⟩, place⟩
    intro removed
    have present := (mem_gather permutes inRange _ (permutes.idxOf_lt value known)).mpr removed
    rw [place] at present
    exact kept present

theorem keptBy_contract {shape : List Nat} (rank : shape.length = n) {removed : List Nat}
    (inRange : ∀ dim ∈ removed, dim < n) :
    KeptBy shape permutation (survivors n (gather permutation removed)) (survivors n removed)
      (contractPermutation permutation removed) := by
  have same : gather (survivors n (gather permutation removed)) (contractPermutation permutation removed) =
      gather permutation (survivors n removed) := by
    rw [contractPermutation_eq permutes]
    unfold gather
    rw [List.map_map]
    refine List.map_congr_left fun position survives => ?_
    exact (survivors_getD n _ _ (getD_mem_survivors permutes inRange survives)).1
  have sizes := (gather_survivors_perm permutes inRange)
  constructor
  · rwa [rank]
  · refine Permutes.of_gather ?_ ?_ ?_
    · rw [← gather_length (survivors n (gather permutation removed)), same]
      exact sizes.length_eq
    · intro axis member
      rw [contractPermutation_eq permutes] at member
      obtain ⟨position, survives, rfl⟩ := List.mem_map.mp member
      exact (survivors_getD n _ _ (getD_mem_survivors permutes inRange survives)).2
    · rw [same]
      exact sizes.nodup_iff.mpr (survivors_nodup _ _)
  · rw [rank]
    exact fun axis member => (mem_survivors.mp member).1
  · rw [rank]
    exact fun axis member => (mem_survivors.mp member).1
  · exact same

end Permutations

section Expand

variable {n : Nat} {small dims : List Nat} (inRange : ∀ dim ∈ dims, dim < n)
  (permutes : Permutes (survivors n dims).length small)

theorem expandPermutation_length (small dims : List Nat) (n : Nat) : (expandPermutation small dims n).length = n := by
  simp [expandPermutation]

theorem expandPermutation_getD (small dims : List Nat) (n position : Nat) (known : position < n) :
    (expandPermutation small dims n).getD position 0 = if position ∈ dims then position else
      (survivors n dims).getD (small.getD ((survivors n dims).idxOf position) 0) 0 := by
  unfold expandPermutation
  rw [List.getD_eq_getElem _ _ (by simpa using known), List.getElem_map, List.getElem_range]
  rfl

include permutes in
theorem expandPermutation_survivor {position : Nat} (survives : position ∈ survivors n dims) :
    (survivors n dims).getD (small.getD ((survivors n dims).idxOf position) 0) 0 ∈ survivors n dims := by
  have place : (survivors n dims).idxOf position < (survivors n dims).length := List.idxOf_lt_length_of_mem survives
  have target := permutes.getD_lt _ place
  rw [List.getD_eq_getElem _ _ target]
  exact List.getElem_mem target

include permutes in
theorem expandPermutation_permutes : Permutes n (expandPermutation small dims n) := by
  have nodup := survivors_nodup n dims
  refine Permutes.of_injective (expandPermutation_length small dims n) ?_ ?_
  · intro position known
    rw [expandPermutation_getD small dims n position known]
    split
    · exact known
    · rename_i kept
      exact (mem_survivors.mp (expandPermutation_survivor permutes (mem_survivors.mpr ⟨known, kept⟩))).1
  · intro left leftKnown right rightKnown same
    rw [expandPermutation_getD small dims n left leftKnown, expandPermutation_getD small dims n right rightKnown]
      at same
    by_cases leftIn : left ∈ dims <;> by_cases rightIn : right ∈ dims
    · rwa [if_pos leftIn, if_pos rightIn] at same
    · rw [if_pos leftIn, if_neg rightIn] at same
      have := expandPermutation_survivor permutes (mem_survivors.mpr ⟨rightKnown, rightIn⟩)
      rw [← same] at this
      exact absurd leftIn (mem_survivors.mp this).2
    · rw [if_neg leftIn, if_pos rightIn] at same
      have := expandPermutation_survivor permutes (mem_survivors.mpr ⟨leftKnown, leftIn⟩)
      rw [same] at this
      exact absurd rightIn (mem_survivors.mp this).2
    · rw [if_neg leftIn, if_neg rightIn] at same
      have leftMember := mem_survivors.mpr ⟨leftKnown, leftIn⟩
      have rightMember := mem_survivors.mpr ⟨rightKnown, rightIn⟩
      have leftPlace := List.idxOf_lt_length_of_mem leftMember
      have rightPlace := List.idxOf_lt_length_of_mem rightMember
      rw [List.getD_eq_getElem _ _ (permutes.getD_lt _ leftPlace),
        List.getD_eq_getElem _ _ (permutes.getD_lt _ rightPlace), nodup.getElem_inj_iff] at same
      have places := permutes.getD_injective _ _ leftPlace rightPlace same
      rw [← List.getElem_idxOf leftPlace, ← List.getElem_idxOf rightPlace]
      simp only [places]

include permutes in
/-- The expanded permutation moves the survivors as the small one does, and nothing else. -/
theorem keptBy_expand {shape : List Nat} (rank : shape.length = n) :
    KeptBy shape (expandPermutation small dims n) (survivors n dims) (survivors n dims) small := by
  constructor
  · rw [rank]
    exact expandPermutation_permutes permutes
  · exact permutes
  · rw [rank]
    exact fun axis member => (mem_survivors.mp member).1
  · rw [rank]
    exact fun axis member => (mem_survivors.mp member).1
  · apply ext_getD 0
    · rw [gather_length, gather_length, permutes.length]
    · intro place inside
      rw [gather_length, permutes.length] at inside
      rw [gather_getD _ _ _ (by rwa [permutes.length]), gather_getD _ _ _ inside]
      have member : (survivors n dims).getD place 0 ∈ survivors n dims := by
        rw [List.getD_eq_getElem _ _ inside]
        exact List.getElem_mem inside
      rw [expandPermutation_getD _ _ _ _ (mem_survivors.mp member).1, if_neg (mem_survivors.mp member).2,
        List.getD_eq_getElem (survivors n dims) _ inside, (survivors_nodup n dims).idxOf_getElem place inside]

include inRange permutes in
theorem gather_inverse_expand : gather (inverse (expandPermutation small dims n)) dims = dims := by
  have whole := expandPermutation_permutes permutes
  unfold gather
  conv_rhs => rw [← List.map_id dims]
  refine List.map_congr_left fun dim member => ?_
  have known := inRange dim member
  have fixed : (expandPermutation small dims n).getD dim 0 = dim := by
    rw [expandPermutation_getD small dims n dim known, if_pos member]
  rw [inverse_getD whole dim known]
  conv_lhs => rw [← fixed]
  exact whole.idxOf_getD dim known

end Expand

section Run

theorem withUnits_permute {α : Type} {shape permutation chosen dims dims' : List Nat} (left right : Tensor α)
    (keeps : KeptBy shape permutation (survivors shape.length dims) (survivors shape.length dims') chosen)
    (marks : ∀ position < shape.length, position ∈ dims' ↔ permutation.getD position 0 ∈ dims)
    (rightShape : right.shape = gather shape (survivors shape.length dims))
    (same : Same left (right.permute chosen)) :
    Same (left.withUnits (maskOf shape.length dims') (gather shape permutation))
      ((right.withUnits (maskOf shape.length dims) shape).permute permutation) := by
  have permutes := keeps.permutes
  have rank : (gather shape permutation).length = shape.length := by rw [gather_length, permutes.length]
  have units : (unitsAt (maskOf shape.length dims) shape).length = shape.length := unitsAt_length (maskOf_length _ _)
  have sizes : (maskOf shape.length dims').length = (gather shape permutation).length := by rw [maskOf_length, rank]
  have shapes : unitsAt (maskOf shape.length dims') (gather shape permutation) =
      gather (unitsAt (maskOf shape.length dims) shape) permutation := by
    apply ext_getD 0
    · rw [unitsAt_length sizes, gather_length, gather_length]
    · intro position inside
      rw [unitsAt_length sizes, rank] at inside
      have moved := permutes.getD_lt position inside
      have inAxes : position < permutation.length := by rwa [permutes.length]
      rw [unitsAt_getD sizes position (by rwa [rank]), maskOf_getD _ _ _ inside, gather_getD _ _ _ inAxes,
        gather_getD _ _ _ inAxes, unitsAt_getD (maskOf_length _ _) _ moved, maskOf_getD _ _ _ moved]
      simp only [marks position inside]
  constructor
  · exact shapes
  · intro index inside
    change Inside (unitsAt (maskOf shape.length dims') (gather shape permutation)) index at inside
    have length : index.length = shape.length := by rw [inside.length, unitsAt_length sizes, rank]
    have back := gather_forth permutes length
    have keptLength : ∀ values : List Nat, values.length = shape.length → ∀ dims : List Nat,
        unmasked (maskOf shape.length dims) values = gather values (survivors shape.length dims) := by
      intro values size dims
      rw [← gather_keptDims _ _ (by rw [maskOf_length, size]), keptDims_maskOf]
    have within := inside.unmasked (maskOf shape.length dims')
    rw [unmasked_unitsAt sizes, keptLength _ rank, keeps.gather_kept, ← rightShape] at within
    have leftInside : Inside left.shape (unmasked (maskOf shape.length dims') index) := by
      rw [same.1]
      exact within
    change left.get (unmasked (maskOf shape.length dims') index) =
      right.get (unmasked (maskOf shape.length dims) (gather index (inverse permutation)))
    rw [same.2 _ leftInside, keptLength _ length, keptLength _ (by rw [gather_length, inverse_length, permutes.length])]
    have moved := keeps.gather_kept (gather index (inverse permutation))
    rw [back] at moved
    change right.get (gather (gather index (survivors shape.length dims')) (inverse chosen)) = _
    rw [moved, gather_back keeps.order (gather_length _ _)]

structure Moves (shape permutation dims dims' chosen : List Nat) : Prop where
  keeps : KeptBy shape permutation (survivors shape.length dims) (survivors shape.length dims') chosen
  marks : ∀ position < shape.length, position ∈ dims' ↔ permutation.getD position 0 ∈ dims

variable {K : Type} [Field K] [LinearOrder K]

theorem run_permute_iff (attrs attrs' : Reduce) {permutation dims dims' chosen : List Nat} (tensor : Tensor K)
    (moves : Moves tensor.shape permutation dims dims' chosen)
    (op : attrs'.op = attrs.op) (keepDim : attrs'.keepDim = attrs.keepDim)
    (mask : reduceDimsMask tensor.shape.length attrs.dimArg = maskOf tensor.shape.length dims)
    (mask' : reduceDimsMask tensor.shape.length attrs'.dimArg = maskOf tensor.shape.length dims') :
    Same (attrs'.run (tensor.permute permutation))
        ((attrs.run tensor).permute (if attrs.keepDim then permutation else chosen)) ↔
      Same ((tensor.permute permutation).reduce attrs.op.eval (survivors tensor.shape.length dims'))
        ((tensor.reduce attrs.op.eval (survivors tensor.shape.length dims)).permute chosen) := by
  have keeps := moves.keeps
  have rank : (gather tensor.shape permutation).length = tensor.shape.length := by
    rw [gather_length, keeps.permutes.length]
  have left : attrs'.run (tensor.permute permutation) =
      if attrs.keepDim then ((tensor.permute permutation).reduce attrs.op.eval
        (survivors tensor.shape.length dims')).withUnits (maskOf tensor.shape.length dims') (gather tensor.shape permutation)
      else (tensor.permute permutation).reduce attrs.op.eval (survivors tensor.shape.length dims') := by
    have rankMoved : (tensor.permute permutation).shape.length = tensor.shape.length := rank
    simp only [Reduce.run, op, keepDim, rankMoved, mask', keptDims_maskOf]
    rfl
  have right : attrs.run tensor =
      if attrs.keepDim then (tensor.reduce attrs.op.eval (survivors tensor.shape.length dims)).withUnits
        (maskOf tensor.shape.length dims) tensor.shape
      else tensor.reduce attrs.op.eval (survivors tensor.shape.length dims) := by
    simp only [Reduce.run, mask, keptDims_maskOf]
  rw [left, right]
  cases attrs.keepDim with
  | false => exact Iff.rfl
  | true =>
      have sizes : (maskOf tensor.shape.length dims').length = (gather tensor.shape permutation).length := by
        rw [maskOf_length, rank]
      let reduced := tensor.reduce attrs.op.eval (survivors tensor.shape.length dims)
      let moved := (tensor.permute permutation).reduce attrs.op.eval (survivors tensor.shape.length dims')
      have units := withUnits_permute (reduced.permute chosen) reduced keeps moves.marks rfl (Same.refl _)
      have keptShape : gather (gather tensor.shape permutation) (survivors tensor.shape.length dims') =
          unmasked (maskOf tensor.shape.length dims') (gather tensor.shape permutation) := by
        rw [← gather_keptDims _ _ sizes, keptDims_maskOf]
      have same := withUnits_same_iff moved (reduced.permute chosen) sizes keptShape
        ((keeps.gather_kept tensor.shape).symm.trans keptShape)
      rw [← same]
      constructor
      · exact fun given => given.trans units.symm
      · exact fun given => given.trans units

/-- Reductions commute with a permutation on all contents, unless an argmax sees its dims change places. -/
theorem reduce_permute_iff [IsStrictOrderedRing K] {shape permutation dims dims' chosen : List Nat} (op : ReduceOp)
    (moves : Moves shape permutation dims dims' chosen) :
    (∀ tensor : Tensor K, tensor.shape = shape →
      Same ((tensor.permute permutation).reduce op.eval (survivors shape.length dims'))
        ((tensor.reduce op.eval (survivors shape.length dims)).permute chosen)) ↔
      (op = .argMax → 0 ∈ shape ∨ KeepsOrder shape permutation (survivors shape.length dims')) := by
  constructor
  · rintro same rfl
    by_contra neither
    push Not at neither
    obtain ⟨positive, disordered⟩ := neither
    have extents : ∀ extent ∈ shape, 0 < extent := by
      intro extent member
      exact Nat.pos_of_ne_zero fun zero => positive (zero ▸ member)
    have different := moves.keeps.fiber_ne extents disordered
    have perm := moves.keeps.fiber_perm (List.replicate (survivors shape.length dims).length 0) List.length_replicate
    obtain ⟨index, apart⟩ := exists_firstMax_ne (zero_lt_one' K) perm (fiber_nodup _ _ _) different
    let tensor : Tensor K := { shape := shape, get := fun other => if other = index then 1 else 0 }
    let zeros := List.replicate (survivors shape.length dims).length 0
    have keeps := moves.keeps
    have inside : Inside (gather shape (survivors shape.length dims)) zeros := by
      have positions : ∀ extent ∈ gather shape (survivors shape.length dims), 0 < extent := by
        intro extent member
        obtain ⟨axis, survives, rfl⟩ := List.mem_map.mp member
        have known := keeps.below axis survives
        rw [List.getD_eq_getElem _ _ known]
        exact extents _ (List.getElem_mem known)
      have whole := replicate_inside _ positions
      rwa [gather_length] at whole
    have moved : Inside ((tensor.permute permutation).reduce ReduceOp.argMax.eval
        (survivors shape.length dims')).shape (gather zeros chosen) := by
      have shapes := keeps.gather_kept shape
      change Inside (gather (gather shape permutation) (survivors shape.length dims')) _
      rw [shapes]
      refine inside.gather chosen fun axis member => ?_
      rw [gather_length]
      exact (keeps.order.mem axis).mp member
    have here := (same tensor rfl).2 _ moved
    apply apart
    have casts : ((firstMax (((fiber (gather shape permutation) (survivors shape.length dims')
        (gather zeros chosen)).map
        fun index => gather index (inverse permutation)).map tensor.get) : Nat) : K) =
        (firstMax ((fiber shape (survivors shape.length dims) zeros).map tensor.get) : Nat) := by
      change ReduceOp.argMax.eval ((fiber (gather shape permutation) (survivors shape.length dims')
        (gather zeros chosen)).map (tensor.permute permutation).get) = ReduceOp.argMax.eval ((fiber shape
        (survivors shape.length dims) (gather (gather zeros chosen) (inverse chosen))).map tensor.get) at here
      rw [gather_back keeps.order List.length_replicate] at here
      rw [List.map_map]
      exact here
    exact Nat.cast_injective casts
  · rintro allowed tensor rfl
    by_cases isArgMax : op = .argMax
    · rcases allowed isArgMax with empty | ordered
      · exact reduce_permute_empty moves.keeps _ empty
      · exact reduce_permute_ordered moves.keeps _ ordered
    · exact reduce_permute_symmetric moves.keeps _ (eval_symmetric isArgMax)

end Run

section Preservation

variable {K : Type} [Field K] [LinearOrder K]

theorem run_shape {op : Op} {shape out : List Nat} (verified : op.resultShape shape = some out) (tensor : Tensor K)
    (here : tensor.shape = shape) : (op.run tensor).shape = out := by
  subst here
  match op with
  | .tm (.permute permutation) =>
      obtain ⟨_, same⟩ := Option.ite_none_right_eq_some.mp verified
      exact Option.some.inj same
  | .tm (.reshape target) =>
      obtain ⟨_, same⟩ := Option.ite_none_right_eq_some.mp verified
      exact Option.some.inj same
  | .reduce attrs =>
      obtain ⟨_, same⟩ := Option.ite_none_right_eq_some.mp verified
      rw [← Option.some.inj same]
      have sizes : (reduceDimsMask tensor.shape.length attrs.dimArg).length = tensor.shape.length := by
        simp [reduceDimsMask]
      simp only [Op.run, Reduce.run, expectedOutputShape]
      split
      · rfl
      · exact gather_keptDims _ _ sizes

theorem resultShape_eq {first second first' second' : Op} {shape middle middle' out out' : List Nat}
    (left : first.resultShape shape = some middle) (leftOut : second.resultShape middle = some out)
    (right : first'.resultShape shape = some middle') (rightOut : second'.resultShape middle' = some out')
    (tensor : Tensor K) (here : tensor.shape = shape)
    (same : Same (run [first, second] tensor) (run [first', second'] tensor)) :
    resultShape [first, second] shape = resultShape [first', second'] shape := by
  have leftShape := run_shape leftOut (first.run tensor) (run_shape left tensor here)
  have rightShape := run_shape rightOut (first'.run tensor) (run_shape right tensor here)
  have equal : out = out' := by
    rw [← leftShape, ← rightShape]
    exact same.1
  simp [resultShape, left, leftOut, right, rightOut, equal]

theorem verifyReduceOp_natural {rank : Nat} {dims : List Nat} (nodup : dims.Nodup)
    (inRange : ∀ dim ∈ dims, dim < rank) :
    verifyReduceOp rank (some (dims.map fun d : Nat => (d : Int))) = true := by
  simp only [verifyReduceOp, Bool.and_eq_true, List.all_eq_true, decide_eq_true_eq]
  constructor
  · intro dim member
    obtain ⟨value, inDims, rfl⟩ := List.mem_map.mp member
    have := inRange value inDims
    omega
  · exact nodup.map Nat.cast_injective

theorem nodup_natural {dims : List Nat} : (dims.map fun d : Nat => (d : Int)).Nodup ↔ dims.Nodup :=
  List.nodup_map_iff Nat.cast_injective

theorem mask_natural {rank : Nat} {dims : List Nat} (inRange : ∀ dim ∈ dims, dim < rank) :
    reduceDimsMask rank (some (dims.map fun d : Nat => (d : Int))) = maskOf rank dims := by
  have known : InRange rank (some (dims.map fun d : Nat => (d : Int))) := by
    rintro list same dim member
    obtain rfl := Option.some.inj same
    obtain ⟨value, inDims, rfl⟩ := List.mem_map.mp member
    have := inRange value inDims
    omega
  rw [reduceDimsMask_eq known, getReduceDimValues_natural]

theorem gather_nodup_iff {n : Nat} {permutation dims : List Nat} (permutes : Permutes n permutation)
    (inRange : ∀ dim ∈ dims, dim < n) : (gather permutation dims).Nodup ↔ dims.Nodup := by
  constructor
  · exact List.Nodup.of_map _
  · intro nodup
    refine List.Nodup.map_on ?_ nodup
    intro left leftMember right rightMember same
    exact permutes.getD_injective left right (inRange left leftMember) (inRange right rightMember) same

theorem gather_lt {n : Nat} {permutation dims : List Nat} (permutes : Permutes n permutation)
    (inRange : ∀ dim ∈ dims, dim < n) : ∀ dim ∈ gather permutation dims, dim < n := by
  intro dim member
  obtain ⟨position, inDims, rfl⟩ := List.mem_map.mp member
  exact permutes.getD_lt position (inRange position inDims)

/-- The listed dims that hold more than one element come in one order before and after a move. -/
def OrderKept (dims shape : List Nat) (moved : Nat → Nat) : Prop :=
  ∀ left ∈ dims, ∀ right ∈ dims, left < right → 1 < shape.getD left 0 → 1 < shape.getD right 0 →
    moved left < moved right

theorem keepsOrder_iff {shape permutation dims : List Nat}
    (inRange : ∀ dim ∈ dims, dim < shape.length) :
    KeepsOrder shape permutation (survivors shape.length dims) ↔
      OrderKept dims (gather shape permutation) fun dim => permutation.getD dim 0 := by
  have reduced : ∀ dim < shape.length, dim ∉ survivors shape.length dims ↔ dim ∈ dims := by
    intro dim known
    rw [mem_survivors]
    tauto
  constructor
  · intro ordered left leftMember right rightMember less leftWide rightWide
    have leftKnown := inRange left leftMember
    have rightKnown := inRange right rightMember
    exact ordered left right less rightKnown ((reduced left leftKnown).mpr leftMember)
      ((reduced right rightKnown).mpr rightMember) leftWide rightWide
  · intro ordered left right less known leftReduced rightReduced leftWide rightWide
    exact ordered left ((reduced left (less.trans known)).mp leftReduced) right ((reduced right known).mp rightReduced)
      less leftWide rightWide

section Upwards

variable {attrs : Reduce} {shape userPerm : List Nat}

theorem upwards_verified (valid : (resultShape (original .upwards (.permute userPerm) attrs) shape).isSome) :
    verifyReduceOp shape.length attrs.dimArg = true ∧ Permutes (expectedOutputShape attrs.keepDim
      (reduceDimsMask shape.length attrs.dimArg) shape).length userPerm := by
  by_cases verified : verifyReduceOp shape.length attrs.dimArg = true
  · refine ⟨verified, ?_⟩
    by_contra not
    simp [original, resultShape, Op.resultShape, verified, not] at valid
  · simp [original, resultShape, Op.resultShape, verified] at valid

theorem upwards_moves (inRange : InRange shape.length attrs.dimArg)
    (permutes : Permutes (expectedOutputShape attrs.keepDim (reduceDimsMask shape.length attrs.dimArg) shape).length
      userPerm) :
    ∃ chosen, Moves shape (inputPermutation attrs shape.length userPerm) (getReduceDimValues shape.length attrs.dimArg)
        (gather (inverse (inputPermutation attrs shape.length userPerm)) (getReduceDimValues shape.length attrs.dimArg))
        chosen ∧
      (if attrs.keepDim then inputPermutation attrs shape.length userPerm else chosen) = userPerm := by
  have below := getReduceDimValues_lt inRange
  generalize dimsHere : getReduceDimValues shape.length attrs.dimArg = dims at below ⊢
  have sizes : (maskOf shape.length dims).length = shape.length := maskOf_length _ _
  rw [reduceDimsMask_eq inRange, dimsHere] at permutes
  have marks : ∀ permutation, Permutes shape.length permutation → ∀ position < shape.length,
      position ∈ gather (inverse permutation) dims ↔ permutation.getD position 0 ∈ dims := by
    intro permutation permutes position known
    have moved := mem_gather permutes.inverse below _ (permutes.getD_lt position known)
    rwa [inverse_getD permutes _ (permutes.getD_lt position known), permutes.idxOf_getD position known] at moved
  cases keep : attrs.keepDim with
  | true =>
      have whole : Permutes shape.length userPerm := by
        rw [keep] at permutes
        rwa [expectedOutputShape, if_pos rfl, unitsAt_length sizes] at permutes
      have input : inputPermutation attrs shape.length userPerm = userPerm := by rw [inputPermutation, if_pos keep]
      have back : gather userPerm (gather (inverse userPerm) dims) = dims := by
        rw [← gather_gather _ _ _ fun dim member => by rw [inverse_length, whole.length]; exact below dim member,
          gather_inverse whole, range_gather _ _ below]
      have keeps := keptBy_contract whole rfl (gather_lt whole.inverse below)
      rw [back] at keeps
      rw [input]
      exact ⟨_, ⟨keeps, marks userPerm whole⟩, if_pos rfl⟩
  | false =>
      have small : Permutes (survivors shape.length dims).length userPerm := by
        rw [keep] at permutes
        rwa [expectedOutputShape, if_neg Bool.false_ne_true, ← gather_keptDims _ _ sizes, gather_length,
          keptDims_maskOf] at permutes
      have input : inputPermutation attrs shape.length userPerm = expandPermutation userPerm dims shape.length := by
        rw [inputPermutation, if_neg (by simp [keep]), dimsHere]
      have whole := expandPermutation_permutes small
      have keeps := keptBy_expand small (rfl : shape.length = shape.length)
      have fixed := gather_inverse_expand below small
      rw [input]
      refine ⟨userPerm, ⟨by rwa [fixed], marks _ whole⟩, if_neg Bool.false_ne_true⟩

/-- Both ops before the rewrite verify, and so do both ops after it once the new dims are distinct. -/
theorem upwards_shapes (verified : verifyReduceOp shape.length attrs.dimArg = true)
    (userPermutes : Permutes (expectedOutputShape attrs.keepDim (reduceDimsMask shape.length attrs.dimArg) shape).length
      userPerm) {permutation : List Nat} (permutes : Permutes shape.length permutation) {attrs' : Reduce}
    (verified' : verifyReduceOp shape.length attrs'.dimArg = true) (tensor : Tensor K) (here : tensor.shape = shape)
    (same : Same (run (rewritten .upwards (.permute permutation) attrs') tensor)
      (run (original .upwards (.permute userPerm) attrs) tensor)) :
    resultShape (rewritten .upwards (.permute permutation) attrs') shape =
      resultShape (original .upwards (.permute userPerm) attrs) shape := by
  have rank : (gather shape permutation).length = shape.length := by rw [gather_length, permutes.length]
  refine resultShape_eq (if_pos permutes) (if_pos ?_) (if_pos verified) (if_pos userPermutes) tensor here same
  rwa [rank]

theorem preserves_upwards [IsStrictOrderedRing K]
    (valid : (resultShape (original .upwards (.permute userPerm) attrs) shape).isSome) :
    Preserves K .upwards (.permute userPerm) attrs shape (commutePermuteUpwards attrs shape userPerm) ↔
      (getReduceDimValues shape.length attrs.dimArg).Nodup ∧ (attrs.op = .argMax → 0 ∈ shape ∨
        KeepsOrder shape (inputPermutation attrs shape.length userPerm) (survivors shape.length
          (gather (inverse (inputPermutation attrs shape.length userPerm))
            (getReduceDimValues shape.length attrs.dimArg)))) := by
  obtain ⟨verified, userPermutes⟩ := upwards_verified valid
  have inRange := inRange_of_verified verified
  have below := getReduceDimValues_lt inRange
  obtain ⟨chosen, moves, userPermHere⟩ := upwards_moves inRange userPermutes
  have permutes := moves.keeps.permutes
  let permutation := inputPermutation attrs shape.length userPerm
  let dims := getReduceDimValues shape.length attrs.dimArg
  have below' := gather_lt permutes.inverse below
  let attrs' := createNewReduceOpWithPermutedDims attrs (inverse permutation)
  have newDims : attrs'.dimArg = some ((gather (inverse permutation) dims).map fun d : Nat => (d : Int)) := by
    simp only [attrs', createNewReduceOpWithPermutedDims, permuteDims_eq, inverse_length, permutation, permutes.length,
      dims]
  have mask' : reduceDimsMask shape.length attrs'.dimArg = maskOf shape.length (gather (inverse permutation) dims) := by
    rw [newDims, mask_natural below']
  have values : (∀ tensor : Tensor K, tensor.shape = shape →
      Same (run (rewritten .upwards (.permute permutation) attrs') tensor)
        (run (original .upwards (.permute userPerm) attrs) tensor)) ↔
      (attrs.op = .argMax → 0 ∈ shape ∨
        KeepsOrder shape permutation (survivors shape.length (gather (inverse permutation) dims))) := by
    rw [← reduce_permute_iff (K := K) attrs.op moves]
    refine forall_congr' fun tensor => forall_congr' fun here => ?_
    subst here
    have both := run_permute_iff attrs attrs' tensor moves rfl rfl (reduceDimsMask_eq inRange) mask'
    rw [userPermHere] at both
    exact both
  constructor
  · intro preserves
    refine ⟨?_, values.mp preserves.values⟩
    obtain ⟨listed, here, nodup, _⟩ := preserves.distinct
    obtain rfl := Option.some.inj (newDims.symm.trans here)
    exact (gather_nodup_iff permutes.inverse below).mp (nodup_natural.mp nodup)
  · rintro ⟨nodup, allowed⟩
    have nodup' := (gather_nodup_iff permutes.inverse below).mpr nodup
    have same := values.mpr allowed
    refine ⟨⟨_, newDims, nodup_natural.mpr nodup', ?_⟩, ?_, same⟩
    · intro dim member
      obtain ⟨value, inDims, rfl⟩ := List.mem_map.mp member
      have known := below' value inDims
      have rank : reducedRank .upwards (.permute permutation) shape = shape.length := permutes.length
      change 0 ≤ (value : Int) ∧ (value : Int) < (reducedRank .upwards (.permute permutation) shape : Nat)
      rw [rank]
      omega
    · have verified' : verifyReduceOp shape.length attrs'.dimArg = true := by
        rw [newDims]
        exact verifyReduceOp_natural nodup' below'
      let blank : Tensor K := { shape := shape, get := fun _ => 0 }
      exact upwards_shapes verified userPermutes permutes verified' blank rfl (same blank rfl)

end Upwards

section Downwards

variable {attrs : Reduce} {shape permutation : List Nat}

theorem downwards_verified (valid : (resultShape (original .downwards (.permute permutation) attrs) shape).isSome) :
    Permutes shape.length permutation ∧ verifyReduceOp shape.length attrs.dimArg = true := by
  by_cases permutes : Permutes shape.length permutation
  · refine ⟨permutes, ?_⟩
    have rank : (gather shape permutation).length = shape.length := by rw [gather_length, permutes.length]
    by_contra not
    simp [original, resultShape, Op.resultShape, permutes, rank, not] at valid
  · simp [original, resultShape, Op.resultShape, permutes] at valid

theorem preserves_downwards [IsStrictOrderedRing K]
    (valid : (resultShape (original .downwards (.permute permutation) attrs) shape).isSome) :
    Preserves K .downwards (.permute permutation) attrs shape (commutePermuteDownwards attrs permutation) ↔
      (getReduceDimValues shape.length attrs.dimArg).Nodup ∧ (attrs.op = .argMax → 0 ∈ shape ∨
        KeepsOrder shape permutation (survivors shape.length (getReduceDimValues shape.length attrs.dimArg))) := by
  obtain ⟨permutes, verified⟩ := downwards_verified valid
  have inRange := inRange_of_verified verified
  have below := getReduceDimValues_lt inRange
  let dims := getReduceDimValues shape.length attrs.dimArg
  have below' := gather_lt permutes below
  have moves : Moves shape permutation (gather permutation dims) dims (contractPermutation permutation dims) :=
    ⟨keptBy_contract permutes rfl below, fun position known => (mem_gather permutes below position known).symm⟩
  let attrs' := createNewReduceOpWithPermutedDims attrs permutation
  have newDims : attrs'.dimArg = some ((gather permutation dims).map fun d : Nat => (d : Int)) := by
    simp only [attrs', createNewReduceOpWithPermutedDims, permuteDims_eq, permutes.length, dims]
  have mask' : reduceDimsMask shape.length attrs'.dimArg = maskOf shape.length (gather permutation dims) := by
    rw [newDims, mask_natural below']
  let outputPerm := if attrs.keepDim then permutation else contractPermutation permutation dims
  have new : commutePermuteDownwards attrs permutation = (.permute outputPerm, attrs') := by
    simp only [commutePermuteDownwards, permutes.length]
    rfl
  rw [new]
  -- the values agree by the reduction of a permuted tensor, dim by dim
  have values : (∀ tensor : Tensor K, tensor.shape = shape →
      Same (run (rewritten .downwards (.permute outputPerm) attrs') tensor)
        (run (original .downwards (.permute permutation) attrs) tensor)) ↔
      (attrs.op = .argMax → 0 ∈ shape ∨ KeepsOrder shape permutation (survivors shape.length dims)) := by
    rw [← reduce_permute_iff (K := K) attrs.op moves]
    refine forall_congr' fun tensor => forall_congr' fun here => ?_
    subst here
    have both := run_permute_iff attrs' attrs tensor moves rfl rfl mask' (reduceDimsMask_eq inRange)
    constructor
    · exact fun same => both.mp same.symm
    · exact fun same => (both.mpr same).symm
  constructor
  · intro preserves
    refine ⟨?_, values.mp preserves.values⟩
    -- the new reduce lists its dims, so repeated dims fail its verifier
    obtain ⟨listed, here, nodup, _⟩ := preserves.distinct
    obtain rfl := Option.some.inj (newDims.symm.trans here)
    exact (gather_nodup_iff permutes below).mp (nodup_natural.mp nodup)
  · rintro ⟨nodup, allowed⟩
    have nodup' := (gather_nodup_iff permutes below).mpr nodup
    have same := values.mpr allowed
    refine ⟨⟨_, newDims, nodup_natural.mpr nodup', ?_⟩, ?_, same⟩
    · intro dim member
      obtain ⟨value, inDims, rfl⟩ := List.mem_map.mp member
      have known := below' value inDims
      change 0 ≤ (value : Int) ∧ (value : Int) < (shape.length : Nat)
      omega
    · have verified' : verifyReduceOp shape.length attrs'.dimArg = true := by
        rw [newDims]
        exact verifyReduceOp_natural nodup' below'
      have rank : (gather shape permutation).length = shape.length := by rw [gather_length, permutes.length]
      let blank : Tensor K := { shape := shape, get := fun _ => 0 }
      refine resultShape_eq (if_pos verified') (if_pos ?_) (if_pos permutes) (if_pos ?_) blank rfl (same blank rfl)
      · have sizes : (maskOf shape.length (gather permutation dims)).length = shape.length := maskOf_length _ _
        simp only [attrs', createNewReduceOpWithPermutedDims] at mask' ⊢
        rw [mask', expectedOutputShape]
        cases keep : attrs.keepDim with
        | true => simpa [outputPerm, keep, unitsAt_length sizes] using permutes
        | false =>
            have order := moves.keeps.order
            rw [← keptDims_maskOf, ← gather_length shape, gather_keptDims _ _ sizes] at order
            simpa [outputPerm, keep] using order
      · rwa [rank]

end Downwards

end Preservation

end TtMlir.Ttir.ReduceCommute
