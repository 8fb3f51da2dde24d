import TtMlir.Library.Broadcast
import TtMlir.Ttnn.DimGroups

/-!
A reshape pulled in front of an elementwise op of two operands, `ReshapeElementwiseAdjusting`
in TTNNMemoryManagement.cpp. The operands are cut along the groups of dims of the result, also
outside of their shape; one that does not fit is seen after the reshape of an earlier one.
-/

namespace TtMlir.Ttnn.ReshapeElementwise

open Broadcasting DimGroups

def BroadcastsTo (operandShape shape : List Nat) : Prop :=
  operandShape.length ≤ shape.length ∧
    List.Forall₂ (fun extent full => extent = full ∨ extent = 1) operandShape (shape.drop (shape.length - operandShape.length))

structure Operand where
  shape : List Nat
  /-- The shape of the input of the reshape that defines the operand, where that has no other use. -/
  existingReshape : Option (List Nat)
  volume : ∀ inputShape ∈ existingReshape, inputShape.prod = shape.prod

/-- A reshape of an elementwise op, as the verifiers have them. -/
structure ReshapedEltwise where
  eltwiseShape : List Nat
  finalShape : List Nat
  hasOneUse : Bool
  lhs : Operand
  rhs : Operand
  volume : eltwiseShape.prod = finalShape.prod
  lhsBroadcasts : BroadcastsTo lhs.shape eltwiseShape
  rhsBroadcasts : BroadcastsTo rhs.shape eltwiseShape

def tileSize : Nat := 32

def alignUp (extent : Nat) : Nat := (extent + tileSize - 1) / tileSize * tileSize

def getTilePaddedShape (shape : List Nat) : List Nat :=
  ((shape.reverse.take 2).map alignUp ++ shape.reverse.drop 2).reverse

def getTiledVolume (shape : List Nat) : Nat := (getTilePaddedShape shape).prod

/-- The target shape of an operand, none where it does not fit, or an error for a slice out of bounds. -/
def operandTarget (finalShape operandShape : List Nat) : List DimGroup → Except Unit (Option (List Nat))
  | [] => .ok (some [])
  | group :: groups =>
      let prepend (dims : List Nat) := (operandTarget finalShape operandShape groups).map fun target => target.map (dims ++ ·)
      if group.inCount = 0 then prepend [1]
      else if operandShape.length < group.inStart + group.inCount then .error ()
      else
        let operandProduct := (dimsOf operandShape group.inStart group.inCount).prod
        let finalSub := dimsOf finalShape group.outStart group.outCount
        if operandProduct = finalSub.prod then prepend finalSub
        else if operandProduct = 1 then prepend (List.replicate group.outCount 1)
        else .ok none

namespace Operand
variable (operand : Operand)

def inputShape : List Nat := operand.existingReshape.getD operand.shape

def adjust (groups : List DimGroup) (finalShape : List Nat) : Except Unit (Option (List Nat)) :=
  (operandTarget finalShape operand.shape groups).map fun target =>
    target.bind fun shape => if operand.inputShape = shape ∨ operand.inputShape.prod = shape.prod then some shape else none

end Operand

inductive Outcome where
  | outOfBounds
  /-- With the number of reshapes that have been created. -/
  | failure (created : Nat)
  /-- With the shapes of the new operands. -/
  | success (targets : List (List Nat))
  deriving DecidableEq, Repr

def adjustOperands (groups : List DimGroup) (finalShape : List Nat) : List Operand → Nat → List (List Nat) → Outcome
  | [], _, targets => .success targets
  | operand :: operands, created, targets =>
      match operand.adjust groups finalShape with
      | .error _ => .outOfBounds
      | .ok none => .failure created
      | .ok (some target) =>
          adjustOperands groups finalShape operands (if operand.inputShape = target then created else created + 1)
            (targets ++ [target])

def matchAndRewrite (op : ReshapedEltwise) : Outcome :=
  if ¬ op.hasOneUse then .failure 0
  else if getTiledVolume op.eltwiseShape ≤ getTiledVolume op.finalShape then .failure 0
  else
    match computeDimGroupMapping op.eltwiseShape op.finalShape with
    | none => .failure 0
    | some groups => adjustOperands groups op.finalShape [op.lhs, op.rhs] 0 []

section Values
variable {α : Type}

def operandIndex (operandShape index : List Nat) : List Nat :=
  List.zipWith pinned operandShape (index.drop (index.length - operandShape.length))

def elementwise (combine : α → α → α) (lhs rhs : Tensor α) (shape : List Nat) : Tensor α :=
  { shape, get := fun index => combine (lhs.get (operandIndex lhs.shape index)) (rhs.get (operandIndex rhs.shape index)) }

def Operand.value (operand : Operand) (input : Tensor α) : Tensor α :=
  if operand.existingReshape.isSome then input.reshape operand.shape else input

def adjusted (input : Tensor α) (target : List Nat) : Tensor α := if input.shape = target then input else input.reshape target

def original (op : ReshapedEltwise) (combine : α → α → α) (lhs rhs : Tensor α) : Tensor α :=
  (elementwise combine (op.lhs.value lhs) (op.rhs.value rhs) op.eltwiseShape).reshape op.finalShape

/-- No slice is out of bounds, a failure leaves no new op, and a success the same tensor. -/
structure Correct (α : Type) (op : ReshapedEltwise) : Prop where
  inside : matchAndRewrite op ≠ .outOfBounds
  unchanged : ∀ created, matchAndRewrite op = .failure created → created = 0
  same : ∀ targets, matchAndRewrite op = .success targets → ∃ left right, targets = [left, right] ∧
    BroadcastsTo left op.finalShape ∧ BroadcastsTo right op.finalShape ∧
      ∀ (combine : α → α → α) (lhs rhs : Tensor α), lhs.shape = op.lhs.inputShape → rhs.shape = op.rhs.inputShape →
        Tensor.Same (elementwise combine (adjusted lhs left) (adjusted rhs right) op.finalShape) (original op combine lhs rhs)

end Values

def Fits (operandShape : List Nat) (group : DimGroup) : Prop :=
  group.inCount = 0 ∨ group.inStart + group.inCount ≤ operandShape.length

def Even (finalShape operandShape : List Nat) (group : DimGroup) : Prop :=
  group.inCount = 0 ∨
    (dimsOf operandShape group.inStart group.inCount).prod = (dimsOf finalShape group.outStart group.outCount).prod ∨
      (dimsOf operandShape group.inStart group.inCount).prod = 1

def Passes (finalShape operandShape : List Nat) (groups : List DimGroup) : Prop :=
  ∀ group ∈ groups, Fits operandShape group ∧ Even finalShape operandShape group

def Stops (finalShape operandShape : List Nat) (groups : List DimGroup) : Prop :=
  ∃ front group back, groups = front ++ group :: back ∧ Passes finalShape operandShape front ∧
    Fits operandShape group ∧ ¬ Even finalShape operandShape group

def pulledDims (finalShape operandShape : List Nat) (group : DimGroup) : List Nat :=
  if group.inCount = 0 then [1]
  else if (dimsOf operandShape group.inStart group.inCount).prod = (dimsOf finalShape group.outStart group.outCount).prod then
    dimsOf finalShape group.outStart group.outCount
  else List.replicate group.outCount 1

def pulledShape (finalShape operandShape : List Nat) (groups : List DimGroup) : List Nat :=
  groups.flatMap (pulledDims finalShape operandShape)

section Scan
variable {finalShape operandShape : List Nat} {group : DimGroup} {groups : List DimGroup}

theorem operandTarget_good (fits : Fits operandShape group) (even : Even finalShape operandShape group)
    (groups : List DimGroup) :
    operandTarget finalShape operandShape (group :: groups) =
      (operandTarget finalShape operandShape groups).map fun target =>
        target.map (pulledDims finalShape operandShape group ++ ·) := by
  unfold Fits Even at *
  rw [operandTarget]
  unfold pulledDims
  by_cases inserted : group.inCount = 0
  · simp [inserted]
  · have inside := fits.resolve_left inserted
    have evenly := even.resolve_left inserted
    simp only [inserted, if_false, Nat.not_lt.mpr inside]
    by_cases whole : (dimsOf operandShape group.inStart group.inCount).prod =
      (dimsOf finalShape group.outStart group.outCount).prod
    · simp only [whole, if_true]
    · simp only [if_neg whole, if_pos (evenly.resolve_left whole)]

theorem operandTarget_uneven (fits : Fits operandShape group) (uneven : ¬ Even finalShape operandShape group) :
    operandTarget finalShape operandShape (group :: groups) = .ok none := by
  unfold Fits Even at *
  push Not at uneven
  obtain ⟨wide, part, more⟩ := uneven
  have inside := fits.resolve_left wide
  simp only [operandTarget, wide, if_false, Nat.not_lt.mpr inside, part, more]

theorem operandTarget_outside (outside : ¬ Fits operandShape group) :
    operandTarget finalShape operandShape (group :: groups) = .error () := by
  unfold Fits at outside
  push Not at outside
  simp only [operandTarget, outside.1, if_false, outside.2, if_true]

theorem Stops.cons (fits : Fits operandShape group) (even : Even finalShape operandShape group) :
    Stops finalShape operandShape (group :: groups) ↔ Stops finalShape operandShape groups := by
  constructor
  · rintro ⟨front, stop, back, split, passes, inside, uneven⟩
    cases front with
    | nil =>
        cases split
        exact absurd even uneven
    | cons first front =>
        obtain ⟨rfl, rest⟩ := List.cons.inj split
        exact ⟨front, stop, back, rest, fun other member => passes other (List.mem_cons_of_mem _ member), inside,
          uneven⟩
  · rintro ⟨front, stop, back, split, passes, inside, uneven⟩
    refine ⟨group :: front, stop, back, by rw [split, List.cons_append], ?_, inside, uneven⟩
    exact List.forall_mem_cons.mpr ⟨⟨fits, even⟩, passes⟩

theorem operandTarget_iff (finalShape operandShape : List Nat) (groups : List DimGroup) :
    (Passes finalShape operandShape groups → operandTarget finalShape operandShape groups =
      .ok (some (pulledShape finalShape operandShape groups))) ∧
      (Stops finalShape operandShape groups → operandTarget finalShape operandShape groups = .ok none) ∧
        (¬ Passes finalShape operandShape groups → ¬ Stops finalShape operandShape groups →
          operandTarget finalShape operandShape groups = .error ()) := by
  induction groups with
  | nil =>
      refine ⟨fun _ => rfl, ?_, fun failing => absurd (fun _ member => nomatch member) failing⟩
      rintro ⟨front, group, back, split, _⟩
      simp at split
  | cons group groups ih =>
      obtain ⟨passing, stopping, outside⟩ := ih
      -- The first group that is outside or uneven decides; the groups before it only add dims.
      by_cases fits : Fits operandShape group
      · by_cases even : Even finalShape operandShape group
        · rw [operandTarget_good fits even, Stops.cons fits even]
          have passes : Passes finalShape operandShape (group :: groups) ↔ Passes finalShape operandShape groups :=
            ⟨fun all other member => all other (List.mem_cons_of_mem _ member),
              fun later => List.forall_mem_cons.mpr ⟨⟨fits, even⟩, later⟩⟩
          rw [passes]
          refine ⟨fun later => ?_, fun later => ?_, fun none later => ?_⟩
          · rw [passing later]
            rfl
          · rw [stopping later]
            rfl
          · rw [outside none later]
            rfl
        · have none : operandTarget finalShape operandShape (group :: groups) = .ok none :=
            operandTarget_uneven fits even
          refine ⟨fun passes => absurd (passes group List.mem_cons_self).2 even, fun _ => none, fun _ later => ?_⟩
          have nothing : Passes finalShape operandShape [] := fun _ member => nomatch member
          exact absurd ⟨[], group, groups, rfl, nothing, fits, even⟩ later
      · refine ⟨fun passes => absurd (passes group List.mem_cons_self).1 fits, ?_,
          fun _ _ => operandTarget_outside fits⟩
        rintro ⟨front, stop, back, split, passes, inside, _⟩
        cases front with
        | nil =>
            cases split
            exact absurd inside fits
        | cons first front =>
            obtain ⟨rfl, _⟩ := List.cons.inj split
            exact absurd (passes group List.mem_cons_self).1 fits

end Scan

section Pulled
variable {inIdx outIdx : Nat} {ins outs : List Nat} {groups : List DimGroup} {finalShape operandShape : List Nat}

theorem rank_le (grouped : Grouped inIdx outIdx ins outs groups) (started : inIdx ≤ operandShape.length)
    (fits : ∀ group ∈ groups, Fits operandShape group) : inIdx + ins.length ≤ operandShape.length := by
  induction grouped with
  | nil => exact started
  | @cons inIdx outIdx inSub outSub ins outs groups product inserted later ih =>
      rw [List.length_append, ← Nat.add_assoc]
      apply ih
      · rcases fits _ List.mem_cons_self with none | inside
        · dsimp only at none
          omega
        · exact inside
      · exact fun group member => fits group (List.mem_cons_of_mem _ member)

theorem repeated_prod {operand full : List Nat}
    (broadcast : List.Forall₂ (fun extent all => extent = all ∨ extent = 1) operand full)
    (positive : ∀ extent ∈ full, 0 < extent) : operand.prod ≤ full.prod ∧
    (operand.prod = full.prod → operand = full) := by
  induction broadcast with
  | nil => exact ⟨Nat.le_refl 1, fun _ => rfl⟩
  | @cons extent all operand full here later ih =>
      obtain ⟨some, rest⟩ := List.forall_mem_cons.mp positive
      obtain ⟨bound, equal⟩ := ih rest
      have volume : 0 < full.prod := List.prod_pos rest
      rw [List.prod_cons, List.prod_cons]
      rcases here with rfl | rfl
      · refine ⟨Nat.mul_le_mul_left extent bound, fun same => ?_⟩
        rw [equal (Nat.eq_of_mul_eq_mul_left some same)]
      · refine ⟨Nat.mul_le_mul some bound, fun same => ?_⟩
        have most : all * full.prod ≤ 1 * full.prod := by
          rw [← same]
          exact Nat.mul_le_mul_left 1 bound
        have least := Nat.le_of_mul_le_mul_right most volume
        have single : all = 1 := by omega
        rw [single, equal (by simpa [single] using same)]

theorem pinned_self {shape index : List Nat} (inside : Inside shape index) :
    List.zipWith pinned shape index = index := by
  induction inside with
  | nil => rfl
  | @cons position extent index shape here later ih =>
      rw [List.zipWith_cons_cons, ih]
      congr 1
      unfold pinned
      split
      · omega
      · rfl

theorem flatten_units (operand index : List Nat) (units : operand.prod = 1) :
    flatten operand (List.zipWith pinned operand index) = 0 := by
  induction operand generalizing index with
  | nil => rfl
  | cons extent operand ih =>
      have single := units_of_prod units
      cases index with
      | nil => rfl
      | cons position index =>
          obtain ⟨one, rest⟩ := List.forall_mem_cons.mp single
          rw [List.zipWith_cons_cons, flatten, ih index (List.prod_eq_one rest), pinned, if_pos one, Nat.zero_mul]

theorem pulledDims_flatten {inSub outSub operand target index : List Nat} (product : inSub.prod = outSub.prod)
    (broadcast : List.Forall₂ (fun extent full => extent = full ∨ extent = 1) operand inSub)
    (targets : operand.prod = outSub.prod ∧ target = outSub ∨ operand.prod = 1 ∧ target.prod = 1)
    (inside : Inside outSub index) :
    flatten operand (List.zipWith pinned operand (unflatten inSub (flatten outSub index))) =
      flatten target (List.zipWith pinned target index) := by
  rcases targets with ⟨whole, rfl⟩ | ⟨units, targetUnits⟩
  · have below := flatten_lt _ _ inside
    rw [← product] at below
    have insideIn := Tensor.inside_of_flat inSub _ below
    have positive : ∀ extent ∈ inSub, 0 < extent :=
      List.prod_pos_iff_forall_pos_nat.mp (Nat.lt_of_le_of_lt (Nat.zero_le _) below)
    have full := (repeated_prod broadcast positive).2 (whole.trans product.symm)
    rw [full, pinned_self insideIn, pinned_self inside, flatten_unflatten _ _ below]
  · rw [flatten_units _ _ units, flatten_units _ _ targetUnits]

theorem pulledDims_spec {outSub operandSub : List Nat} (group : DimGroup)
    (operandDims : dimsOf operandShape group.inStart group.inCount = operandSub)
    (finalDims : dimsOf finalShape group.outStart group.outCount = outSub) (outLength : outSub.length = group.outCount)
    (inserted : group.inCount = 0 → operandSub = [] ∧ outSub = [1]) (even : Even finalShape operandShape group) :
    List.Forall₂ (fun extent full => extent = full ∨ extent = 1) (pulledDims finalShape operandShape group) outSub ∧
      (pulledDims finalShape operandShape group).prod = operandSub.prod ∧
        (operandSub.prod = outSub.prod ∧ pulledDims finalShape operandShape group = outSub ∨
          operandSub.prod = 1 ∧ (pulledDims finalShape operandShape group).prod = 1) := by
  unfold Even at even
  unfold pulledDims
  rw [operandDims, finalDims] at even ⊢
  by_cases none : group.inCount = 0
  · obtain ⟨empty, unit⟩ := inserted none
    rw [if_pos none, empty, unit]
    exact ⟨.cons (.inl rfl) .nil, rfl, .inr ⟨rfl, rfl⟩⟩
  · rw [if_neg none]
    by_cases whole : operandSub.prod = outSub.prod
    · rw [if_pos whole]
      exact ⟨List.forall₂_same.mpr fun extent _ => .inl rfl, whole.symm, .inl ⟨whole, rfl⟩⟩
    · have units := (even.resolve_left none).resolve_left whole
      rw [if_neg whole, ← outLength, List.prod_replicate, Nat.one_pow, units]
      refine ⟨?_, rfl, .inr ⟨rfl, rfl⟩⟩
      clear whole even finalDims outLength inserted
      induction outSub with
      | nil => exact .nil
      | cons extent outSub ih => exact .cons (.inr rfl) ih

theorem pulledShape_spec (grouped : Grouped inIdx outIdx ins outs groups)
    (operandFront operandRest finalFront : List Nat)
    (operandIdx : operandFront.length = inIdx) (finalIdx : finalFront.length = outIdx)
    (broadcast : List.Forall₂ (fun extent full => extent = full ∨ extent = 1) operandRest ins)
    (even : ∀ group ∈ groups, Even (finalFront ++ outs) (operandFront ++ operandRest) group) :
    List.Forall₂ (fun extent full => extent = full ∨ extent = 1)
        (pulledShape (finalFront ++ outs) (operandFront ++ operandRest) groups) outs ∧
      (pulledShape (finalFront ++ outs) (operandFront ++ operandRest) groups).prod = operandRest.prod ∧
      ∀ index, Inside outs index →
        flatten operandRest (List.zipWith pinned operandRest (unflatten ins (flatten outs index))) =
          flatten (pulledShape (finalFront ++ outs) (operandFront ++ operandRest) groups)
            (List.zipWith pinned (pulledShape (finalFront ++ outs) (operandFront ++ operandRest) groups) index) := by
  induction grouped generalizing operandFront operandRest finalFront with
  | nil =>
      cases broadcast
      refine ⟨.nil, rfl, fun index inside => ?_⟩
      cases inside
      rfl
  | @cons inIdx outIdx inSub outSub ins outs groups product inserted later ih =>
      obtain ⟨operandSub, operandBack, rfl, hereBroadcast, backBroadcast⟩ :
          ∃ operandSub operandBack, operandRest = operandSub ++ operandBack ∧
            List.Forall₂ (fun extent full => extent = full ∨ extent = 1) operandSub inSub ∧
              List.Forall₂ (fun extent full => extent = full ∨ extent = 1) operandBack ins :=
        ⟨_, _, (List.take_append_drop inSub.length operandRest).symm, List.forall₂_take_append _ _ _ broadcast,
          List.forall₂_drop_append _ _ _ broadcast⟩
      have operandLength := hereBroadcast.length_eq
      obtain ⟨hereEven, laterEven⟩ := List.forall_mem_cons.mp even
      have shapeEq : (finalFront ++ outSub) ++ outs = finalFront ++ (outSub ++ outs) := List.append_assoc _ _ _
      have operandEq : (operandFront ++ operandSub) ++ operandBack = operandFront ++ (operandSub ++ operandBack) :=
        List.append_assoc _ _ _
      rw [← shapeEq, ← operandEq] at laterEven
      obtain ⟨laterBroadcast, laterProd, laterSame⟩ := ih (operandFront ++ operandSub) operandBack
        (finalFront ++ outSub)
        (by rw [List.length_append, operandIdx, operandLength]) (by rw [List.length_append, finalIdx]) backBroadcast laterEven
      rw [shapeEq, operandEq] at laterBroadcast laterProd laterSame
      -- The dims of this group.
      have operandDims : dimsOf (operandFront ++ (operandSub ++ operandBack)) inIdx inSub.length = operandSub := by
        rw [← operandIdx, ← operandLength]
        exact dimsOf_append _ _ _
      have finalDims : dimsOf (finalFront ++ (outSub ++ outs)) outIdx outSub.length = outSub := by
        rw [← finalIdx]
        exact dimsOf_append _ _ _
      obtain ⟨targetBroadcast, targetProd, targets⟩ :=
        pulledDims_spec ⟨inIdx, inSub.length, outIdx, outSub.length⟩ operandDims finalDims rfl
          (fun none => by
            have empty : inSub = [] := List.length_eq_zero_iff.mp none
            rw [empty] at hereBroadcast
            cases hereBroadcast
            exact ⟨rfl, inserted empty⟩) hereEven
      have targetLength := targetBroadcast.length_eq
      unfold pulledShape at laterBroadcast laterProd laterSame ⊢
      rw [List.flatMap_cons]
      generalize (groups.flatMap (pulledDims (finalFront ++ (outSub ++ outs))
        (operandFront ++ (operandSub ++ operandBack)))) =
        laterTarget at *
      generalize (pulledDims (finalFront ++ (outSub ++ outs)) (operandFront ++ (operandSub ++ operandBack))
        ⟨inIdx, inSub.length, outIdx, outSub.length⟩) = target at *
      refine ⟨List.rel_append targetBroadcast laterBroadcast, ?_, ?_⟩
      · rw [List.prod_append, List.prod_append, targetProd, laterProd]
      · intro index inside
        obtain ⟨hereIndex, laterIndex, rfl, hereInside, laterInside⟩ :
            ∃ hereIndex laterIndex, index = hereIndex ++ laterIndex ∧ Inside outSub hereIndex ∧
              Inside outs laterIndex :=
          ⟨_, _, (List.take_append_drop outSub.length index).symm, List.forall₂_take_append _ _ _ inside,
            List.forall₂_drop_append _ _ _ inside⟩
        have hereLength : hereIndex.length = outSub.length := hereInside.length_eq
        have below := flatten_lt _ _ laterInside
        have volumes := later.prod
        rw [← volumes] at below
        -- The position splits into one inside the dims of this group and one inside the later ones.
        have quotient : (flatten outSub hereIndex * ins.prod + flatten outs laterIndex) / ins.prod =
            flatten outSub hereIndex := by
          rw [Nat.add_comm, Nat.add_mul_div_right _ _ (by omega), Nat.div_eq_of_lt below, Nat.zero_add]
        rw [flatten_append _ _ _ _ hereLength, ← volumes, unflatten_append, quotient, unflatten_add,
          List.zipWith_append (by rw [unflatten_length, operandLength]),
          List.zipWith_append (by rw [targetLength, hereLength]),
          flatten_append _ _ _ _ (by rw [List.length_zipWith, unflatten_length, operandLength, Nat.min_self]),
          flatten_append _ _ _ _ (by rw [List.length_zipWith, targetLength, hereLength, Nat.min_self]),
          laterSame _ laterInside, laterProd, pulledDims_flatten product hereBroadcast targets hereInside]

end Pulled

section Correct
variable {α : Type} {op : ReshapedEltwise} {groups : List DimGroup}

def Tried (op : ReshapedEltwise) (groups : List DimGroup) : Prop :=
  op.hasOneUse ∧ getTiledVolume op.finalShape < getTiledVolume op.eltwiseShape ∧
    computeDimGroupMapping op.eltwiseShape op.finalShape = some groups

/-- Both operands pass, or one is stopped within its shape before a reshape has been created. -/
def PullsCleanly (op : ReshapedEltwise) : Prop :=
  ∀ groups, Tried op groups →
    Stops op.finalShape op.lhs.shape groups ∨
      Passes op.finalShape op.lhs.shape groups ∧
        (Passes op.finalShape op.rhs.shape groups ∨
          Stops op.finalShape op.rhs.shape groups ∧ op.lhs.inputShape = pulledShape op.finalShape op.lhs.shape groups)

theorem BroadcastsTo.full {operandShape shape : List Nat} (broadcasts : BroadcastsTo operandShape shape)
    (rank : shape.length ≤ operandShape.length) :
    List.Forall₂ (fun extent full => extent = full ∨ extent = 1) operandShape shape := by
  have dims := broadcasts.2
  rwa [Nat.sub_eq_zero_of_le rank, List.drop_zero] at dims

theorem operandIndex_full {operandShape index : List Nat} (rank : index.length ≤ operandShape.length) :
    operandIndex operandShape index = List.zipWith pinned operandShape index := by
  unfold operandIndex
  rw [Nat.sub_eq_zero_of_le rank, List.drop_zero]

theorem Operand.inputShape_prod (operand : Operand) : operand.inputShape.prod = operand.shape.prod := by
  unfold Operand.inputShape
  cases existing : operand.existingReshape with
  | none => rfl
  | some inputShape => exact operand.volume inputShape existing

theorem Operand.value_get (operand : Operand) (input : Tensor α) (shape : input.shape = operand.inputShape)
    {index : List Nat}
    (inside : Inside operand.shape index) :
    (operand.value input).shape = operand.shape ∧
      (operand.value input).get index = input.get (unflatten input.shape (flatten operand.shape index)) := by
  unfold Operand.value
  split
  · exact ⟨rfl, rfl⟩
  · rename_i none
    have same : input.shape = operand.shape := by
      rw [shape, Operand.inputShape, Option.not_isSome_iff_eq_none.mp none]
      rfl
    rw [same, unflatten_flatten _ _ inside]
    exact ⟨rfl, rfl⟩

theorem Operand.value_shape (operand : Operand) (input : Tensor α) (shape : input.shape = operand.inputShape) :
    (operand.value input).shape = operand.shape := by
  unfold Operand.value
  split
  · rfl
  · rename_i none
    rw [shape, Operand.inputShape, Option.not_isSome_iff_eq_none.mp none]
    rfl

theorem adjusted_shape (input : Tensor α) (target : List Nat) : (adjusted input target).shape = target := by
  unfold adjusted
  split
  · assumption
  · rfl

theorem adjusted_get (input : Tensor α) {target index : List Nat} (inside : Inside target index) :
    (adjusted input target).get index = input.get (unflatten input.shape (flatten target index)) := by
  unfold adjusted
  split
  · rename_i same
    rw [same, unflatten_flatten _ _ inside]
  · rfl

section
variable (mapping : computeDimGroupMapping op.eltwiseShape op.finalShape = some groups) (operand : Operand)
  (broadcasts : BroadcastsTo operand.shape op.eltwiseShape) (passes : Passes op.finalShape operand.shape groups)
include mapping broadcasts passes

theorem operand_same :
    BroadcastsTo (pulledShape op.finalShape operand.shape groups) op.finalShape ∧
      (pulledShape op.finalShape operand.shape groups).prod = operand.shape.prod ∧
        ∀ (input : Tensor α), input.shape = operand.inputShape → ∀ index, Inside op.finalShape index →
          (adjusted input (pulledShape op.finalShape operand.shape groups)).get
              (operandIndex (adjusted input (pulledShape op.finalShape operand.shape groups)).shape index) =
            (operand.value input).get
              (operandIndex (operand.value input).shape (unflatten op.eltwiseShape (flatten op.finalShape index))) := by
  have grouped := mapDims_grouped mapping
  have rank := rank_le grouped (Nat.zero_le _) fun group member => (passes group member).1
  rw [Nat.zero_add] at rank
  have full := broadcasts.full rank
  obtain ⟨targetFull, volume, same⟩ :=
    pulledShape_spec grouped [] operand.shape [] rfl rfl full fun group member => (passes group member).2
  rw [List.nil_append, List.nil_append] at targetFull volume same
  refine ⟨⟨targetFull.length_eq.le, ?_⟩, volume, ?_⟩
  · rw [targetFull.length_eq, Nat.sub_self, List.drop_zero]
    exact targetFull
  · intro input shape index inside
    have below := flatten_lt _ _ inside
    rw [← op.volume] at below
    have insideEltwise := Tensor.inside_of_flat op.eltwiseShape _ below
    have lengths : index.length = op.finalShape.length := inside.length_eq
    have eltwiseLengths : (unflatten op.eltwiseShape (flatten op.finalShape index)).length = op.eltwiseShape.length :=
      unflatten_length _ _
    rw [adjusted_shape, operand.value_shape input shape, operandIndex_full (by rw [lengths, targetFull.length_eq]),
      operandIndex_full (by rw [eltwiseLengths]; exact rank), adjusted_get input (pinned_inside_of targetFull inside),
      (operand.value_get input shape (pinned_inside_of full insideEltwise)).2, same index inside]

theorem adjust_passes :
    operand.adjust groups op.finalShape = .ok (some (pulledShape op.finalShape operand.shape groups)) := by
  have volume := (operand_same (α := Unit) mapping operand broadcasts passes).2.1
  unfold Operand.adjust
  rw [(operandTarget_iff _ _ _).1 passes]
  simp only [Except.map, Option.bind_some]
  rw [if_pos (.inr (operand.inputShape_prod.trans volume.symm))]

end

theorem adjust_stops (operand : Operand) (stops : Stops op.finalShape operand.shape groups) :
    operand.adjust groups op.finalShape = .ok none := by
  unfold Operand.adjust
  rw [(operandTarget_iff _ _ _).2.1 stops]
  rfl

theorem adjust_outside (operand : Operand) (failing : ¬ Passes op.finalShape operand.shape groups)
    (open' : ¬ Stops op.finalShape operand.shape groups) : operand.adjust groups op.finalShape = .error () := by
  unfold Operand.adjust
  rw [(operandTarget_iff _ _ _).2.2 failing open']
  rfl

theorem not_tried (none : ¬ ∃ groups, Tried op groups) : matchAndRewrite op = .failure 0 := by
  unfold matchAndRewrite
  split
  · rfl
  · rename_i uses
    split
    · rfl
    · rename_i larger
      cases mapping : computeDimGroupMapping op.eltwiseShape op.finalShape with
      | none => rfl
      | some groups =>
          exact absurd ⟨groups, Decidable.not_not.mp uses, Nat.lt_of_not_le larger, mapping⟩ none

theorem matchAndRewrite_tried (tried : Tried op groups) :
    matchAndRewrite op = adjustOperands groups op.finalShape [op.lhs, op.rhs] 0 [] := by
  obtain ⟨uses, smaller, mapping⟩ := tried
  unfold matchAndRewrite
  rw [if_neg (not_not.mpr uses), if_neg (Nat.not_le.mpr smaller), mapping]

/-- The pattern is safe exactly when both operands pass, or one is stopped before a reshape has been created. -/
theorem correct_iff (α : Type) (op : ReshapedEltwise) : Correct α op ↔ PullsCleanly op := by
  constructor
  · rintro ⟨inside, unchanged, _⟩ groups tried
    rw [matchAndRewrite_tried tried] at inside unchanged
    -- The first operand decides alone where it stops or is cut outside; no reshape is there yet.
    by_cases lhsStops : Stops op.finalShape op.lhs.shape groups
    · exact .inl lhsStops
    by_cases lhsPasses : Passes op.finalShape op.lhs.shape groups
    · right
      refine ⟨lhsPasses, ?_⟩
      simp only [adjustOperands, adjust_passes tried.2.2 op.lhs op.lhsBroadcasts lhsPasses] at inside unchanged
      by_cases rhsPasses : Passes op.finalShape op.rhs.shape groups
      · exact .inl rhsPasses
      by_cases rhsStops : Stops op.finalShape op.rhs.shape groups
      · right
        refine ⟨rhsStops, ?_⟩
        rw [adjust_stops op.rhs rhsStops] at unchanged
        -- A reshape of the first operand would be left behind.
        by_contra needed
        have none := unchanged _ rfl
        rw [if_neg needed] at none
        exact nomatch none
      · rw [adjust_outside op.rhs rhsPasses rhsStops] at inside
        exact absurd rfl inside
    · simp only [adjustOperands, adjust_outside op.lhs lhsPasses lhsStops] at inside
      exact absurd rfl inside
  · intro cleanly
    by_cases tries : ∃ groups, Tried op groups
    · obtain ⟨groups, tried⟩ := tries
      have result := matchAndRewrite_tried tried
      rcases cleanly groups tried with lhsStops | ⟨lhsPasses, rhsPasses | ⟨rhsStops, none⟩⟩
      · simp only [adjustOperands, adjust_stops op.lhs lhsStops] at result
        exact ⟨by simp [result], by simp [result], by simp [result]⟩
      · simp only [adjustOperands, adjust_passes tried.2.2 op.lhs op.lhsBroadcasts lhsPasses,
          adjust_passes tried.2.2 op.rhs op.rhsBroadcasts rhsPasses] at result
        obtain ⟨lhsTarget, _, lhsSame⟩ := operand_same (α := α) tried.2.2 op.lhs op.lhsBroadcasts lhsPasses
        obtain ⟨rhsTarget, _, rhsSame⟩ := operand_same (α := α) tried.2.2 op.rhs op.rhsBroadcasts rhsPasses
        refine ⟨by simp [result], by simp [result], ?_⟩
        intro targets found
        rw [result] at found
        cases found
        -- Both targets find the positions that the operands had.
        refine ⟨_, _, rfl, lhsTarget, rhsTarget, fun combine lhs rhs lhsShape rhsShape => ⟨rfl, fun index inside => ?_⟩⟩
        have insideFinal : Inside op.finalShape index := inside
        change combine _ _ = combine _ _
        rw [lhsSame lhs lhsShape index insideFinal, rhsSame rhs rhsShape index insideFinal]
        rfl
      · simp only [adjustOperands, adjust_passes tried.2.2 op.lhs op.lhsBroadcasts lhsPasses,
          adjust_stops op.rhs rhsStops, if_pos none] at result
        exact ⟨by simp [result], by simp [result], by simp [result]⟩
    · have result := not_tried tries
      exact ⟨by simp [result], by simp [result], by simp [result]⟩

/-- Sums of which one operand is given once for both columns, and the sums become a row of tiles. -/
def partRows : ReshapedEltwise where
  eltwiseShape := [512, 2, 2]
  finalShape := [64, 32]
  hasOneUse := true
  lhs := ⟨[512, 2, 2], none, by simp⟩
  rhs := ⟨[512, 1, 2], none, by simp⟩
  volume := by decide
  lhsBroadcasts := ⟨by decide, by simp⟩
  rhsBroadcasts := ⟨by decide, by simp⟩

/-- The second operand does not fit, and the reshape of the first one stays. -/
theorem partRows_created : matchAndRewrite partRows = .failure 1 ∧ ¬ Correct Nat partRows := by
  have mapping : computeDimGroupMapping partRows.eltwiseShape partRows.finalShape = some [⟨0, 3, 0, 2⟩] := by
    simp [computeDimGroupMapping, mapDims, growGroup, partRows]
  have result : matchAndRewrite partRows = .failure 1 := by
    unfold matchAndRewrite
    rw [mapping]
    decide
  exact ⟨result, fun correct => absurd (correct.unchanged 1 result) (by decide)⟩

end Correct

end TtMlir.Ttnn.ReshapeElementwise
