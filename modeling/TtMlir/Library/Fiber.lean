import Mathlib.Data.List.Sort
import TtMlir.Library.Permute

/-!
Reductions of a tensor over some of its dims. An entry is made of a fiber: the entries whose
indices agree with it on the kept dims, in row-major order. Permuting the dims permutes every fiber,
and keeps its order exactly when the reduced dims that matter keep theirs.
-/

namespace TtMlir

open Tensor

def indices (shape : List Nat) : List (List Nat) := (List.range shape.prod).map (unflatten shape)

def fiber (shape kept out : List Nat) : List (List Nat) :=
  (indices shape).filter fun index => gather index kept = out

namespace Tensor

/-- Only the kept dims stay; each entry is made of one fiber. -/
def reduce {α β : Type} (tensor : Tensor α) (f : List α → β) (kept : List Nat) : Tensor β :=
  { shape := gather tensor.shape kept, get := fun out => f ((fiber tensor.shape kept out).map tensor.get) }

end Tensor

section RowMajorOrder

theorem flatten_lt_iff {shape left right : List Nat} (leftInside : Inside shape left)
    (rightInside : Inside shape right) : flatten shape left < flatten shape right ↔
      ∃ dim < shape.length, left.getD dim 0 < right.getD dim 0 ∧
        ∀ before < dim, left.getD before 0 = right.getD before 0 := by
  induction leftInside generalizing right with
  | nil => simp [flatten]
  | @cons x extent left shape xBelow leftRest ih =>
      cases rightInside with
      | @cons y _ right _ yBelow rightRest =>
          have leftLow := flatten_lt shape left leftRest
          have rightLow := flatten_lt shape right rightRest
          have first : ∀ a b : Nat, a < b → a * shape.prod + shape.prod ≤ b * shape.prod := by
            intro a b below
            calc a * shape.prod + shape.prod = (a + 1) * shape.prod := by ring
              _ ≤ b * shape.prod := Nat.mul_le_mul_right _ below
          simp only [flatten]
          rcases lt_trichotomy x y with less | rfl | more
          · constructor
            · intro _
              exact ⟨0, by simp, by simpa using less, by simp⟩
            · intro _
              have := first x y less
              omega
          · rw [Nat.add_lt_add_iff_left, ih rightRest]
            constructor
            · rintro ⟨dim, known, lower, same⟩
              refine ⟨dim + 1, by simpa using known, by simpa using lower, ?_⟩
              intro before earlier
              cases before with
              | zero => rfl
              | succ before => simpa using same before (by omega)
            · rintro ⟨dim, known, lower, same⟩
              cases dim with
              | zero => simp at lower
              | succ dim =>
                  refine ⟨dim, by simpa using known, by simpa using lower, fun before earlier => ?_⟩
                  simpa using same (before + 1) (by omega)
          · constructor
            · intro lower
              have := first y x more
              omega
            · rintro ⟨dim, _, lower, same⟩
              cases dim with
              | zero =>
                  simp only [List.getD_cons_zero] at lower
                  omega
              | succ dim =>
                  have := same 0 (by omega)
                  simp only [List.getD_cons_zero] at this
                  omega

theorem flatten_injective {shape left right : List Nat} (leftInside : Inside shape left)
    (rightInside : Inside shape right) (same : flatten shape left = flatten shape right) : left = right := by
  rw [← unflatten_flatten shape left leftInside, same, unflatten_flatten shape right rightInside]

theorem mem_indices {shape index : List Nat} : index ∈ indices shape ↔ Inside shape index := by
  unfold indices
  rw [List.mem_map]
  constructor
  · rintro ⟨flat, member, rfl⟩
    apply unflatten_inside
    exact List.prod_pos_iff_forall_pos_nat.mp (Nat.lt_of_le_of_lt (Nat.zero_le flat) (List.mem_range.mp member))
  · intro inside
    exact ⟨flatten shape index, List.mem_range.mpr (flatten_lt shape index inside),
      unflatten_flatten shape index inside⟩

theorem indices_sorted (shape : List Nat) :
    (indices shape).Pairwise fun left right => flatten shape left < flatten shape right := by
  unfold indices
  rw [List.pairwise_map]
  refine List.pairwise_lt_range.imp_of_mem ?_
  intro left right leftMember rightMember below
  rwa [flatten_unflatten shape left (List.mem_range.mp leftMember),
    flatten_unflatten shape right (List.mem_range.mp rightMember)]

end RowMajorOrder

section Fibers

variable {shape kept out : List Nat}

theorem mem_fiber {index : List Nat} : index ∈ fiber shape kept out ↔ Inside shape index ∧ gather index kept = out := by
  unfold fiber
  rw [List.mem_filter, mem_indices, decide_eq_true_iff]

theorem fiber_sorted (shape kept out : List Nat) :
    (fiber shape kept out).Pairwise fun left right => flatten shape left < flatten shape right :=
  (indices_sorted shape).filter _

theorem fiber_nodup (shape kept out : List Nat) : (fiber shape kept out).Nodup :=
  (fiber_sorted shape kept out).imp fun {left right} below same => by
    rw [same] at below
    exact lt_irrefl _ below

theorem eq_of_sorted {left right : List (List Nat)} (same : left.Perm right)
    (leftSorted : left.Pairwise fun a b => flatten shape a < flatten shape b)
    (rightSorted : right.Pairwise fun a b => flatten shape a < flatten shape b) : left = right := by
  refine same.eq_of_pairwise ?_ leftSorted rightSorted
  intro a b _ _ below above
  exact absurd (below.trans above) (lt_irrefl _)

end Fibers

section Permutation

variable {shape axes kept kept' chosen : List Nat}

theorem gather_back {index : List Nat} (permutes : Permutes shape.length axes) (length : index.length = shape.length) :
    gather (gather index axes) (inverse axes) = index := by
  rw [gather_gather, gather_inverse permutes, ← length, gather_range]
  intro axis member
  rw [permutes.length]
  exact (permutes.inverse.mem axis).mp member

theorem gather_forth {index : List Nat} (permutes : Permutes shape.length axes) (length : index.length = shape.length) :
    gather (gather index (inverse axes)) axes = index := by
  rw [gather_gather, inverse_gather permutes, ← length, gather_range]
  intro axis member
  rw [inverse_length, permutes.length]
  exact (permutes.mem axis).mp member

theorem inside_of_gather {index : List Nat} (permutes : Permutes shape.length axes) :
    Inside (gather shape axes) (gather index axes) → index.length = shape.length → Inside shape index := by
  intro inside length
  have back := inside.gather (inverse axes) fun axis member => by
    rw [gather_length, permutes.length]
    exact (permutes.inverse.mem axis).mp member
  rwa [gather_back permutes rfl, gather_back permutes length] at back

theorem inside_gather_inverse {index : List Nat} (permutes : Permutes shape.length axes)
    (inside : Inside (gather shape axes) index) : Inside shape (gather index (inverse axes)) := by
  refine inside_of_gather permutes ?_ (by rw [gather_length, inverse_length, permutes.length])
  rwa [gather_forth permutes (by rw [inside.length, gather_length, permutes.length])]

/-- The kept dims of a permuted tensor: `kept'` are the places of the kept dims,
`chosen` is the order they come in. -/
structure KeptBy (shape axes kept kept' chosen : List Nat) : Prop where
  permutes : Permutes shape.length axes
  order : Permutes kept.length chosen
  below : ∀ axis ∈ kept, axis < shape.length
  below' : ∀ axis ∈ kept', axis < shape.length
  same : gather kept chosen = gather axes kept'

namespace KeptBy

variable (keeps : KeptBy shape axes kept kept' chosen)
include keeps

theorem gather_kept (index : List Nat) : gather (gather index axes) kept' = gather (gather index kept) chosen := by
  rw [gather_gather _ _ _ fun axis member =>
    by rw [keeps.permutes.length]; exact keeps.below' axis member, ← keeps.same,
    gather_gather _ _ _ fun axis member => (keeps.order.mem axis).mp member]

theorem fiber_perm (out : List Nat) (size : out.length = kept.length) :
    ((fiber (gather shape axes) kept' (gather out chosen)).map fun index => gather index (inverse axes)).Perm
      (fiber shape kept out) := by
  have permutes := keeps.permutes
  have lengths : ∀ index, Inside (gather shape axes) index → index.length = shape.length := by
    intro index inside
    rw [inside.length, gather_length, permutes.length]
  have nodup : ((fiber (gather shape axes) kept' (gather out chosen)).map fun index =>
      gather index (inverse axes)).Nodup := by
    refine List.Nodup.map_on ?_ (fiber_nodup _ _ _)
    intro left leftMember right rightMember same
    rw [← gather_forth permutes (lengths left (mem_fiber.mp leftMember).1), same,
      gather_forth permutes (lengths right (mem_fiber.mp rightMember).1)]
  rw [List.perm_ext_iff_of_nodup nodup (fiber_nodup _ _ _)]
  intro index
  rw [List.mem_map, mem_fiber]
  constructor
  · rintro ⟨moved, member, rfl⟩
    obtain ⟨inside, agrees⟩ := mem_fiber.mp member
    have length := lengths moved inside
    have forth := gather_forth permutes length
    constructor
    · refine inside_of_gather permutes (by rwa [forth]) ?_
      rw [gather_length, inverse_length, permutes.length]
    · have chosenSame := keeps.gather_kept (gather moved (inverse axes))
      rw [forth, agrees] at chosenSame
      have back : ∀ values : List Nat, values.length = kept.length →
          gather (gather values chosen) (inverse chosen) = values :=
        fun _ => gather_back keeps.order
      rw [← back _ (gather_length _ _), ← chosenSame, back out size]
  · rintro ⟨inside, rfl⟩
    refine ⟨gather index axes, mem_fiber.mpr ⟨?_, keeps.gather_kept index⟩, gather_back permutes inside.length⟩
    exact inside.gather axes fun axis member => (permutes.mem axis).mp member

end KeptBy

/-- The dims that are not kept, apart from those of extent 1, stay in order. -/
def KeepsOrder (shape axes kept' : List Nat) : Prop :=
  ∀ left right, left < right → right < shape.length → left ∉ kept' → right ∉ kept' →
    1 < (gather shape axes).getD left 0 → 1 < (gather shape axes).getD right 0 →
    axes.getD left 0 < axes.getD right 0

theorem getD_gather_inverse (permutes : Permutes shape.length axes) (index : List Nat) (dim : Nat)
    (known : dim < shape.length) :
    (gather index (inverse axes)).getD (axes.getD dim 0) 0 = index.getD dim 0 := by
  rw [gather_getD _ _ _ (by rw [inverse_length, permutes.length]; exact permutes.getD_lt dim known),
    inverse_getD permutes _ (permutes.getD_lt dim known), permutes.idxOf_getD dim known]

theorem exists_getD (permutes : Permutes shape.length axes) (axis : Nat) (known : axis < shape.length) :
    ∃ dim < shape.length, axes.getD dim 0 = axis :=
  ⟨axes.idxOf axis, permutes.idxOf_lt axis known, permutes.getD_idxOf axis known⟩

theorem KeepsOrder.flatten_lt (ordered : KeepsOrder shape axes kept') (permutes : Permutes shape.length axes)
    {out left right : List Nat} (leftMember : left ∈ fiber (gather shape axes) kept' out)
    (rightMember : right ∈ fiber (gather shape axes) kept' out)
    (lower : flatten (gather shape axes) left < flatten (gather shape axes) right) :
    flatten shape (gather left (inverse axes)) < flatten shape (gather right (inverse axes)) := by
  obtain ⟨leftInside, leftKept⟩ := mem_fiber.mp leftMember
  obtain ⟨rightInside, rightKept⟩ := mem_fiber.mp rightMember
  have rank : (gather shape axes).length = shape.length := by rw [gather_length, permutes.length]
  obtain ⟨dim, known, less, same⟩ := (flatten_lt_iff leftInside rightInside).mp lower
  rw [rank] at known
  -- A dim that differs is reduced and has two positions or more.
  have differs : ∀ other < shape.length, left.getD other 0 ≠ right.getD other 0 →
      other ∉ kept' ∧ 1 < (gather shape axes).getD other 0 := by
    intro other inRank different
    have leftBound := leftInside.getD_lt other (by rwa [rank])
    have rightBound := rightInside.getD_lt other (by rwa [rank])
    refine ⟨fun member => different ?_, by omega⟩
    have agree := leftKept.trans rightKept.symm
    unfold gather at agree
    exact List.map_inj_left.mp agree other member
  rw [flatten_lt_iff (inside_gather_inverse permutes leftInside) (inside_gather_inverse permutes rightInside)]
  refine ⟨axes.getD dim 0, permutes.getD_lt dim known, ?_, ?_⟩
  · rwa [getD_gather_inverse permutes left dim known, getD_gather_inverse permutes right dim known]
  · intro before earlier
    obtain ⟨other, inRank, rfl⟩ := exists_getD permutes before (earlier.trans (permutes.getD_lt dim known))
    rw [getD_gather_inverse permutes left other inRank, getD_gather_inverse permutes right other inRank]
    by_contra different
    obtain ⟨dimReduced, dimWide⟩ := differs dim known (by omega)
    obtain ⟨otherReduced, otherWide⟩ := differs other inRank different
    rcases lt_trichotomy dim other with after | rfl | ahead
    · have := ordered dim other after inRank dimReduced otherReduced dimWide otherWide
      omega
    · exact lt_irrefl _ earlier
    · exact different (same other ahead)

def unitIndex (rank dim : Nat) : List Nat := (List.replicate rank 0).set dim 1

theorem unitIndex_getD (rank dim : Nat) (known : dim < rank) (other : Nat) :
    (unitIndex rank dim).getD other 0 = if other = dim then 1 else 0 := by
  unfold unitIndex
  rw [List.getD_eq_getElem?_getD, List.getElem?_set]
  by_cases same : dim = other
  · subst same
    simp [known]
  · rw [if_neg same, if_neg (Ne.symm same), List.getElem?_replicate]
    split <;> rfl

theorem replicate_inside (shape : List Nat) (positive : ∀ extent ∈ shape, 0 < extent) :
    Inside shape (List.replicate shape.length 0) := by
  induction shape with
  | nil => exact List.Forall₂.nil
  | cons extent shape ih =>
      exact List.Forall₂.cons (positive extent List.mem_cons_self)
        (ih fun other member => positive other (List.mem_cons_of_mem _ member))

theorem unitIndex_inside (shape : List Nat) (positive : ∀ extent ∈ shape, 0 < extent) (dim : Nat)
    (wide : 1 < shape.getD dim 0) : Inside shape (unitIndex shape.length dim) :=
  (replicate_inside shape positive).set dim 1 fun _ => wide

theorem gather_zeros (values axes : List Nat) (zero : ∀ axis ∈ axes, values.getD axis 0 = 0) :
    gather values axes = List.replicate axes.length 0 := by
  unfold gather
  rw [List.eq_replicate_iff]
  refine ⟨List.length_map _, fun value member => ?_⟩
  obtain ⟨axis, inAxes, rfl⟩ := List.mem_map.mp member
  exact zero axis inAxes

theorem pairwise_of_lt {α : Type} {list : List α} {key : α → Nat} {related : α → α → Prop}
    (sorted : list.Pairwise fun a b => key a < key b) (relations : list.Pairwise related) {first second : α}
    (firstMember : first ∈ list) (secondMember : second ∈ list) (before : key first < key second) :
    related first second := by
  obtain ⟨i, iKnown, rfl⟩ := List.getElem_of_mem firstMember
  obtain ⟨j, jKnown, rfl⟩ := List.getElem_of_mem secondMember
  rw [List.pairwise_iff_getElem] at sorted relations
  rcases lt_trichotomy i j with earlier | rfl | later
  · exact relations i j iKnown jKnown earlier
  · exact absurd before (lt_irrefl _)
  · exact absurd (before.trans (sorted j i jKnown iKnown later)) (lt_irrefl _)

namespace KeptBy

variable (keeps : KeptBy shape axes kept kept' chosen)
include keeps

theorem fiber_eq (ordered : KeepsOrder shape axes kept') (out : List Nat) (size : out.length = kept.length) :
    ((fiber (gather shape axes) kept' (gather out chosen)).map fun index => gather index (inverse axes)) =
      fiber shape kept out := by
  refine eq_of_sorted (keeps.fiber_perm out size) ?_ (fiber_sorted shape kept out)
  rw [List.pairwise_map]
  refine (fiber_sorted _ _ _).imp_of_mem ?_
  intro left right leftMember rightMember lower
  exact ordered.flatten_lt keeps.permutes leftMember rightMember lower

theorem fiber_ne (positive : ∀ extent ∈ shape, 0 < extent) (disordered : ¬ KeepsOrder shape axes kept') :
    ((fiber (gather shape axes) kept' (gather (List.replicate kept.length 0) chosen)).map fun index =>
      gather index (inverse axes)) ≠ fiber shape kept (List.replicate kept.length 0) := by
  intro equal
  unfold KeepsOrder at disordered
  push Not at disordered
  -- two reduced dims that the permutation swaps
  obtain ⟨left, right, before, known, leftReduced, rightReduced, leftWide, rightWide, swapped⟩ := disordered
  have permutes := keeps.permutes
  have rank : (gather shape axes).length = shape.length := by rw [gather_length, permutes.length]
  have positive' : ∀ extent ∈ gather shape axes, 0 < extent := by
    intro extent member
    obtain ⟨axis, inAxes, rfl⟩ := List.mem_map.mp member
    have axisKnown := (permutes.mem axis).mp inAxes
    rw [List.getD_eq_getElem _ _ axisKnown]
    exact positive _ (List.getElem_mem axisKnown)
  have apart : axes.getD right 0 < axes.getD left 0 := by
    refine lt_of_le_of_ne swapped fun same => ?_
    have := permutes.getD_injective right left known (before.trans known) same
    omega
  have sizes : chosen.length = kept'.length := by
    have := congrArg List.length keeps.same
    rwa [gather_length, gather_length] at this
  -- a single step along either dim lies in the fiber
  have member : ∀ dim < shape.length, dim ∉ kept' → 1 < (gather shape axes).getD dim 0 →
      unitIndex (gather shape axes).length dim ∈
        fiber (gather shape axes) kept' (gather (List.replicate kept.length 0) chosen) := by
    intro dim dimKnown reduced wide
    refine mem_fiber.mpr ⟨unitIndex_inside _ positive' dim wide, ?_⟩
    rw [gather_zeros _ kept', gather_zeros _ chosen, sizes]
    · intro axis _
      rw [List.getD_eq_getElem?_getD, List.getElem?_replicate]
      split <;> rfl
    · intro axis inKept
      rw [unitIndex_getD _ _ (by rwa [rank]), if_neg]
      rintro rfl
      exact reduced inKept
  have leftMember := member left (before.trans known) leftReduced leftWide
  have rightMember := member right known rightReduced rightWide
  have leftEntry := unitIndex_getD (gather shape axes).length left (by omega)
  have rightEntry := unitIndex_getD (gather shape axes).length right (by omega)
  -- before the permutation the step along `right` comes first
  have lower : flatten (gather shape axes) (unitIndex (gather shape axes).length right) <
      flatten (gather shape axes) (unitIndex (gather shape axes).length left) := by
    rw [flatten_lt_iff (mem_fiber.mp rightMember).1 (mem_fiber.mp leftMember).1]
    refine ⟨left, by omega, ?_, fun other earlier => ?_⟩
    · rw [leftEntry, rightEntry, if_pos rfl, if_neg (by omega)]
      exact Nat.one_pos
    · rw [leftEntry, rightEntry, if_neg (by omega), if_neg (by omega)]
  have sorted := fiber_sorted shape kept (List.replicate kept.length 0)
  rw [← equal, List.pairwise_map] at sorted
  have kept := pairwise_of_lt (fiber_sorted _ _ _) sorted rightMember leftMember lower
  -- after it the step along `left` does
  have upper : flatten shape (gather (unitIndex (gather shape axes).length left) (inverse axes)) <
      flatten shape (gather (unitIndex (gather shape axes).length right) (inverse axes)) := by
    rw [flatten_lt_iff (inside_gather_inverse permutes (mem_fiber.mp leftMember).1)
      (inside_gather_inverse permutes (mem_fiber.mp rightMember).1)]
    refine ⟨axes.getD right 0, permutes.getD_lt right known, ?_, fun other earlier => ?_⟩
    · rw [getD_gather_inverse permutes _ right known, getD_gather_inverse permutes _ right known, leftEntry,
        rightEntry, if_pos rfl, if_neg (by omega)]
      exact Nat.one_pos
    · obtain ⟨place, inRank, rfl⟩ := exists_getD permutes other (earlier.trans (permutes.getD_lt right known))
      rw [getD_gather_inverse permutes _ place inRank, getD_gather_inverse permutes _ place inRank, leftEntry,
        rightEntry, if_neg, if_neg]
      · rintro rfl
        exact lt_irrefl _ earlier
      · rintro rfl
        omega
  exact lt_irrefl _ (kept.trans upper)

end KeptBy

end Permutation

namespace Tensor

variable {α β : Type} {tensor : Tensor α} {axes kept kept' chosen : List Nat}

section
variable (keeps : KeptBy tensor.shape axes kept kept' chosen) (f : List α → β)
include keeps

/-- Reducing a permuted tensor permutes the reduction, where the entries made of matching fibers agree. -/
theorem reduce_permute (agree : ∀ out, out.length = kept.length →
      f (((fiber (gather tensor.shape axes) kept' (gather out chosen)).map fun index =>
        gather index (inverse axes)).map tensor.get) = f ((fiber tensor.shape kept out).map tensor.get)) :
    Same ((tensor.permute axes).reduce f kept') ((tensor.reduce f kept).permute chosen) := by
  have shape : gather (gather tensor.shape axes) kept' = gather (gather tensor.shape kept) chosen :=
    keeps.gather_kept tensor.shape
  constructor
  · exact shape
  · intro index inside
    have length : index.length = kept.length := by
      rw [inside.length]
      exact (congrArg List.length shape).trans ((gather_length _ _).trans keeps.order.length)
    have forth : gather (gather index (inverse chosen)) chosen = index :=
      gather_forth keeps.order length
    have here := agree (gather index (inverse chosen)) (by rw [gather_length, inverse_length, keeps.order.length])
    rw [forth, List.map_map] at here
    exact here

/-- A function that does not look at the order of a fiber commutes with every permutation. -/
theorem reduce_permute_symmetric (symmetric : ∀ left right : List α, left.Perm right → f left = f right) :
    Same ((tensor.permute axes).reduce f kept') ((tensor.reduce f kept).permute chosen) :=
  reduce_permute keeps f fun out size => symmetric _ _ ((keeps.fiber_perm out size).map _)

theorem reduce_permute_ordered (ordered : KeepsOrder tensor.shape axes kept') :
    Same ((tensor.permute axes).reduce f kept') ((tensor.reduce f kept).permute chosen) :=
  reduce_permute keeps f fun out size => by rw [keeps.fiber_eq ordered out size]

theorem reduce_permute_empty (empty : 0 ∈ tensor.shape) :
    Same ((tensor.permute axes).reduce f kept') ((tensor.reduce f kept).permute chosen) := by
  refine reduce_permute keeps f fun out size => ?_
  have none : fiber tensor.shape kept out = [] := by
    rw [List.eq_nil_iff_forall_not_mem]
    intro index member
    have inside := (mem_fiber.mp member).1
    obtain ⟨dim, known, zero⟩ := List.getElem_of_mem empty
    have below := inside.getD_lt dim known
    rw [List.getD_eq_getElem _ _ known, zero] at below
    exact Nat.not_lt_zero _ below
  have perm := keeps.fiber_perm out size
  rw [none] at perm
  rw [none, perm.eq_nil]

end

end Tensor

section FirstMax

variable {α : Type} [LinearOrder α]

def firstMax (values : List α) : Nat := values.findIdx fun value => values.all fun other => decide (other ≤ value)

theorem firstMax_indicator {β : Type} [DecidableEq β] {low high : α} (less : low < high) (list : List β) (chosen : β)
    (member : chosen ∈ list) : firstMax (list.map fun entry => if entry = chosen then high else low) =
      list.idxOf chosen := by
  unfold firstMax List.idxOf
  rw [List.findIdx_map]
  congr 1
  funext entry
  by_cases same : entry = chosen
  · subst same
    simp only [Function.comp_apply, if_pos, List.all_map, List.all_eq_true, BEq.rfl, decide_eq_true_eq]
    intro other _
    split
    · exact le_rfl
    · exact less.le
  · simp only [Function.comp_apply, if_neg same, List.all_map]
    rw [beq_false_of_ne same, Bool.eq_false_iff]
    intro all
    have := List.all_eq_true.mp all chosen member
    simp only [Function.comp_apply, if_pos, decide_eq_true_eq] at this
    exact absurd less (not_lt_of_ge this)

theorem exists_firstMax_ne {β : Type} [DecidableEq β] {low high : α} (less : low < high) {left right : List β}
    (same : left.Perm right) (nodup : right.Nodup) (different : left ≠ right) :
    ∃ chosen, firstMax (left.map fun entry => if entry = chosen then high else low) ≠
      firstMax (right.map fun entry => if entry = chosen then high else low) := by
  by_contra none
  push Not at none
  apply different
  apply List.ext_getElem same.length_eq
  intro position inLeft inRight
  have member : right[position] ∈ left := same.mem_iff.mpr (List.getElem_mem inRight)
  have equal := none right[position]
  rw [firstMax_indicator less left _ member, firstMax_indicator less right _ (List.getElem_mem inRight)] at equal
  have located : right.idxOf right[position] = position := nodup.idxOf_getElem position inRight
  have inside := List.idxOf_lt_length_of_mem member
  have found := List.getElem_idxOf inside
  simp only [equal, located] at found
  exact found

end FirstMax

end TtMlir
