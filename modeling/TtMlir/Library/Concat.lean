import TtMlir.Library.Reshape

/-!
Tensors one after the other along a dim. Permutes and reshapes of all parts give
the permute or the reshape of the whole.
-/

namespace TtMlir

/-- The part that holds a position of parts one after the other, and the position in it;
`remaining` parts are left from `first` on. -/
def locate (sizes : Nat → Nat) (first : Nat) : Nat → Nat → Nat × Nat
  | 0, position => (first, position)
  | remaining + 1, position =>
      if position < sizes first then (first, position)
      else locate sizes (first + 1) remaining (position - sizes first)

theorem locate_spec (sizes : Nat → Nat) (first remaining position : Nat)
    (inside : position < ((List.range remaining).map fun number => sizes (first + number)).sum) :
    (locate sizes first remaining position).1 < first + remaining ∧
      (locate sizes first remaining position).2 < sizes (locate sizes first remaining position).1 := by
  induction remaining generalizing first position with
  | zero => simp at inside
  | succ remaining ih =>
      rw [locate]
      split
      next here => exact ⟨by omega, here⟩
      next beyond =>
        rw [List.range_succ_eq_map, List.map_cons, List.sum_cons, List.map_map] at inside
        have rest := ih (first + 1) (position - sizes first) (by
          have shifted : (fun number => sizes (first + 1 + number)) =
              (fun number => sizes (first + number)) ∘ Nat.succ := by
            funext number
            rw [Function.comp_apply, Nat.succ_eq_add_one, Nat.add_assoc, Nat.add_comm 1]
          rw [shifted]
          rw [Nat.add_zero] at inside
          omega)
        exact ⟨by omega, rest.2⟩

theorem locate_congr (left right : Nat → Nat) (first remaining position : Nat)
    (same : ∀ number, number < first + remaining → left number = right number) :
    locate left first remaining position = locate right first remaining position := by
  induction remaining generalizing first position with
  | zero => rfl
  | succ remaining ih =>
      rw [locate, locate, same first (by omega), ih (first + 1) _ fun number below => same number (by omega)]

def Stackable (count : Nat) (shapes : Nat → List Nat) (dim : Nat) : Prop :=
  dim < (shapes 0).length ∧ ∀ number < count, shapes number = (shapes 0).set dim ((shapes number).getD dim 0)

theorem Stackable.congr {count : Nat} {left right : Nat → List Nat} {dim : Nat} (stackable : Stackable count left dim)
    (positive : 0 < count) (same : ∀ number < count, right number = left number) : Stackable count right dim := by
  constructor
  · rw [same 0 positive]
    exact stackable.1
  · intro number below
    rw [same number below, same 0 positive]
    exact stackable.2 number below

theorem Stackable.length {count : Nat} {shapes : Nat → List Nat} {dim : Nat} (stackable : Stackable count shapes dim)
    (number : Nat) (below : number < count) : (shapes number).length = (shapes 0).length := by
  rw [stackable.2 number below, List.length_set]

def stackedExtent (count : Nat) (shapes : Nat → List Nat) (dim : Nat) : Nat :=
  ((List.range count).map fun number => (shapes number).getD dim 0).sum

theorem stackedExtent_congr (count : Nat) (left right : Nat → List Nat) (dim other : Nat)
    (same : ∀ number < count, (left number).getD dim 0 = (right number).getD other 0) :
    stackedExtent count left dim = stackedExtent count right other :=
  congrArg List.sum (List.map_congr_left fun number member => same number (List.mem_range.mp member))

namespace Tensor
variable {α : Type}

def concat (count : Nat) (parts : Nat → Tensor α) (dim : Nat) : Tensor α :=
  { shape := (parts 0).shape.set dim (stackedExtent count (fun number => (parts number).shape) dim)
    get := fun index =>
      let found := locate (fun number => (parts number).extent dim) 0 count (index.getD dim 0)
      (parts found.1).get (index.set dim found.2) }

section Concat
variable (count : Nat) (parts : Nat → Tensor α) (dim : Nat)

def partOf (index : List Nat) : Nat × Nat := locate (fun number => (parts number).extent dim) 0 count (index.getD dim 0)

theorem concat_get (index : List Nat) : (concat count parts dim).get index =
    (parts (partOf count parts dim index).1).get (index.set dim (partOf count parts dim index).2) := rfl

variable (stackable : Stackable count (fun number => (parts number).shape) dim)
include stackable

theorem partOf_inside (index : List Nat) (inside : Inside (concat count parts dim).shape index) :
    (partOf count parts dim index).1 < count ∧
      (partOf count parts dim index).2 < (parts (partOf count parts dim index).1).extent dim ∧
      Inside (parts (partOf count parts dim index).1).shape (index.set dim (partOf count parts dim index).2) := by
  have known : dim < (parts 0).shape.length := stackable.1
  have below := inside.getD_lt dim (by simpa [concat] using known)
  rw [show (concat count parts dim).shape = (parts 0).shape.set dim _ from rfl, getD_set_self _ _ _ known] at below
  have spec := locate_spec (fun number => (parts number).extent dim) 0 count (index.getD dim 0) (by
    simp only [Nat.zero_add]
    exact below)
  rw [Nat.zero_add] at spec
  refine ⟨spec.1, spec.2, ?_⟩
  have moved := inside.modify dim ((parts (partOf count parts dim index).1).extent dim)
    (fun _ => (partOf count parts dim index).2) fun _ => spec.2
  rw [← List.set_eq_modify, show (concat count parts dim).shape = (parts 0).shape.set dim _ from rfl, List.set_set] at moved
  have shape : (parts (partOf count parts dim index).1).shape =
      (parts 0).shape.set dim ((parts (partOf count parts dim index).1).extent dim) := stackable.2 _ spec.1
  rw [shape]
  exact moved

end Concat

theorem concat_congr (count : Nat) (left right : Nat → Tensor α) (dim : Nat) (positive : 0 < count)
    (stackable : Stackable count (fun number => (left number).shape) dim)
    (same : ∀ number < count, Same (left number) (right number)) :
    Same (concat count left dim) (concat count right dim) := by
  have extents : ∀ number < count, (left number).extent dim = (right number).extent dim := fun number below => by
    rw [extent, extent, (same number below).1]
  constructor
  · change (left 0).shape.set dim _ = (right 0).shape.set dim _
    rw [(same 0 positive).1, stackedExtent_congr count _ (fun number => (right number).shape) dim dim extents]
  · intro index inside
    have found := partOf_inside count left dim stackable index inside
    have part : partOf count left dim index = partOf count right dim index :=
      locate_congr _ _ 0 count _ fun number below => extents number (by omega)
    rw [concat_get, concat_get, ← part]
    exact (same _ found.1).2 _ found.2.2

section Permute
variable {rank : Nat} {axes : List Nat}

theorem permute_extent (tensor : Tensor α) (permutes : Permutes rank axes) (dim : Nat) (known : dim < rank) :
    (tensor.permute axes).extent (axes.idxOf dim) = tensor.extent dim := by
  change (gather tensor.shape axes).getD _ 0 = _
  rw [gather_getD _ _ _ (by rw [permutes.length]; exact permutes.idxOf_lt dim known), permutes.getD_idxOf dim known]
  rfl

theorem gather_set (permutes : Permutes rank axes) (values : List Nat) (length : values.length = rank) (dim value : Nat)
    (known : dim < rank) : gather (values.set dim value) axes = (gather values axes).set (axes.idxOf dim) value := by
  apply ext_getD 0
  · rw [gather_length, List.length_set, gather_length]
  · intro position inside
    rw [gather_length, permutes.length] at inside
    have located := permutes.idxOf_lt dim known
    rw [gather_getD _ _ _ (by rwa [permutes.length])]
    by_cases here : position = axes.idxOf dim
    · subst here
      rw [permutes.getD_idxOf dim known, getD_set_self _ _ _ (by rwa [length]),
        getD_set_self _ _ _ (by rwa [gather_length, permutes.length])]
    · have apart : dim ≠ axes.getD position 0 := by
        rintro rfl
        exact here (permutes.idxOf_getD position inside).symm
      rw [getD_set_other _ _ _ _ apart, getD_set_other _ _ _ _ (Ne.symm here),
        gather_getD _ _ _ (by rwa [permutes.length])]

theorem inverse_idxOf (permutes : Permutes rank axes) (dim : Nat) (known : dim < rank) :
    (inverse axes).idxOf (axes.idxOf dim) = dim := by
  have located := permutes.inverse.idxOf_getD dim known
  rwa [inverse_getD permutes dim known] at located

theorem concat_permute (count : Nat) (parts : Nat → Tensor α) (dim : Nat)
    (stackable : Stackable count (fun number => (parts number).shape) dim)
    (permutes : Permutes (parts 0).shape.length axes) :
    Same (concat count (fun number => (parts number).permute axes) (axes.idxOf dim))
      ((concat count parts dim).permute axes) := by
  have known : dim < (parts 0).shape.length := stackable.1
  have extents : ∀ number, ((parts number).permute axes).extent (axes.idxOf dim) = (parts number).extent dim :=
    fun number => permute_extent _ permutes dim known
  constructor
  · change (gather (parts 0).shape axes).set (axes.idxOf dim) _ = gather ((parts 0).shape.set dim _) axes
    rw [gather_set permutes _ rfl dim _ known]
    exact congrArg _ (stackedExtent_congr count _ _ _ dim fun number _ => extents number)
  · intro index inside
    have length : index.length = (parts 0).shape.length := by
      rw [inside.length]
      change ((gather (parts 0).shape axes).set _ _).length = _
      rw [List.length_set, gather_length, permutes.length]
    have position : index.getD (axes.idxOf dim) 0 = (gather index (inverse axes)).getD dim 0 := by
      rw [gather_getD _ _ _ (by rwa [inverse_length, permutes.length]), inverse_getD permutes dim known]
    have part : partOf count (fun number => (parts number).permute axes) (axes.idxOf dim) index =
        partOf count parts dim (gather index (inverse axes)) := by
      rw [partOf, partOf, position]
      exact locate_congr _ _ 0 count _ fun number _ => extents number
    change _ = (concat count parts dim).get (gather index (inverse axes))
    rw [concat_get, concat_get, part]
    change (parts _).get (gather (index.set _ _) (inverse axes)) = _
    rw [gather_set permutes.inverse _ length _ _ (permutes.idxOf_lt dim known), inverse_idxOf permutes dim known]

end Permute

section Reshape
variable (front back front' back' : List Nat)

theorem reshape_middle_get (tensor : Tensor α) (size : Nat) (left right : List Nat) (position : Nat)
    (shape : tensor.shape = front ++ size :: back) (volume : back.prod = back'.prod)
    (length : left.length = front'.length)
    (here : position < size) (inside : Inside back' right) :
    (tensor.reshape (front' ++ size :: back')).get (left ++ position :: right) =
      tensor.get (unflatten front (flatten front' left) ++ position :: unflatten back (flatten back' right)) := by
  have below := flatten_lt back' right inside
  rw [reshape_append_get tensor front (size :: back) front' (size :: back') left (position :: right) shape
    (by rw [List.prod_cons, List.prod_cons, volume]) length (List.Forall₂.cons here inside), flatten, ← volume,
    unflatten_cons _ _ _ _ here (by omega)]

theorem concat_reshape (count : Nat) (parts : Nat → Tensor α) (sizes : Nat → Nat) (positive : 0 < count)
    (shapes : ∀ number < count, (parts number).shape = front ++ sizes number :: back)
    (backVolume : back.prod = back'.prod) :
    Same (concat count (fun number => (parts number).reshape (front' ++ sizes number :: back')) front'.length)
      ((concat count parts front.length).reshape (front' ++ stackedExtent count (fun number => (parts number).shape)
        front.length :: back')) := by
  have extents : ∀ number < count, (parts number).extent front.length = sizes number := fun number below => by
    rw [extent, shapes number below, getD_middle]
  have extents' : ∀ number, ((parts number).reshape (front' ++ sizes number :: back')).extent front'.length =
      sizes number := fun number => getD_middle _ _ _
  have wholeShape : (concat count parts front.length).shape =
      front ++ stackedExtent count (fun number => (parts number).shape) front.length :: back := by
    change (parts 0).shape.set _ _ = _
    rw [shapes 0 positive, set_middle]
  have total : stackedExtent count (fun number => ((parts number).reshape (front' ++ sizes number :: back')).shape)
      front'.length = stackedExtent count (fun number => (parts number).shape) front.length :=
    stackedExtent_congr count _ _ _ _ fun number below => (extents' number).trans (extents number below).symm
  have shape' : (concat count (fun number => (parts number).reshape (front' ++ sizes number :: back'))
      front'.length).shape = front' ++
        stackedExtent count (fun number => (parts number).shape) front.length :: back' := by
    change (front' ++ sizes 0 :: back').set _ _ = _
    rw [set_middle, total]
  constructor
  · exact shape'
  · intro index inside
    have stackable : Stackable count (fun number => ((parts number).reshape (front' ++ sizes number :: back')).shape)
        front'.length := by
      refine ⟨by simp [reshape], fun number _ => ?_⟩
      change front' ++ sizes number :: back' =
        (front' ++ sizes 0 :: back').set _ ((front' ++ sizes number :: back').getD _ 0)
      rw [getD_middle, set_middle]
    obtain ⟨partKnown, partBelow, -⟩ := partOf_inside count _ _ stackable index inside
    rw [shape'] at inside
    obtain ⟨left, position, right, rfl, before, here, after⟩ := inside.split
    have leftLength := before.length
    rw [reshape_middle_get front back front' back' _ _ left right position wholeShape backVolume leftLength here after]
    have outerLength : (unflatten front (flatten front' left)).length = front.length := unflatten_length _ _
    have part : partOf count (fun number => (parts number).reshape (front' ++ sizes number :: back')) front'.length
        (left ++ position :: right) = partOf count parts front.length
          (unflatten front (flatten front' left) ++ position :: unflatten back (flatten back' right)) := by
      rw [partOf, partOf, ← leftLength, ← outerLength, getD_middle, getD_middle, leftLength, outerLength]
      exact locate_congr _ _ 0 count _ fun number below => (extents' number).trans (extents number (by omega)).symm
    rw [extents'] at partBelow
    rw [concat_get, concat_get, ← part]
    generalize partOf count _ _ (left ++ position :: right) = found at partKnown partBelow
    rw [← leftLength, set_middle]
    conv_rhs => rw [← outerLength, set_middle]
    exact reshape_middle_get front back front' back' _ _ left right found.2 (shapes _ partKnown) backVolume leftLength
      partBelow after

end Reshape

end Tensor

end TtMlir
