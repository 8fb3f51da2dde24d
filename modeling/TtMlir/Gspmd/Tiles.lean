import TtMlir.Gspmd.Text

/-!
The tiles that an assignment gives its devices against the mesh coordinates that
are read. Dims of one tile carry no position, so a device has at most two
coordinates that matter; the mesh numbers the devices either along the tiles or
across them.
-/

namespace TtMlir.Gspmd

def TileAssignment.tile (assignment : TileAssignment) (dim position : Nat) : Nat :=
  (unflatten assignment.dims position).getD dim 0

def TileAssignment.tiles (assignment : TileAssignment) : List Nat :=
  tensorDims assignment.dims assignment.lastTileDimReplicate

def meshCoordinate (meshShape shardDims : List Int) (dim device : Nat) : Nat :=
  match shardDims.findIdx? fun shardDim => decide (shardDim = (dim : Int)) with
  | some meshDim => (unflatten (meshShape.map Int.toNat) device).getD meshDim 0
  | none => 0

/-- Every device has the coordinates that its tile asks for. -/
def TileAssignment.ReadAs (assignment : TileAssignment) (sharding : GSPMDMeshSharding) : Prop :=
  ∀ position < assignment.dims.prod, ∀ dim < assignment.tiles.length, assignment.tile dim position =
    meshCoordinate sharding.meshShape sharding.shardDims dim (assignment.order.deviceAt position)

section Units

theorem unflatten_units (count flat : Nat) : unflatten (List.replicate count 1) flat = List.replicate count 0 := by
  induction count with
  | zero => rfl
  | succ count ih => rw [List.replicate_succ, List.replicate_succ, unflatten, ih, Nat.mod_one]

theorem getD_units (count : Nat) (rest : List Nat) (dim : Nat) :
    (List.replicate count 0 ++ rest).getD dim 0 = if dim < count then 0 else rest.getD (dim - count) 0 := by
  split
  · rename_i inside
    rw [List.getD_append _ _ _ _ (by rwa [List.length_replicate]), List.getD_replicate _ inside]
  · rename_i beyond
    rw [List.getD_append_right _ _ _ _ (by rw [List.length_replicate]; omega), List.length_replicate]

theorem split_units (sizes : List Nat) (size : Nat) (others : List Nat)
    (found : sizes.filter (· ≠ 1) = size :: others) :
    ∃ count rest, sizes = List.replicate count 1 ++ size :: rest ∧ rest.filter (· ≠ 1) = others ∧ size ≠ 1 := by
  induction sizes with
  | nil => cases found
  | cons first rest ih =>
      by_cases unit : first = 1
      · rw [List.filter_cons_of_neg (by simp [unit])] at found
        obtain ⟨count, tail, same, filtered, notUnit⟩ := ih found
        refine ⟨count + 1, tail, ?_, filtered, notUnit⟩
        rw [List.replicate_succ, List.cons_append, ← same, unit]
      · rw [List.filter_cons_of_pos (by simp [unit])] at found
        cases found
        exact ⟨0, rest, rfl, rfl, unit⟩

theorem all_units (sizes : List Nat) (none : sizes.filter (· ≠ 1) = []) :
    sizes = List.replicate sizes.length 1 := by
  apply List.eq_replicate_of_mem
  intro size member
  by_contra notUnit
  have kept : size ∈ sizes.filter (· ≠ 1) := List.mem_filter.mpr ⟨member, by simpa using notUnit⟩
  rw [none] at kept
  cases kept

end Units

section Tiles
variable (count between after dim position : Nat) (tail : List Nat)

theorem tile_none (inside : dim < count) : (unflatten (List.replicate count 1 ++ tail) position).getD dim 0 = 0 := by
  rw [unflatten_append, unflatten_units, getD_units, if_pos inside]

theorem tile_one (size : Nat) (inside : dim < count + (1 + after)) :
    (unflatten ((List.replicate count 1 ++ size :: List.replicate after 1) ++ tail) position).getD dim 0 =
      if dim = count then position / tail.prod % size else 0 := by
  rw [unflatten_append, unflatten_append, unflatten_units, unflatten, unflatten_units, List.append_assoc, getD_units,
    List.prod_replicate, one_pow, Nat.div_one]
  by_cases before : dim < count
  · rw [if_pos before, if_neg (Nat.ne_of_lt before)]
  · rw [if_neg before]
    by_cases here : dim = count
    · rw [if_pos here, here, Nat.sub_self]
      rfl
    · obtain ⟨later, shifted⟩ : ∃ later, dim - count = later + 1 := ⟨dim - count - 1, by omega⟩
      rw [if_neg here, shifted, List.cons_append, List.getD_cons_succ, getD_units, if_pos (by omega)]

theorem tile_two (size second : Nat) (inside : dim < count + (1 + (between + (1 + after)))) :
    (unflatten ((List.replicate count 1 ++ size :: (List.replicate between 1 ++ second :: List.replicate after 1)) ++
        tail) position).getD dim 0 =
      if dim = count then position / tail.prod / second % size
      else if dim = count + 1 + between then position / tail.prod % second else 0 := by
  have product : (List.replicate between 1 ++ second :: List.replicate after 1).prod = second := by
    rw [List.prod_append, List.prod_cons, List.prod_replicate, List.prod_replicate, one_pow, one_pow, one_mul, mul_one]
  rw [unflatten_append, unflatten_append, unflatten_units, unflatten, product, List.append_assoc, getD_units]
  by_cases before : dim < count
  · rw [if_pos before, if_neg (Nat.ne_of_lt before), if_neg (by omega)]
  · rw [if_neg before]
    by_cases here : dim = count
    · rw [if_pos here, here, Nat.sub_self]
      rfl
    · obtain ⟨later, shifted⟩ : ∃ later, dim - count = later + 1 := ⟨dim - count - 1, by omega⟩
      have rest := tile_one between after later (position / tail.prod) [] second (by omega)
      rw [List.append_nil, List.prod_nil, Nat.div_one] at rest
      have length : (unflatten (List.replicate between 1 ++ second :: List.replicate after 1)
          (position / tail.prod)).length = between + (1 + after) := by
        rw [unflatten_append, unflatten, unflatten_units, unflatten_units, List.length_append, List.length_cons,
          List.length_replicate, List.length_replicate]
        omega
      rw [if_neg here, shifted, List.cons_append, List.getD_cons_succ, List.getD_append _ _ _ _ (by omega), rest]
      by_cases there : later = between
      · rw [if_pos there, if_pos (by omega)]
      · rw [if_neg there, if_neg (by omega)]

end Tiles

section Mesh

theorem meshCoordinate_pair (rows columns : Nat) (first second : Int) (dim device : Nat) :
    meshCoordinate [(rows : Int), columns] [first, second] dim device =
      if first = dim then device / columns % rows else if second = dim then device % columns else 0 := by
  unfold meshCoordinate
  by_cases atFirst : first = dim
  · rw [List.findIdx?_cons, decide_eq_true atFirst, if_pos rfl, if_pos atFirst]
    simp [unflatten]
  · rw [List.findIdx?_cons, decide_eq_false atFirst, if_neg Bool.false_ne_true, if_neg atFirst, List.findIdx?_cons]
    by_cases atSecond : second = dim
    · rw [decide_eq_true atSecond, if_pos rfl, if_pos atSecond]
      simp [unflatten]
    · rw [decide_eq_false atSecond, if_neg Bool.false_ne_true, if_neg atSecond]
      rfl

end Mesh

end TtMlir.Gspmd
