import Mathlib.Algebra.BigOperators.Group.List.Lemmas
import TtMlir.Gspmd.Bounds
import TtMlir.Gspmd.Tiles

/-!
GSPMD shardings are read with their meaning exactly when the devices come in the
order that the reading presumes, and no list is left exactly when there is a mesh
dim for every sharded dim.
-/

namespace TtMlir.Gspmd

section Loop

theorem assignShardDims_units (reverseOrder : Bool) (meshShape : List Int) (count : Nat) (rest : List Nat)
    (dim shardingCnt : Nat) (shardDims : List Int) :
    assignShardDims reverseOrder meshShape (ints (List.replicate count 1 ++ rest)) dim shardingCnt shardDims =
      assignShardDims reverseOrder meshShape (ints rest) (dim + count) shardingCnt shardDims := by
  induction count generalizing dim with
  | zero => rfl
  | succ count ih =>
      have shifted : dim + 1 + count = dim + (count + 1) := by omega
      rw [List.replicate_succ, List.cons_append, ints, List.map_cons, assignShardDims, if_pos Nat.cast_one, ← ints,
        ih (dim + 1), shifted]

theorem assignShardDims_done (reverseOrder : Bool) (meshShape : List Int) (count dim shardingCnt : Nat)
    (shardDims : List Int) :
    assignShardDims reverseOrder meshShape (ints (List.replicate count 1)) dim shardingCnt shardDims =
      .ok shardDims := by
  have units := assignShardDims_units reverseOrder meshShape count [] dim shardingCnt shardDims
  rw [List.append_nil] at units
  exact units

def lane (reverseOrder : Bool) (shardingCnt : Nat) : Nat := if reverseOrder then 1 - shardingCnt else shardingCnt

theorem assignShardDims_next (reverseOrder : Bool) (rows columns size : Nat) (rest : List Nat) (dim shardingCnt : Nat)
    (shardDims result : List Int) (notUnit : size ≠ 1) (positive : 0 < size)
    (accepted : assignShardDims reverseOrder [(rows : Int), columns] (ints (size :: rest)) dim shardingCnt shardDims =
      .ok result) :
    shardingCnt < 2 ∧ size = [rows, columns].getD (lane reverseOrder shardingCnt) 0 ∧
      assignShardDims reverseOrder [(rows : Int), columns] (ints rest) (dim + 1) (shardingCnt + 1)
        (shardDims.set (lane reverseOrder shardingCnt) dim) = .ok result := by
  have notUnitInt : ¬ (size : Int) = 1 := fun unit => notUnit (by exact_mod_cast unit)
  rw [ints, List.map_cons, assignShardDims, if_neg notUnitInt, ← ints] at accepted
  dsimp only at accepted
  generalize located : (if reverseOrder = true then (([(rows : Int), columns].length : Int) - 1 - shardingCnt) else
    (shardingCnt : Int)) = idx at accepted
  split at accepted
  · cases accepted
  · rename_i inside
    split at accepted
    · cases accepted
    · rename_i matched
      have below : shardingCnt < 2 ∧ idx.toNat = lane reverseOrder shardingCnt := by
        rw [List.length_cons, List.length_cons, List.length_nil] at inside located
        unfold lane
        split at located <;> rename_i order
        · rw [if_pos order]
          omega
        · rw [if_neg order]
          omega
      rw [below.2] at accepted matched
      refine ⟨below.1, ?_, accepted⟩
      have same : (size : Int) = [(rows : Int), columns].getD (lane reverseOrder shardingCnt) 0 := by
        by_contra differs
        exact matched ⟨by exact_mod_cast positive, differs⟩
      have laneBelow : lane reverseOrder shardingCnt = 0 ∨ lane reverseOrder shardingCnt = 1 := by
        unfold lane
        split <;> omega
      rcases laneBelow with first | second
      · rw [first] at same ⊢
        exact Int.ofNat.inj same
      · rw [second] at same ⊢
        exact Int.ofNat.inj same

inductive LoopResult (reverseOrder : Bool) (rows columns shardingCnt : Nat) (tiles : List Nat) : List Int → Prop where
  | none (count : Nat) (units : tiles = List.replicate count 1) :
      LoopResult reverseOrder rows columns shardingCnt tiles [-1, -1]
  | one (count size after : Nat) (split : tiles = List.replicate count 1 ++ size :: List.replicate after 1)
      (notUnit : size ≠ 1) (started : shardingCnt < 2)
      (matched : size = [rows, columns].getD (lane reverseOrder shardingCnt) 0) :
      LoopResult reverseOrder rows columns shardingCnt tiles ([-1, -1].set (lane reverseOrder shardingCnt) (count : Int))
  | two (count size between second after : Nat)
      (split : tiles =
        List.replicate count 1 ++ size :: (List.replicate between 1 ++ second :: List.replicate after 1))
      (notUnit : size ≠ 1) (secondNotUnit : second ≠ 1) (started : shardingCnt = 0)
      (matched : size = [rows, columns].getD (lane reverseOrder 0) 0)
      (secondMatched : second = [rows, columns].getD (lane reverseOrder 1) 0) :
      LoopResult reverseOrder rows columns shardingCnt tiles
        (([-1, -1].set (lane reverseOrder 0) (count : Int)).set (lane reverseOrder 1) (count + 1 + between : Nat))

theorem assignShardDims_result (reverseOrder : Bool) (rows columns shardingCnt : Nat) (tiles : List Nat)
    (positive : ∀ size ∈ tiles, 0 < size) (result : List Int)
    (accepted : assignShardDims reverseOrder [(rows : Int), columns] (ints tiles) 0 shardingCnt [-1, -1] = .ok result) :
    LoopResult reverseOrder rows columns shardingCnt tiles result := by
  cases sharded : tiles.filter (· ≠ 1) with
  | nil =>
      have units := all_units tiles sharded
      rw [units, assignShardDims_done] at accepted
      cases accepted
      exact .none _ units
  | cons size others =>
      obtain ⟨count, rest, split, restSharded, notUnit⟩ := split_units tiles size others sharded
      have sizePositive : 0 < size := positive size (by rw [split]; simp)
      rw [split, assignShardDims_units] at accepted
      obtain ⟨started, matched, accepted⟩ := assignShardDims_next reverseOrder rows columns size rest _ shardingCnt _ _
        notUnit sizePositive accepted
      rw [Nat.zero_add] at accepted
      cases others with
      | nil =>
          have units := all_units rest restSharded
          rw [units, assignShardDims_done] at accepted
          cases accepted
          exact .one count size rest.length (by rw [← units]; exact split) notUnit started matched
      | cons second more =>
          obtain ⟨between, tail, restSplit, tailSharded, secondNotUnit⟩ := split_units rest second more restSharded
          have secondPositive : 0 < second := positive second (by rw [split, restSplit]; simp)
          rw [restSplit, assignShardDims_units] at accepted
          obtain ⟨secondStarted, secondMatched, accepted⟩ :=
            assignShardDims_next reverseOrder rows columns second tail _
            (shardingCnt + 1) _ _ secondNotUnit secondPositive accepted
          have zero : shardingCnt = 0 := by omega
          subst zero
          cases more with
          | nil =>
              have units := all_units tail tailSharded
              rw [units, assignShardDims_done] at accepted
              cases accepted
              exact .two count size between second tail.length (by rw [← units, ← restSplit]; exact split) notUnit
                secondNotUnit rfl matched secondMatched
          | cons third evenMore =>
              -- a third sharded dim has no mesh dim
              obtain ⟨last, final, tailSplit, _, thirdNotUnit⟩ := split_units tail third evenMore tailSharded
              have thirdPositive : 0 < third := positive third (by rw [split, restSplit, tailSplit]; simp)
              rw [tailSplit, assignShardDims_units] at accepted
              have beyond := (assignShardDims_next reverseOrder rows columns third final _ 2 _ _ thirdNotUnit
                thirdPositive accepted).1
              exact absurd beyond (Nat.lt_irrefl 2)

end Loop

section Coordinates
variable (assignment : TileAssignment)

def TileAssignment.copies : Nat := assignment.dims.prod / assignment.tiles.prod

theorem tiles_positive (size : Nat) (member : size ∈ assignment.tiles) : 0 < size := by
  apply assignment.positive
  unfold TileAssignment.tiles tensorDims at member
  split at member
  · exact List.mem_of_mem_dropLast member
  · exact member

theorem dims_split : ∃ tail, assignment.dims = assignment.tiles ++ tail := by
  unfold TileAssignment.tiles tensorDims
  split
  · exact ⟨_, (List.dropLast_append_getLast assignment.nonempty).symm⟩
  · exact ⟨[], (List.append_nil _).symm⟩

variable {assignment}

section
variable {tail : List Nat} (split : assignment.dims = assignment.tiles ++ tail)
include split

theorem prod_split :
    assignment.dims.prod = assignment.tiles.prod * tail.prod := by
  rw [← List.prod_append, ← split]

theorem copies_tail :
    assignment.copies = tail.prod := by
  unfold TileAssignment.copies
  rw [prod_split split, Nat.mul_div_cancel_left _ (List.prod_pos_iff_forall_pos_nat.mpr (tiles_positive assignment))]

theorem tile_split (dim position : Nat) :
    assignment.tile dim position = (unflatten (assignment.tiles ++ tail) position).getD dim 0 := by
  unfold TileAssignment.tile
  rw [← split]

end

theorem if_dim (found dim value other : Nat) :
    (if (found : Int) = dim then value else other) = if dim = found then value else other := by
  by_cases here : dim = found
  · rw [if_pos here, if_pos (by rw [here])]
  · have apart : ¬ (found : Int) = dim := fun same => here (Int.ofNat.inj same).symm
    rw [if_neg here, if_neg apart]

theorem no_dim (dim : Nat) : ¬ (-1 : Int) = dim := by omega

theorem read_none {tail : List Nat} (split : assignment.dims = assignment.tiles ++ tail) (rows columns count : Nat)
    (units : assignment.tiles = List.replicate count 1) (dim : Nat) (inside : dim < assignment.tiles.length)
    (device position : Nat) :
    meshCoordinate [(rows : Int), columns] [-1, -1] dim device = assignment.tile dim position := by
  rw [units, List.length_replicate] at inside
  rw [meshCoordinate_pair, if_neg (no_dim dim), if_neg (no_dim dim), tile_split split, units, tile_none _ _ _ _ inside]

theorem prod_one (count size after : Nat) :
    (List.replicate count 1 ++ size :: List.replicate after 1).prod = size := by
  rw [List.prod_append, List.prod_cons, List.prod_replicate, List.prod_replicate, one_pow, one_pow, one_mul, mul_one]

theorem prod_two (count size between second after : Nat) :
    (List.replicate count 1 ++ size :: (List.replicate between 1 ++ second :: List.replicate after 1)).prod =
      size * second := by
  rw [List.prod_append, List.prod_cons, prod_one, List.prod_replicate, one_pow, one_mul]

theorem read_rows (rows columns : Nat) (product : assignment.dims.prod = rows * columns) (shardDims : List Int)
    (loop : LoopResult false rows columns 0 assignment.tiles shardDims) (dim : Nat)
    (inside : dim < assignment.tiles.length) (device : Nat) :
    meshCoordinate [(rows : Int), columns] shardDims dim device = assignment.tile dim device := by
  obtain ⟨tail, splitDims⟩ := dims_split assignment
  have total := prod_split splitDims
  cases loop with
  | none count units => exact read_none splitDims rows columns count units dim inside device device
  | one count size after split notUnit _ matched =>
      have isRows : size = rows := matched
      subst isRows
      have positive : 0 < size := tiles_positive assignment size (by rw [split]; simp)
      rw [split, prod_one, product] at total
      have tailProd : tail.prod = columns := (Nat.eq_of_mul_eq_mul_left positive total).symm
      rw [split, List.length_append, List.length_cons, List.length_replicate, List.length_replicate] at inside
      have tile := tile_one count after dim device tail size (by omega)
      rw [tile_split splitDims, split, tile, tailProd]
      refine (meshCoordinate_pair size columns count (-1) dim device).trans ?_
      rw [if_dim, if_neg (no_dim dim)]
  | two count size between second after split notUnit secondNotUnit _ matched secondMatched =>
      have isRows : size = rows := matched
      have isColumns : second = columns := secondMatched
      subst isRows isColumns
      have positive : 0 < size * second :=
        Nat.mul_pos (tiles_positive assignment size (by rw [split]; simp))
          (tiles_positive assignment second (by rw [split]; simp))
      rw [split, prod_two, product] at total
      have tailProd : tail.prod = 1 := Nat.eq_of_mul_eq_mul_left positive (total.symm.trans (Nat.mul_one _).symm)
      rw [split] at inside
      simp only [List.length_append, List.length_cons, List.length_replicate] at inside
      have tile := tile_two count between after dim device tail size second (by omega)
      rw [tile_split splitDims, split, tile, tailProd, Nat.div_one]
      refine (meshCoordinate_pair size second count (count + 1 + between : Nat) dim device).trans ?_
      rw [if_dim, if_dim]

theorem read_line (shardDims : List Int)
    (loop : LoopResult false 1 assignment.dims.prod 1 assignment.tiles shardDims) (dim : Nat)
    (inside : dim < assignment.tiles.length) (device : Nat) :
    meshCoordinate [1, (assignment.dims.prod : Int)] shardDims dim device = assignment.tile dim device := by
  obtain ⟨tail, splitDims⟩ := dims_split assignment
  have total := prod_split splitDims
  cases loop with
  | none count units => exact read_none splitDims 1 assignment.dims.prod count units dim inside device device
  | one count size after split notUnit _ matched =>
      have isLine : size = assignment.dims.prod := matched
      have positive : 0 < size := tiles_positive assignment size (by rw [split]; simp)
      rw [split, prod_one, ← isLine] at total
      have tailProd : tail.prod = 1 := Nat.eq_of_mul_eq_mul_left positive (total.symm.trans (Nat.mul_one _).symm)
      rw [split, List.length_append, List.length_cons, List.length_replicate, List.length_replicate] at inside
      have tile := tile_one count after dim device tail size (by omega)
      rw [tile_split splitDims, split, tile, tailProd, Nat.div_one, ← isLine]
      refine (meshCoordinate_pair 1 size (-1) count dim device).trans ?_
      rw [if_neg (no_dim dim), if_dim]
  | two count size between second after split notUnit secondNotUnit started => exact absurd started Nat.one_ne_zero

theorem read_columns (rows columns : Nat) (product : assignment.dims.prod = rows * columns) (shardDims : List Int)
    (loop : LoopResult true rows columns 0 assignment.tiles shardDims) (dim : Nat)
    (inside : dim < assignment.tiles.length) (device : Nat) (below : device < assignment.dims.prod) :
    meshCoordinate [(rows : Int), columns] shardDims dim device =
      assignment.tile dim (device % columns * rows + device / columns) := by
  obtain ⟨tail, splitDims⟩ := dims_split assignment
  have total := prod_split splitDims
  rw [product] at below
  have columnsPositive : 0 < columns := Nat.pos_of_mul_pos_left (Nat.lt_of_le_of_lt (Nat.zero_le _) below)
  have quotient : device / columns < rows := Nat.div_lt_of_lt_mul (by rwa [Nat.mul_comm])
  have rowsPositive : 0 < rows := Nat.lt_of_le_of_lt (Nat.zero_le _) quotient
  have swappedRow : (device % columns * rows + device / columns) / rows = device % columns := by
    rw [Nat.add_comm, Nat.add_mul_div_right _ _ rowsPositive, Nat.div_eq_of_lt quotient, Nat.zero_add]
  have swappedColumn : (device % columns * rows + device / columns) % rows = device / columns := by
    rw [Nat.add_comm, Nat.add_mul_mod_self_right, Nat.mod_eq_of_lt quotient]
  cases loop with
  | none count units => exact read_none splitDims rows columns count units dim inside device _
  | one count size after split notUnit _ matched =>
      have isColumns : size = columns := matched
      subst isColumns
      rw [split, prod_one, product, Nat.mul_comm] at total
      have tailProd : tail.prod = rows := (Nat.eq_of_mul_eq_mul_left columnsPositive total).symm
      rw [split, List.length_append, List.length_cons, List.length_replicate, List.length_replicate] at inside
      have tile := tile_one count after dim (device % size * rows + device / size) tail size (by omega)
      rw [tile_split splitDims, split, tile, tailProd, swappedRow, Nat.mod_mod]
      refine (meshCoordinate_pair rows size (-1) count dim device).trans ?_
      rw [if_neg (no_dim dim), if_dim]
  | two count size between second after split notUnit secondNotUnit _ matched secondMatched =>
      have isColumns : size = columns := matched
      have isRows : second = rows := secondMatched
      subst isRows isColumns
      rw [split, prod_two, product, Nat.mul_comm] at total
      have tailProd : tail.prod = 1 :=
        Nat.eq_of_mul_eq_mul_left (Nat.mul_pos columnsPositive rowsPositive) (total.symm.trans (Nat.mul_one _).symm)
      rw [split] at inside
      simp only [List.length_append, List.length_cons, List.length_replicate] at inside
      have tile := tile_two count between after dim (device % size * second + device / size) tail size second (by omega)
      rw [tile_split splitDims, split, tile, tailProd, Nat.div_one, swappedRow, swappedColumn, Nat.mod_mod]
      refine (meshCoordinate_pair second size (count + 1 + between : Nat) count dim device).trans ?_
      rw [Nat.mod_eq_of_lt quotient, if_dim, if_dim]
      by_cases here : dim = count
      · rw [if_pos here, if_neg (by omega), if_pos here]
      · rw [if_neg here, if_neg here]

end Coordinates

section Orders
variable {assignment : TileAssignment}

theorem same_tile (first second : Nat) (firstBelow : first < assignment.dims.prod)
    (secondBelow : second < assignment.dims.prod) :
    (∀ dim < assignment.tiles.length, assignment.tile dim first = assignment.tile dim second) ↔
      first / assignment.copies = second / assignment.copies := by
  obtain ⟨tail, splitDims⟩ := dims_split assignment
  have total := prod_split splitDims
  have tile : ∀ dim < assignment.tiles.length, ∀ position,
      assignment.tile dim position = (unflatten assignment.tiles (position / tail.prod)).getD dim 0 := by
    intro dim inside position
    rw [tile_split splitDims, unflatten_append, List.getD_append _ _ _ _ (by rwa [unflatten_length])]
  rw [copies_tail splitDims]
  rw [total] at firstBelow secondBelow
  have firstQuotient : first / tail.prod < assignment.tiles.prod :=
    Nat.div_lt_of_lt_mul (by rwa [Nat.mul_comm])
  have secondQuotient : second / tail.prod < assignment.tiles.prod :=
    Nat.div_lt_of_lt_mul (by rwa [Nat.mul_comm])
  constructor
  · intro same
    have index : unflatten assignment.tiles (first / tail.prod) = unflatten assignment.tiles (second / tail.prod) := by
      apply List.ext_getElem
      · rw [unflatten_length, unflatten_length]
      · intro dim inFirst inSecond
        have here := inFirst
        rw [unflatten_length] at here
        have entry := same dim here
        rwa [tile dim here, tile dim here, List.getD_eq_getElem _ _ inFirst, List.getD_eq_getElem _ _ inSecond] at entry
    rw [← flatten_unflatten assignment.tiles _ firstQuotient, index,
      flatten_unflatten assignment.tiles _ secondQuotient]
  · intro same dim inside
    rw [tile dim inside, tile dim inside, same]

theorem deviceAt_lt (position : Nat) (below : position < assignment.dims.prod) :
    assignment.order.deviceAt position < assignment.dims.prod := by
  have covers := assignment.covers
  cases written : assignment.order with
  | listed ids =>
      rw [written] at covers
      have length : ids.length = assignment.dims.prod := covers.length_eq.trans List.length_range
      rw [DeviceOrder.deviceAt, List.getD_eq_getElem _ _ (by omega)]
      exact List.mem_range.mp (covers.mem_iff.mp (List.getElem_mem _))
  | iota reshape transpose =>
      rw [written] at covers
      cases transpose with
      | none => exact below
      | some axes =>
          obtain ⟨product, permuted⟩ := covers
          have order := permuted axes rfl
          have positive : ∀ extent ∈ reshape, 0 < extent := by
            apply List.prod_pos_iff_forall_pos_nat.mp
            omega
          rw [DeviceOrder.deviceAt, ← product]
          apply flatten_lt
          have own : reshape = (List.range reshape.length).map fun axis => reshape.getD axis 0 := by
            apply List.ext_getElem
            · rw [List.length_map, List.length_range]
            · intro axis inside _
              rw [List.getElem_map, List.getElem_range, List.getD_eq_getElem _ _ inside]
          unfold Inside
          conv => rhs; rw [own]
          refine List.forall₂_map_left_iff.mpr
            (List.forall₂_map_right_iff.mpr (List.forall₂_same.mpr fun axis member => ?_))
          have known : axis ∈ axes := order.mem_iff.mpr member
          have located := List.idxOf_lt_length_of_mem known
          have bound := (unflatten_inside (axes.map fun axis => reshape.getD axis 0) position ?_).getD_lt
            (axes.idxOf axis) (by rwa [List.length_map])
          · rwa [List.getD_eq_getElem (axes.map _) _ (by rwa [List.length_map]), List.getElem_map,
              List.getElem_idxOf] at bound
          · intro extent inShape
            obtain ⟨other, otherKnown, rfl⟩ := List.mem_map.mp inShape
            have inside := List.mem_range.mp (order.mem_iff.mp otherKnown)
            rw [List.getD_eq_getElem _ _ inside]
            exact positive _ (List.getElem_mem inside)

end Orders

section Meaning
variable (assignment : TileAssignment)

def TileAssignment.Line : Prop := assignment.dims.prod ∈ assignment.dims

instance : Decidable assignment.Line := by
  unfold TileAssignment.Line
  infer_instance

/-- Along the tiles for a line and where the first two devices are consecutive, across them
otherwise. -/
def TileAssignment.presumed (ids : List Nat) (device : Nat) : Nat :=
  if assignment.Line ∨ ids.getD 0 0 + 1 = ids.getD 1 0 then device
  else
    let rows := (assignment.dims.filter (· ≠ 1)).headD 0
    device % rows * (assignment.dims.prod / rows) + device / rows

/-- The devices come in the presumed order, as far as the tiles tell them apart. -/
def TileAssignment.KnownOrder : Prop :=
  match assignment.order with
  | .iota reshape transpose => assignment.Line ∨ reshape.length = 1 ∨ transpose = some [1, 0]
  | .listed ids => ∀ position < assignment.dims.prod,
      assignment.presumed ids (ids.getD position 0) / assignment.copies = position / assignment.copies

variable {assignment}

theorem ints_prod (values : List Nat) : (ints values).prod = values.prod := by
  unfold ints
  induction values with
  | nil => rfl
  | cons value rest ih => rw [List.map_cons, List.prod_cons, List.prod_cons, ih, Nat.cast_mul]

theorem ints_filter (values : List Nat) : (ints values).filter (· ≠ 1) = ints (values.filter (· ≠ 1)) := by
  unfold ints
  rw [List.filter_map]
  congr 1
  apply List.filter_congr
  intro value _
  simp

theorem ints_tensorDims (values : List Nat) (lastTileDimReplicate : Bool) :
    tensorDims (ints values) lastTileDimReplicate = ints (tensorDims values lastTileDimReplicate) := by
  unfold tensorDims ints
  split
  · exact List.map_dropLast.symm
  · rfl

theorem meshShape_prod : assignment.lists.2.1.prod = assignment.dims.prod := by
  have covers := assignment.covers
  unfold TileAssignment.lists
  cases written : assignment.order with
  | listed ids =>
      rw [written] at covers
      rw [List.prod_singleton, covers.length_eq, List.length_range]
  | iota reshape transpose =>
      rw [written] at covers
      rw [ints_prod, covers.1]

theorem line_read_iff : isLineDeviceConfig assignment.lists.1 assignment.lists.2.1 = true ↔ assignment.Line := by
  unfold isLineDeviceConfig
  rw [meshShape_prod, List.any_eq_true]
  unfold TileAssignment.lists TileAssignment.Line ints
  constructor
  · rintro ⟨size, member, same⟩
    obtain ⟨value, known, rfl⟩ := List.mem_map.mp member
    rwa [Int.ofNat.inj (of_decide_eq_true same)] at known
  · intro member
    exact ⟨_, List.mem_map_of_mem member, decide_eq_true rfl⟩

theorem filter_prod (sizes : List Nat) : (sizes.filter (· ≠ 1)).prod = sizes.prod := by
  induction sizes with
  | nil => rfl
  | cons size rest ih =>
      by_cases unit : size = 1
      · rw [List.filter_cons_of_neg (by simp [unit]), List.prod_cons, ih, unit, one_mul]
      · rw [List.filter_cons_of_pos (by simp [unit]), List.prod_cons, List.prod_cons, ih]

theorem line_of_single (notLine : ¬ assignment.Line) : 1 < assignment.dims.prod := by
  have positive : 0 < assignment.dims.prod := List.prod_pos_iff_forall_pos_nat.mpr assignment.positive
  by_contra small
  have one : assignment.dims.prod = 1 := by omega
  obtain ⟨size, rest, split⟩ := List.exists_cons_of_ne_nil assignment.nonempty
  have unit : size = 1 := by
    rw [split, List.prod_cons] at one
    exact Nat.eq_one_of_mul_eq_one_right one
  apply notLine
  unfold TileAssignment.Line
  rw [one, split, unit]
  exact List.mem_cons_self

theorem determine_accepted (shardShape shardDims meshShape : List Int)
    (determined : determineGSPMDShardingDims assignment.lists.1 assignment.lists.2.1 assignment.lists.2.2
      assignment.lastTileDimReplicate = .ok (shardShape, shardDims, meshShape)) :
    ∃ reverseOrder, hardwareMesh assignment.lists.1 assignment.lists.2.1 assignment.lists.2.2 =
      .ok (meshShape, reverseOrder) ∧ meshShape.length = 2 ∧
        assignShardDims reverseOrder meshShape (ints assignment.tiles) 0 (if assignment.Line then 1 else 0) [-1, -1] =
          .ok shardDims := by
  unfold determineGSPMDShardingDims at determined
  obtain ⟨⟨hardware, reverseOrder⟩, built, rest⟩ := bind_ended determined
  dsimp only at rest
  split at rest
  · cases rest
  · rename_i two
    obtain ⟨found, loop, ended⟩ := bind_ended rest
    cases ended
    have length := not_not.mp two
    refine ⟨reverseOrder, built, length, ?_⟩
    have tiles : tensorDims assignment.lists.1 assignment.lastTileDimReplicate = ints assignment.tiles :=
      ints_tensorDims assignment.dims assignment.lastTileDimReplicate
    have first : (if isLineDeviceConfig assignment.lists.1 assignment.lists.2.1 then 1 else 0) =
        if assignment.Line then 1 else 0 := by
      by_cases line : assignment.Line
      · rw [if_pos line, if_pos (line_read_iff.mpr line)]
      · rw [if_neg line, if_neg fun read => line (line_read_iff.mp read)]
    rw [tiles, first, length] at loop
    exact loop

theorem pair_of_length {values : List Nat} (two : (ints values).length = 2) :
    ∃ first second, values = [first, second] := by
  rw [length_ints] at two
  obtain ⟨first, second, rfl⟩ := List.length_eq_two.mp two
  exact ⟨first, second, rfl⟩

theorem swap_lt (rows columns device : Nat) (below : device < rows * columns) :
    device % columns * rows + device / columns < rows * columns := by
  have columnsPositive : 0 < columns := Nat.pos_of_mul_pos_left (Nat.lt_of_le_of_lt (Nat.zero_le _) below)
  have quotient : device / columns < rows := Nat.div_lt_of_lt_mul (by rwa [Nat.mul_comm])
  have remainder : device % columns + 1 ≤ columns := Nat.mod_lt _ columnsPositive
  calc device % columns * rows + device / columns < device % columns * rows + rows := Nat.add_lt_add_left quotient _
    _ = (device % columns + 1) * rows := by ring
    _ ≤ columns * rows := Nat.mul_le_mul_right _ remainder
    _ = rows * columns := Nat.mul_comm _ _

theorem listed_reads (ids : List Nat) (written : assignment.order = .listed ids)
    (shardShape shardDims meshShape : List Int)
    (determined : determineGSPMDShardingDims assignment.lists.1 assignment.lists.2.1 assignment.lists.2.2
      assignment.lastTileDimReplicate = .ok (shardShape, shardDims, meshShape)) (device : Nat)
    (below : device < assignment.dims.prod) :
    assignment.presumed ids device < assignment.dims.prod ∧ ∀ dim < assignment.tiles.length,
      meshCoordinate meshShape shardDims dim device = assignment.tile dim (assignment.presumed ids device) := by
  obtain ⟨reverseOrder, built, two, loop⟩ := determine_accepted shardShape shardDims meshShape determined
  have covers := assignment.covers
  rw [written] at covers
  have length : ids.length = assignment.dims.prod := covers.length_eq.trans List.length_range
  have positive := tiles_positive assignment
  have lists : assignment.lists = (ints assignment.dims, [(ids.length : Int)], ints ids) := by
    unfold TileAssignment.lists
    rw [written]
  unfold hardwareMesh at built
  have single : ¬ assignment.lists.2.1.length ≠ 1 := by
    rw [lists]
    exact not_not.mpr rfl
  rw [if_neg single] at built
  by_cases line : assignment.Line
  · rw [if_pos (line_read_iff.mpr line), lists, length] at built
    cases built
    rw [if_pos line] at loop
    rw [TileAssignment.presumed, if_pos (Or.inl line)]
    refine ⟨below, fun dim inside => ?_⟩
    exact read_line shardDims (assignShardDims_result false 1 assignment.dims.prod 1 assignment.tiles positive _ loop)
      dim inside device
  · rw [if_neg fun read => line (line_read_iff.mp read), lists] at built
    rw [if_neg line] at loop
    have several := line_of_single line
    obtain ⟨first, second, rest, split⟩ : ∃ first second rest, ids = first :: second :: rest := by
      cases ids with
      | nil => rw [← length] at several; exact absurd several (by decide)
      | cons first others =>
          cases others with
          | nil => exact absurd several (by rw [← length]; exact Nat.lt_irrefl 1)
          | cons second rest => exact ⟨first, second, rest, rfl⟩
    have consecutive : (first : Int) + 1 = second ↔ first + 1 = second := by omega
    have cells : ints ids = (first : Int) :: (second : Int) :: ints rest := by
      rw [split]
      rfl
    dsimp only at built
    rw [cells, ints_filter] at built
    dsimp only at built
    -- only the first two ids are looked at: consecutive ids are taken for row-major order
    by_cases inOrder : first + 1 = second
    · rw [if_neg (not_not.mpr (consecutive.mpr inOrder))] at built
      cases built
      obtain ⟨rows, columns, sizes⟩ := pair_of_length two
      rw [sizes] at loop ⊢
      have product : assignment.dims.prod = rows * columns := by
        rw [← filter_prod, sizes, List.prod_cons, List.prod_singleton]
      have presumed : assignment.presumed ids device = device := by
        rw [TileAssignment.presumed, split]
        exact if_pos (Or.inr inOrder)
      rw [presumed]
      refine ⟨below, fun dim inside => ?_⟩
      exact read_rows rows columns product shardDims
        (assignShardDims_result false rows columns 0 assignment.tiles positive _ loop) dim inside device
    · -- otherwise the mesh is read column by column
      rw [if_pos fun same => inOrder (consecutive.mp same)] at built
      cases built
      rw [List.length_reverse] at two
      obtain ⟨columns, rows, sizes⟩ := pair_of_length two
      rw [sizes] at loop ⊢
      have product : assignment.dims.prod = rows * columns := by
        rw [← filter_prod, sizes, List.prod_cons, List.prod_singleton, Nat.mul_comm]
      have presumed : assignment.presumed ids device = device % columns * rows + device / columns := by
        have columnsPositive : 0 < columns := Nat.pos_of_mul_pos_left (a := rows) (by omega)
        rw [TileAssignment.presumed, split]
        have other : ¬ (assignment.Line ∨ (first :: second :: rest).getD 0 0 + 1 =
            (first :: second :: rest).getD 1 0) := fun known => known.elim line inOrder
        rw [if_neg other, sizes]
        dsimp only [List.headD]
        rw [product, Nat.mul_div_cancel _ columnsPositive]
      rw [presumed]
      refine ⟨?_, fun dim inside => ?_⟩
      · rw [product] at below ⊢
        exact swap_lt rows columns device below
      exact read_columns rows columns product shardDims
        (assignShardDims_result true rows columns 0 assignment.tiles positive _ loop) dim inside device below

theorem iota_line (count : Nat) (axes : List Nat) (order : axes.Perm (List.range 1)) (position : Nat)
    (below : position < count) : (DeviceOrder.iota [count] (some axes)).deviceAt position = position := by
  have only : axes = [0] := List.perm_singleton.mp order
  subst only
  have index : unflatten [count] position = [position] := by
    rw [unflatten, unflatten, List.prod_nil, Nat.div_one, Nat.mod_eq_of_lt below]
  change flatten [count] [(unflatten [count] position).getD 0 0] = position
  rw [index]
  change position * 1 + 0 = position
  omega

theorem iota_unswapped (rows columns position : Nat) (below : position < rows * columns) :
    (DeviceOrder.iota [rows, columns] (some [0, 1])).deviceAt position = position := by
  change flatten [rows, columns] (unflatten [rows, columns] position) = position
  apply flatten_unflatten
  rwa [List.prod_cons, List.prod_singleton]

theorem iota_swapped (rows columns position : Nat) (below : position < rows * columns) :
    (DeviceOrder.iota [rows, columns] (some [1, 0])).deviceAt position =
      position % rows * columns + position / rows := by
  have rowsPositive : 0 < rows := Nat.pos_of_mul_pos_right (Nat.lt_of_le_of_lt (Nat.zero_le _) below)
  have quotient : position / rows < columns := Nat.div_lt_of_lt_mul below
  have index : unflatten [columns, rows] position = [position / rows, position % rows] := by
    rw [unflatten, unflatten, unflatten, List.prod_singleton, List.prod_nil, Nat.div_one, Nat.mod_eq_of_lt quotient]
  change flatten [rows, columns] [(unflatten [columns, rows] position).getD 1 0,
    (unflatten [columns, rows] position).getD 0 0] = _
  rw [index]
  change position % rows * (columns * 1) + (position / rows * 1 + 0) = position % rows * columns + position / rows
  rw [Nat.mul_one, Nat.mul_one, Nat.add_zero]

theorem perm_pair (axes : List Nat) (order : axes.Perm (List.range 2)) : axes = [0, 1] ∨ axes = [1, 0] := by
  have length := order.length_eq
  obtain ⟨first, second, rfl⟩ := List.length_eq_two.mp length
  have firstRange := List.mem_range.mp (order.mem_iff.mp (List.mem_cons_self (a := first)))
  have secondRange := List.mem_range.mp
    (order.mem_iff.mp (List.mem_cons_of_mem first (List.mem_singleton_self second)))
  have distinct := List.nodup_cons.mp (order.nodup_iff.mpr List.nodup_range)
  have differ : first ≠ second := fun same => distinct.1 (List.mem_singleton.mpr same)
  have cases : first = 0 ∧ second = 1 ∨ first = 1 ∧ second = 0 := by omega
  rcases cases with ⟨rfl, rfl⟩ | ⟨rfl, rfl⟩
  · exact Or.inl rfl
  · exact Or.inr rfl

theorem read_line_reshaped (line : assignment.Line) (rows columns : Nat)
    (product : assignment.dims.prod = rows * columns) (shardDims : List Int)
    (loop : LoopResult true rows columns 1 assignment.tiles shardDims) :
    (assignment.copies = assignment.dims.prod ∨ columns = 1) ∧ ∀ dim < assignment.tiles.length,
      ∀ device, meshCoordinate [(rows : Int), columns] shardDims dim device = assignment.tile dim device := by
  obtain ⟨tail, splitDims⟩ := dims_split assignment
  have total := prod_split splitDims
  have positive : 0 < assignment.dims.prod := List.prod_pos_iff_forall_pos_nat.mpr assignment.positive
  cases loop with
  | none count units =>
      constructor
      · left
        rw [copies_tail splitDims, total, units, List.prod_replicate, one_pow, one_mul]
      · exact fun dim inside device => read_none splitDims rows columns count units dim inside device device
  | one count size after split notUnit _ matched =>
      have isRows : size = rows := matched
      subst isRows
      rw [split, prod_one] at total
      have sizePositive : 0 < size := tiles_positive assignment size (by rw [split]; simp)
      have tailPositive : 0 < tail.prod := Nat.pos_of_mul_pos_left (total ▸ positive)
      -- the dim that has all devices is the sharded one
      have whole : assignment.dims.prod = size := by
        unfold TileAssignment.Line at line
        have member : assignment.dims.prod ∈ assignment.tiles ++ tail := splitDims ▸ line
        rcases List.mem_append.mp member with inTiles | inTail
        · rw [split, List.mem_append, List.mem_cons, List.mem_replicate, List.mem_replicate] at inTiles
          rcases inTiles with ⟨_, one⟩ | same | ⟨_, one⟩
          · rw [one] at total
            exact absurd (Nat.eq_one_of_mul_eq_one_right total.symm) notUnit
          · exact same
          · rw [one] at total
            exact absurd (Nat.eq_one_of_mul_eq_one_right total.symm) notUnit
        · have most : assignment.dims.prod ≤ tail.prod :=
            Nat.le_of_dvd tailPositive (List.dvd_prod inTail)
          have atLeast : size * tail.prod ≤ 1 * tail.prod := by omega
          exact absurd (Nat.le_of_mul_le_mul_right atLeast tailPositive) (by omega)
      have tailProd : tail.prod = 1 :=
        Nat.eq_of_mul_eq_mul_left sizePositive ((total.symm.trans whole).trans (Nat.mul_one size).symm)
      have columnsOne : columns = 1 :=
        Nat.eq_of_mul_eq_mul_left sizePositive ((product.symm.trans whole).trans (Nat.mul_one size).symm)
      subst columnsOne
      refine ⟨Or.inr rfl, fun dim inside device => ?_⟩
      rw [split, List.length_append, List.length_cons, List.length_replicate, List.length_replicate] at inside
      have tile := tile_one count after dim device tail size (by omega)
      rw [tile_split splitDims, split, tile, tailProd]
      refine (meshCoordinate_pair size 1 count (-1) dim device).trans ?_
      rw [if_dim, if_neg (no_dim dim)]
  | two count size between second after split notUnit secondNotUnit started => exact absurd started Nat.one_ne_zero

theorem readAs_listed (ids : List Nat) (written : assignment.order = .listed ids)
    (shardShape shardDims meshShape : List Int)
    (determined : determineGSPMDShardingDims assignment.lists.1 assignment.lists.2.1 assignment.lists.2.2
      assignment.lastTileDimReplicate = .ok (shardShape, shardDims, meshShape)) :
    (∀ position < assignment.dims.prod, ∀ dim < assignment.tiles.length, assignment.tile dim position =
      meshCoordinate meshShape shardDims dim (assignment.order.deviceAt position)) ↔ assignment.KnownOrder := by
  unfold TileAssignment.KnownOrder
  rw [written]
  refine forall₂_congr fun position below => ?_
  have device := deviceAt_lt position below
  rw [written] at device
  obtain ⟨presumedBelow, reads⟩ := listed_reads ids written shardShape shardDims meshShape determined _ device
  have tiles := same_tile (assignment.presumed ids (ids.getD position 0)) position presumedBelow below
  rw [← tiles]
  refine forall₂_congr fun dim inside => ?_
  rw [reads dim inside]
  exact eq_comm

theorem readAs_rows (shardDims meshShape : List Int)
    (reads : ∀ dim < assignment.tiles.length, ∀ device, meshCoordinate meshShape shardDims dim device =
      assignment.tile dim device)
    (order : ∀ position < assignment.dims.prod,
      assignment.order.deviceAt position / assignment.copies = position / assignment.copies)
    (position : Nat) (below : position < assignment.dims.prod) (dim : Nat) (inside : dim < assignment.tiles.length) :
    assignment.tile dim position = meshCoordinate meshShape shardDims dim (assignment.order.deviceAt position) := by
  rw [reads dim inside]
  exact (same_tile position _ below (deviceAt_lt position below)).mpr (order position below).symm dim inside

theorem swap_misses (rows columns copies : Nat) (rowsLong : 1 < rows) (columnsLong : 1 < columns)
    (copied : copies = 1 ∨ copies = rows) : ¬ (1 % columns * rows + 1 / columns) / copies = 1 / copies := by
  rw [Nat.mod_eq_of_lt columnsLong, Nat.div_eq_of_lt columnsLong, Nat.one_mul, Nat.add_zero]
  rcases copied with rfl | rfl
  · rw [Nat.div_one, Nat.div_one]
    omega
  · rw [Nat.div_self (by omega), Nat.div_eq_of_lt rowsLong]
    omega

theorem mesh_of_loop (rows columns : Nat) (product : assignment.dims.prod = rows * columns) (shardDims : List Int)
    (loop : LoopResult true rows columns 0 assignment.tiles shardDims) (notLine : ¬ assignment.Line) :
    1 < rows ∧ 1 < columns ∧ (assignment.copies = 1 ∨ assignment.copies = rows) := by
  obtain ⟨tail, splitDims⟩ := dims_split assignment
  have total := prod_split splitDims
  have several := line_of_single notLine
  have area : 0 < rows * columns := product ▸ Nat.lt_trans Nat.zero_lt_one several
  have rowsPositive : 0 < rows := Nat.pos_of_mul_pos_right area
  have columnsPositive : 0 < columns := Nat.pos_of_mul_pos_left area
  rw [copies_tail splitDims]
  cases loop with
  | none count units =>
      -- all devices are copies of one tile, which is a line
      rw [units, List.prod_replicate, one_pow, one_mul] at total
      have replicated : tail ≠ [] := by
        rintro rfl
        rw [total] at several
        exact absurd several (Nat.lt_irrefl 1)
      obtain ⟨last, only⟩ : ∃ last, tail = [last] := by
        have lengths := congrArg List.length splitDims
        rw [List.length_append] at lengths
        have short : assignment.dims.length ≤ assignment.tiles.length + 1 := by
          unfold TileAssignment.tiles tensorDims
          split
          · rw [List.length_dropLast]
            omega
          · exact Nat.le_succ _
        have positive := List.length_pos_iff.mpr replicated
        exact List.length_eq_one_iff.mp (by omega)
      refine absurd ?_ notLine
      unfold TileAssignment.Line
      rw [total, splitDims, only, List.prod_singleton]
      exact List.mem_append_right _ (List.mem_singleton_self _)
  | one count size after split notUnit _ matched =>
      have isColumns : size = columns := matched
      subst isColumns
      rw [split, prod_one, product, Nat.mul_comm] at total
      have tailProd : tail.prod = rows := (Nat.eq_of_mul_eq_mul_left columnsPositive total).symm
      have notOne : rows ≠ 1 := by
        rintro rfl
        apply notLine
        unfold TileAssignment.Line
        rw [product, one_mul, splitDims, split]
        simp
      exact ⟨by omega, by omega, Or.inr tailProd⟩
  | two count size between second after split notUnit secondNotUnit _ matched secondMatched =>
      have isColumns : size = columns := matched
      have isRows : second = rows := secondMatched
      subst isRows isColumns
      rw [split, prod_two, product, Nat.mul_comm] at total
      have tailProd : tail.prod = 1 :=
        Nat.eq_of_mul_eq_mul_left (Nat.mul_pos columnsPositive rowsPositive) (total.symm.trans (Nat.mul_one _).symm)
      exact ⟨by omega, by omega, Or.inl tailProd⟩

theorem line_swapped (rows columns : Nat) (product : assignment.dims.prod = rows * columns)
    (flat : assignment.copies = assignment.dims.prod ∨ columns = 1) (position : Nat)
    (below : position < assignment.dims.prod) :
    (position % rows * columns + position / rows) / assignment.copies = position / assignment.copies := by
  rcases flat with whole | rfl
  · rw [product] at below
    have swapped := swap_lt columns rows position (by rwa [Nat.mul_comm])
    rw [Nat.mul_comm columns] at swapped
    rw [whole, product, Nat.div_eq_of_lt swapped, Nat.div_eq_of_lt below]
  · rw [product, Nat.mul_one] at below
    rw [Nat.mod_eq_of_lt below, Nat.div_eq_of_lt below, Nat.mul_one, Nat.add_zero]

theorem swap_swap (rows columns position : Nat) (below : position < rows * columns) :
    (position % rows * columns + position / rows) % columns * rows +
      (position % rows * columns + position / rows) / columns = position := by
  have quotient : position / rows < columns := Nat.div_lt_of_lt_mul below
  have columnsPositive : 0 < columns := Nat.lt_of_le_of_lt (Nat.zero_le _) quotient
  rw [Nat.add_comm (position % rows * columns), Nat.add_mul_mod_self_right, Nat.mod_eq_of_lt quotient,
    Nat.add_mul_div_right _ _ columnsPositive, Nat.div_eq_of_lt quotient, Nat.zero_add, Nat.mul_comm]
  exact Nat.div_add_mod position rows

theorem iota_single (count position : Nat) (transpose : Option (List Nat))
    (permuted : ∀ axes, transpose = some axes → axes.Perm (List.range 1)) (below : position < count) :
    (DeviceOrder.iota [count] transpose).deviceAt position = position := by
  cases transpose with
  | none => rfl
  | some axes => exact iota_line count axes (permuted axes rfl) position below

theorem iota_pair (rows columns : Nat) (transpose : Option (List Nat))
    (permuted : ∀ axes, transpose = some axes → axes.Perm (List.range 2)) :
    transpose = some [1, 0] ∨ transpose ≠ some [1, 0] ∧
      ∀ position < rows * columns, (DeviceOrder.iota [rows, columns] transpose).deviceAt position = position := by
  cases transpose with
  | none => exact Or.inr ⟨nofun, fun position _ => rfl⟩
  | some axes =>
      rcases perm_pair axes (permuted axes rfl) with inOrder | swapped
      · rw [inOrder]
        exact Or.inr ⟨by decide, iota_unswapped rows columns⟩
      · exact Or.inl (congrArg some swapped)

theorem readAs_iota (reshape : List Nat) (transpose : Option (List Nat))
    (written : assignment.order = .iota reshape transpose) (shardShape shardDims meshShape : List Int)
    (determined : determineGSPMDShardingDims assignment.lists.1 assignment.lists.2.1 assignment.lists.2.2
      assignment.lastTileDimReplicate = .ok (shardShape, shardDims, meshShape)) :
    (∀ position < assignment.dims.prod, ∀ dim < assignment.tiles.length, assignment.tile dim position =
      meshCoordinate meshShape shardDims dim (assignment.order.deviceAt position)) ↔ assignment.KnownOrder := by
  obtain ⟨reverseOrder, built, two, loop⟩ := determine_accepted shardShape shardDims meshShape determined
  have positive := tiles_positive assignment
  have covers := assignment.covers
  rw [written] at covers
  obtain ⟨counted, permuted⟩ := covers
  have lists : assignment.lists = (ints assignment.dims, ints reshape, []) := by
    unfold TileAssignment.lists
    rw [written]
  have known : assignment.KnownOrder ↔ assignment.Line ∨ reshape.length = 1 ∨ transpose = some [1, 0] := by
    unfold TileAssignment.KnownOrder
    rw [written]
  rw [known]
  unfold hardwareMesh at built
  by_cases single : reshape.length = 1
  · -- one dim: the mesh follows the tiles
    have notSeveral : ¬ assignment.lists.2.1.length ≠ 1 := by
      rw [lists, length_ints]
      exact not_not.mpr single
    rw [if_neg notSeveral] at built
    obtain ⟨count, rfl⟩ := List.length_eq_one_iff.mp single
    rw [List.prod_singleton] at counted
    have order : ∀ position < assignment.dims.prod,
        assignment.order.deviceAt position / assignment.copies = position / assignment.copies := by
      intro position below
      rw [written, iota_single count position transpose permuted (by rwa [counted])]
    refine iff_of_true ?_ (Or.inr (Or.inl single))
    apply readAs_rows shardDims meshShape _ order
    intro dim inside device
    by_cases line : assignment.Line
    · rw [if_pos (line_read_iff.mpr line), lists] at built
      cases built
      rw [if_pos line] at loop
      rw [counted] at loop ⊢
      exact read_line shardDims
        (assignShardDims_result false 1 assignment.dims.prod 1 assignment.tiles positive _ loop) dim inside device
    · rw [if_neg fun read => line (line_read_iff.mp read), lists] at built
      rw [if_neg line] at loop
      rw [ints_filter] at built
      cases built
      obtain ⟨rows, columns, sizes⟩ := pair_of_length two
      rw [sizes] at loop ⊢
      have product : assignment.dims.prod = rows * columns := by
        rw [← filter_prod, sizes, List.prod_cons, List.prod_singleton]
      exact read_rows rows columns product shardDims
        (assignShardDims_result false rows columns 0 assignment.tiles positive _ loop) dim inside device
  · -- two dims: the mesh is read across the tiles
    have several : assignment.lists.2.1.length ≠ 1 := by rwa [lists, length_ints]
    rw [if_pos several, lists] at built
    cases built
    obtain ⟨rows, columns, rfl⟩ := pair_of_length two
    rw [List.prod_cons, List.prod_singleton] at counted
    have product := counted.symm
    have result := assignShardDims_result true rows columns _ assignment.tiles positive _ loop
    by_cases line : assignment.Line
    · rw [if_pos line] at result
      obtain ⟨flat, reads⟩ := read_line_reshaped line rows columns product shardDims result
      refine iff_of_true (readAs_rows shardDims _ reads ?_) (Or.inl line)
      intro position below
      rw [written]
      rcases iota_pair rows columns transpose permuted with rfl | ⟨_, order⟩
      · rw [iota_swapped rows columns position (by rwa [counted])]
        exact line_swapped rows columns product flat position below
      · rw [order position (by rwa [counted])]
    · rw [if_neg line] at result
      rw [written]
      rcases iota_pair rows columns transpose permuted with rfl | ⟨notSwapped, order⟩
      · refine iff_of_true ?_ (Or.inr (Or.inr rfl))
        intro position below dim inside
        have device := deviceAt_lt position below
        rw [written] at device
        have reads := read_columns rows columns product shardDims result dim inside _ device
        rw [iota_swapped rows columns position (by rwa [counted])] at reads ⊢
        refine Eq.trans ?_ reads.symm
        rw [swap_swap rows columns position (by rwa [counted])]
      · refine iff_of_false ?_ ?_
        · -- device 1 sits at the second place of the first row, which the swap sends elsewhere
          intro readAs
          obtain ⟨rowsLong, columnsLong, copied⟩ := mesh_of_loop rows columns product shardDims result line
          have one := line_of_single line
          have swapped : 1 % columns * rows + 1 / columns < assignment.dims.prod := by
            rw [product] at one ⊢
            exact swap_lt rows columns 1 one
          apply swap_misses rows columns assignment.copies rowsLong columnsLong copied
          refine ((same_tile 1 _ one swapped).mp fun dim inside => ?_).symm
          rw [← read_columns rows columns product shardDims result dim inside 1 one, readAs 1 one dim inside,
            order 1 (by rwa [counted])]
          rfl
        · rintro (isLine | isSingle | isSwapped)
          · exact line isLine
          · exact single isSingle
          · exact notSwapped isSwapped

/-- Reading never leaves a list exactly when the lists are long enough, and the coordinates that are
read are the tiles exactly for the devices in the presumed order. -/
theorem generate_reads_shardings (opShardingStr operandShardingStr : List Char) :
    (generate opShardingStr operandShardingStr ≠ .error .outOfRange ↔
      ∀ reading, readSharding opShardingStr operandShardingStr = .ok reading →
        reading.shardType = some .devices → InRange reading) ∧
    ∀ assignment : TileAssignment, assignment.Writes opShardingStr operandShardingStr → ∀ sharding,
      generate opShardingStr operandShardingStr = .ok sharding →
        (assignment.ReadAs sharding ↔ assignment.KnownOrder) := by
  refine ⟨generate_inRange opShardingStr operandShardingStr, ?_⟩
  intro assignment writes sharding generated
  unfold generate at generated
  obtain ⟨reading, read, rest⟩ := bind_ended generated
  obtain ⟨kind, lists, replicate⟩ := readSharding_text assignment _ _ writes reading read
  rw [kind] at rest
  obtain ⟨⟨shardShape, shardDims, meshShape⟩, determined, ended⟩ := bind_ended rest
  cases ended
  rw [replicate] at determined
  rw [show reading.shardShape = assignment.lists.1 from congrArg Prod.fst lists,
    show reading.meshShape = assignment.lists.2.1 from congrArg (fun all => all.2.1) lists,
    show reading.deviceIds = assignment.lists.2.2 from congrArg (fun all => all.2.2) lists] at determined
  unfold TileAssignment.ReadAs
  cases written : assignment.order with
  | listed ids =>
      rw [← written]
      exact readAs_listed ids written shardShape shardDims meshShape determined
  | iota reshape transpose =>
      rw [← written]
      exact readAs_iota reshape transpose written shardShape shardDims meshShape determined

def twoByTwo (ids : List Nat) (covers : ids.Perm (List.range 4)) : TileAssignment where
  dims := [2, 2]
  order := .listed ids
  lastTileDimReplicate := false
  nonempty := List.cons_ne_nil _ _
  positive := by decide
  covers := covers

/-- Devices across the tiles are read with their tiles. -/
theorem generate_reads_shardings_across :
    (twoByTwo [0, 2, 1, 3] (by decide)).ReadAs ⟨.devices, [2, 2], [1, 0], [2, 2], [0, 2, 1, 3], false⟩ :=
  ((generate_reads_shardings "{devices=[2,2]0,2,1,3}".toList "{manual}".toList).2 (twoByTwo [0, 2, 1, 3] (by decide))
    (Or.inl ⟨by decide, Or.inr rfl⟩) _ (by decide)).mpr
    (by unfold TileAssignment.KnownOrder twoByTwo; decide)

/-- Two devices the wrong way round are accepted as if they were in order, and a single device is
read past the end of its list. -/
theorem generate_misreads : ¬ ((∀ (assignment : TileAssignment) (opShardingStr operandShardingStr : List Char),
      assignment.Writes opShardingStr operandShardingStr → ∀ sharding,
        generate opShardingStr operandShardingStr = .ok sharding → assignment.ReadAs sharding) ∨
    ∀ opShardingStr operandShardingStr, generate opShardingStr operandShardingStr ≠ .error .outOfRange) := by
  rintro (reads | inRange)
  · have read := reads (twoByTwo [0, 1, 3, 2] (by decide)) "{devices=[2,2]0,1,3,2}".toList "{manual}".toList
      (Or.inl ⟨by decide, Or.inr rfl⟩) ⟨.devices, [2, 2], [0, 1], [2, 2], [0, 1, 3, 2], false⟩
      (by decide)
    have tile := read 2 (by decide) 1 (by decide)
    exact absurd tile (by decide)
  · exact inRange "{devices=[2]0}".toList "{manual}".toList (by decide)

end Meaning

end TtMlir.Gspmd
