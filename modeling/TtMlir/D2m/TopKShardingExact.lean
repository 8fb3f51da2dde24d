import TtMlir.D2m.TopKSharding

/-!
A selected top-k split is feasible. None is selected exactly when none is feasible, but for
the splits of the non-target dim alone into more slices than it has tiles: they are not tried.
-/

namespace TtMlir.D2m.TopK
open TtMlir.DivisorChain

theorem divideCeil_le_iff {numerator denominator bound : Nat} (positive : 0 < denominator) :
    divideCeil numerator denominator ≤ bound ↔ numerator ≤ denominator * bound := by
  rw [divideCeil, Nat.div_le_iff_le_mul_add_pred positive]
  omega

theorem le_mul_divideCeil {numerator denominator : Nat} (positive : 0 < denominator) :
    numerator ≤ denominator * divideCeil numerator denominator :=
  (divideCeil_le_iff positive).mp (Nat.le_refl _)

theorem divideCeil_pos {numerator denominator : Nat} (positive : 0 < numerator) :
    0 < divideCeil numerator denominator ∨ denominator = 0 := by
  rcases Nat.eq_zero_or_pos denominator with zero | known
  · exact Or.inr zero
  · refine Or.inl (Nat.pos_of_ne_zero fun none => ?_)
    have bound : numerator ≤ _ := le_mul_divideCeil known
    rw [none, Nat.mul_zero] at bound
    omega

theorem canHold_iff {workerGridShape : Nat × Nat} {cores : Nat} (positive : 0 < cores) :
    canHold workerGridShape cores = true ↔ Holds workerGridShape cores := by
  rw [canHold, Layout.findLegalPhysicalGridForVolume_isSome _ _ (by exact_mod_cast positive)]
  constructor
  · rintro ⟨⟨height, width⟩, heightPositive, widthPositive, volume, fitsHeight, fitsWidth⟩
    dsimp only at heightPositive widthPositive volume fitsHeight fitsWidth
    obtain ⟨height, rfl⟩ := Int.eq_ofNat_of_zero_le heightPositive.le
    obtain ⟨width, rfl⟩ := Int.eq_ofNat_of_zero_le widthPositive.le
    exact ⟨height, width, by exact_mod_cast heightPositive, by exact_mod_cast widthPositive, by exact_mod_cast volume,
      by exact_mod_cast fitsHeight, by exact_mod_cast fitsWidth⟩
  · rintro ⟨height, width, heightPositive, widthPositive, volume, fitsHeight, fitsWidth⟩
    refine ⟨((height : Int), (width : Int)), ?_⟩
    change 0 < (height : Int) ∧ 0 < (width : Int) ∧ (height : Int) * width = cores ∧
      (height : Int) ≤ workerGridShape.1 ∧ (width : Int) ≤ workerGridShape.2
    exact ⟨by exact_mod_cast heightPositive, by exact_mod_cast widthPositive, by exact_mod_cast volume,
      by exact_mod_cast fitsHeight, by exact_mod_cast fitsWidth⟩

section Schedule
variable {mergeCap : Int} {workerGridShape : Nat × Nat} {bands : Nat}

def Round (mergeCap : Int) (workerGridShape : Nat × Nat) (count next : Nat) : Prop :=
  ((count / next : Nat) : Int) ≤ mergeCap ∧ Holds workerGridShape next

theorem pickMergeGroupCount_some (found : pickMergeGroupCount mergeCap workerGridShape bands ≠ 0) :
    let groups := pickMergeGroupCount mergeCap workerGridShape bands
    0 < groups ∧ groups < bands ∧ groups ∣ bands ∧ Round mergeCap workerGridShape bands groups := by
  unfold pickMergeGroupCount at found ⊢
  cases search : (List.range' 1 (bands - 1)).find? fun groups =>
      decide (bands % groups = 0) && decide (((bands / groups : Nat) : Int) ≤ mergeCap) &&
        canHold workerGridShape groups with
  | none =>
      rw [search] at found
      exact absurd rfl found
  | some groups =>
      have passes := List.find?_some search
      have inside := List.mem_range'_1.mp (List.mem_of_find?_eq_some search)
      simp only [Bool.and_eq_true, decide_eq_true_eq] at passes
      obtain ⟨⟨divides, capped⟩, holds⟩ := passes
      exact ⟨inside.1, by simp only [Option.getD_some]; omega, Nat.dvd_of_mod_eq_zero divides, capped,
        (canHold_iff inside.1).mp holds⟩

theorem pickMergeGroupCount_ne_zero {groups : Nat} (positive : 0 < groups) (less : groups < bands)
    (divides : groups ∣ bands) (round : Round mergeCap workerGridShape bands groups) :
    pickMergeGroupCount mergeCap workerGridShape bands ≠ 0 := by
  unfold pickMergeGroupCount
  cases search : (List.range' 1 (bands - 1)).find? fun groups =>
      decide (bands % groups = 0) && decide (((bands / groups : Nat) : Int) ≤ mergeCap) &&
        canHold workerGridShape groups with
  | none =>
      have fails := List.find?_eq_none.mp search groups (List.mem_range'_1.mpr ⟨positive, by omega⟩)
      rw [decide_eq_true (Nat.mod_eq_zero_of_dvd divides), decide_eq_true round.1,
        (canHold_iff positive).mpr round.2] at fails
      exact absurd rfl fails
  | some found =>
      have inside := List.mem_range'_1.mp (List.mem_of_find?_eq_some search)
      rw [Option.getD_some]
      omega

theorem mergeRounds_descends {rounds : Nat} {schedule : List Nat} (enough : bands ≤ rounds) (positive : 0 < bands)
    (built : mergeRounds mergeCap workerGridShape rounds bands = some schedule) :
    Descends (Round mergeCap workerGridShape) bands schedule := by
  induction rounds generalizing bands schedule with
  | zero => omega
  | succ rounds ih =>
      rw [mergeRounds] at built
      by_cases one : bands ≤ 1
      · rw [if_pos one] at built
        cases built
        exact Nat.le_antisymm one positive
      · rw [if_neg one] at built
        dsimp only at built
        by_cases none : pickMergeGroupCount mergeCap workerGridShape bands = 0
        · rw [if_pos none] at built
          cases built
        · rw [if_neg none] at built
          obtain ⟨rest, later, rfl⟩ := Option.map_eq_some_iff.mp built
          obtain ⟨groupsPositive, less, divides, round⟩ := pickMergeGroupCount_some none
          exact ⟨less, divides, round, ih (by omega) groupsPositive later⟩

theorem mergeRounds_isSome (rounds : Nat) (holds : Holds workerGridShape bands)
    (smooth : Smooth mergeCap.toNat bands) : (mergeRounds mergeCap workerGridShape rounds bands).isSome := by
  induction rounds generalizing bands with
  | zero => rfl
  | succ rounds ih =>
      rw [mergeRounds]
      by_cases one : bands ≤ 1
      · rw [if_pos one]
        rfl
      · rw [if_neg one]
        obtain ⟨next, less, divides, nextPositive, capped⟩ := smooth.exists_next (by omega)
        have quotient : 0 < bands / next := Nat.div_pos less.le nextPositive
        have round : Round mergeCap workerGridShape bands next := ⟨by omega, holds.of_dvd divides⟩
        have found := pickMergeGroupCount_ne_zero nextPositive less divides round
        obtain ⟨_, _, picked, _, pickedHolds⟩ := pickMergeGroupCount_some found
        dsimp only
        rw [if_neg found, Option.isSome_map]
        exact ih pickedHolds (smooth.of_dvd picked)

theorem buildMergeSchedule_descends {schedule : List Nat} (positive : 0 < bands)
    (built : buildMergeSchedule bands mergeCap workerGridShape = some schedule) :
    Descends (Round mergeCap workerGridShape) bands schedule := mergeRounds_descends (Nat.le_refl _) positive built

theorem smooth_of_descends {schedule : List Nat} (descends : Descends (Round mergeCap workerGridShape) bands schedule) :
    Smooth mergeCap.toNat bands := by
  have smaller : Descends (fun count next => count / next ≤ mergeCap.toNat ∧ Holds workerGridShape next) bands schedule :=
    descends.imp fun count next round => ⟨by have := round.1; omega, round.2⟩
  exact smaller.smooth

end Schedule

namespace Request

structure WellFormed (request : Request) : Prop where
  some : 0 < request.k
  dim : request.dim = 0 ∨ request.dim = 1
  extents : 0 < request.inputShape.getD 0 0 ∧ 0 < request.inputShape.getD 1 0
  grid : 0 < request.workerGridShape.1 ∧ 0 < request.workerGridShape.2
  leafBytes : 0 < request.budget.bytesPerLeafTile
  mergeBytes : 0 < request.budget.bytesPerMergeTile

def leafBytes (request : Request) (bandTiles ntTiles : Nat) : Int :=
  ((bandTiles * ntTiles : Nat) : Int) * request.budget.bytesPerLeafTile + request.budget.fixedBytes

def gatheredBytes (request : Request) (ntTiles gathered : Nat) : Int :=
  gathered * (request.budget.bytesPerMergeTile * request.outputReductionTiles * ntTiles)

def Placed (request : Request) (bands ntShards : Nat) : Prop :=
  if 1 < bands ∧ 1 < ntShards then bands ≤ request.bandGridLimit ∧ ntShards ≤ request.ntGridLimit
  else Holds request.workerGridShape (bands * ntShards)

structure Fits (request : Request) (bands ntShards bandTiles ntTiles : Nat) (mergeSchedule : List Nat) : Prop where
  banded : 0 < bands
  sliced : 0 < ntShards
  covers : request.fullReductionTiles ≤ bands * bandTiles
  coversNonTarget : request.nonTargetTiles ≤ ntShards * ntTiles
  two : 2 ≤ bandTiles
  leaf : request.leafBytes bandTiles ntTiles ≤ request.budget.usableBytes
  placed : request.Placed bands ntShards
  merges : Descends (fun count next =>
    request.leafBytes bandTiles ntTiles + request.gatheredBytes ntTiles (count / next) ≤ request.budget.usableBytes ∧
      Holds request.workerGridShape next) bands mergeSchedule

/-- The selection is sound and gives up only when no split is feasible. -/
def Selects (request : Request) : Prop :=
  match selectTopKShardingStrategy request with
  | some strategy => strategy.outputReductionTiles = divideCeil request.k kTileWidth ∧
      (strategy.multiCore = true ↔ 1 < strategy.numShards) ∧ (strategy.dataParallel = true ↔ 1 < strategy.ntShards) ∧
      ∃ bandTiles ntTiles, strategy.paddedReductionTiles = strategy.numShards * bandTiles ∧
        strategy.paddedNonTargetTiles = strategy.ntShards * ntTiles ∧
        request.Fits strategy.numShards strategy.ntShards bandTiles ntTiles strategy.mergeSchedule
  | none => ∀ bands ntShards bandTiles ntTiles mergeSchedule,
      ¬ request.Fits bands ntShards bandTiles ntTiles mergeSchedule

variable {request : Request} {bands ntShards bandTiles ntTiles : Nat} {mergeSchedule : List Nat}

section
variable (wellFormed : request.WellFormed)
include wellFormed

theorem WellFormed.extent (dim : Nat) (known : dim = 0 ∨ dim = 1) :
    0 < divideCeil (request.inputShape.getD dim 0) kTileWidth := by
  have positive : 0 < request.inputShape.getD dim 0 := by
    rcases known with rfl | rfl
    · exact wellFormed.extents.1
    · exact wellFormed.extents.2
  exact (divideCeil_pos positive).resolve_right (by decide)

theorem WellFormed.reduction : 0 < request.fullReductionTiles :=
  wellFormed.extent request.dim wellFormed.dim

theorem WellFormed.nonTarget : 0 < request.nonTargetTiles := by
  refine wellFormed.extent (1 - request.dim) ?_
  rcases wellFormed.dim with zero | one
  · exact Or.inr (by rw [zero])
  · exact Or.inl (by rw [one])

theorem WellFormed.output : 0 < request.outputReductionTiles :=
  (divideCeil_pos wellFormed.some).resolve_right (by decide)

theorem le_maxTilesPerCore_iff (two : 2 ≤ bandTiles * ntTiles) :
    ((bandTiles * ntTiles : Nat) : Int) ≤ request.maxTilesPerCore ↔
      request.leafBytes bandTiles ntTiles ≤ request.budget.usableBytes := by
  have perTile := wellFormed.leafBytes
  unfold maxTilesPerCore leafBytes
  rw [le_max_iff, or_iff_left (by omega)]
  constructor
  · intro fits
    have room : 0 ≤ request.budget.usableBytes - request.budget.fixedBytes := by
      by_contra overdrawn
      have lost := Int.tdiv_nonneg (a := -(request.budget.usableBytes - request.budget.fixedBytes))
        (b := request.budget.bytesPerLeafTile) (by omega) perTile.le
      rw [Int.neg_tdiv] at lost
      omega
    rw [Int.tdiv_eq_ediv_of_nonneg room, Int.le_ediv_iff_mul_le perTile] at fits
    omega
  · intro fits
    have product : 0 ≤ ((bandTiles * ntTiles : Nat) : Int) * request.budget.bytesPerLeafTile :=
      Int.mul_nonneg (by omega) perTile.le
    rw [Int.tdiv_eq_ediv_of_nonneg (by omega), Int.le_ediv_iff_mul_le perTile]
    omega

theorem le_mergeCapFor_iff (slices : 0 < ntTiles)
    (leaf : request.leafBytes bandTiles ntTiles ≤ request.budget.usableBytes) (gathered : Nat) :
    (gathered : Int) ≤ request.mergeCapFor (bandTiles * ntTiles) ntTiles ↔
      request.leafBytes bandTiles ntTiles + request.gatheredBytes ntTiles gathered ≤ request.budget.usableBytes := by
  have perBand : 0 < request.budget.bytesPerMergeTile * request.outputReductionTiles * ntTiles :=
    Int.mul_pos (Int.mul_pos wellFormed.mergeBytes (by exact_mod_cast wellFormed.output)) (by exact_mod_cast slices)
  unfold leafBytes at leaf
  unfold mergeCapFor leafBytes gatheredBytes
  rw [Int.tdiv_eq_ediv_of_nonneg (by omega), Int.le_ediv_iff_mul_le perBand]
  omega

end

theorem placeable_iff (positive : 0 < bands) (sliced : 0 < ntShards) :
    request.placeable bands ntShards = true ↔ request.Placed bands ntShards := by
  unfold placeable Placed
  split
  · rw [Bool.and_eq_true, decide_eq_true_eq, decide_eq_true_eq]
  · exact canHold_iff (Nat.mul_pos positive sliced)

theorem bandTiles_covers (positive : 0 < bands) : request.fullReductionTiles ≤ bands * request.bandTiles bands := by
  unfold Request.bandTiles
  split
  · rename_i one
    rw [one, Nat.one_mul]
    exact le_max_left _ _
  · exact le_mul_divideCeil positive

section
variable (wellFormed : request.WellFormed)
include wellFormed

theorem leafBytes_mono {fewerBands fewerSlices : Nat} (bandsLe : fewerBands ≤ bandTiles)
    (slicesLe : fewerSlices ≤ ntTiles) : request.leafBytes fewerBands fewerSlices ≤ request.leafBytes bandTiles ntTiles := by
  unfold leafBytes
  refine Int.add_le_add_right (Int.mul_le_mul_of_nonneg_right ?_ wellFormed.leafBytes.le) _
  exact_mod_cast Nat.mul_le_mul bandsLe slicesLe

theorem gatheredBytes_mono {fewerSlices : Nat} (slicesLe : fewerSlices ≤ ntTiles)
    (gathered : Nat) : request.gatheredBytes fewerSlices gathered ≤ request.gatheredBytes ntTiles gathered := by
  unfold gatheredBytes
  refine Int.mul_le_mul_of_nonneg_left (Int.mul_le_mul_of_nonneg_left (by exact_mod_cast slicesLe) ?_) (by omega)
  exact Int.mul_nonneg wellFormed.mergeBytes.le (by omega)

theorem WellFormed.holds_row {cores : Nat} (positive : 0 < cores)
    (within : cores ≤ request.workerGridShape.2) : Holds request.workerGridShape cores :=
  ⟨1, cores, Nat.one_pos, positive, Nat.one_mul _, wellFormed.grid.1, within⟩

theorem WellFormed.holds_bands (positive : 0 < bands)
    (within : bands ≤ request.bandGridLimit) : Holds request.workerGridShape bands := by
  refine wellFormed.holds_row positive (within.trans ?_)
  unfold bandGridLimit
  split
  · exact Nat.le_refl _
  · exact min_le_right _ _

theorem WellFormed.holds_slices (positive : 0 < ntShards)
    (within : ntShards ≤ request.ntGridLimit) : Holds request.workerGridShape ntShards := by
  unfold ntGridLimit at within
  split at within
  · exact ⟨ntShards, 1, positive, Nat.one_pos, Nat.mul_one _, within, wellFormed.grid.2⟩
  · exact wellFormed.holds_row positive within

end

theorem Placed.holds (placed : request.Placed bands ntShards) (wellFormed : request.WellFormed) (positive : 0 < bands)
    (sliced : 0 < ntShards) :
    Holds request.workerGridShape bands ∧ Holds request.workerGridShape ntShards := by
  unfold Placed at placed
  split at placed
  · exact ⟨wellFormed.holds_bands positive placed.1, wellFormed.holds_slices sliced placed.2⟩
  · exact ⟨placed.of_dvd (Dvd.intro _ rfl), placed.of_dvd (Dvd.intro_left _ rfl)⟩

theorem placed_one_iff : request.Placed 1 ntShards ↔ Holds request.workerGridShape ntShards := by
  unfold Placed
  rw [if_neg fun both => Nat.lt_irrefl 1 both.1, Nat.one_mul]

theorem WellFormed.slices (wellFormed : request.WellFormed) (sliced : 0 < ntShards) : 0 < request.ntTiles ntShards :=
  (divideCeil_pos wellFormed.nonTarget).resolve_right sliced.ne'

theorem accept_some (wellFormed : request.WellFormed) (positive : 0 < bands) (sliced : 0 < ntShards)
    {strategy : TopKShardingStrategy} (found : request.accept bands ntShards = some strategy) :
    ∃ mergeSchedule, strategy = request.accepted bands ntShards mergeSchedule ∧
      request.Fits bands ntShards (request.bandTiles bands) (request.ntTiles ntShards) mergeSchedule := by
  unfold accept at found
  dsimp only at found
  split at found
  · cases found
  rename_i wide
  split at found
  · cases found
  rename_i small
  split at found
  · cases found
  rename_i placeable
  have slices := wellFormed.slices sliced
  have two : 2 ≤ request.bandTiles bands := by
    by_cases one : bands = 1
    · rw [Request.bandTiles, if_pos one]
      exact le_max_right _ _
    · by_contra thin
      exact wide ⟨by omega, by omega⟩
  have leaf := (le_maxTilesPerCore_iff wellFormed (Nat.le_mul_of_pos_right _ slices |>.trans' two)).mp
    (Int.not_lt.mp small)
  have placed := (placeable_iff positive sliced).mp (Bool.eq_true_of_not_eq_false placeable)
  have fits (mergeSchedule : List Nat) (merges : Descends
      (Round (request.mergeCapFor (request.bandTiles bands * request.ntTiles ntShards) (request.ntTiles ntShards))
        request.workerGridShape) bands mergeSchedule) :
      request.Fits bands ntShards (request.bandTiles bands) (request.ntTiles ntShards) mergeSchedule := by
    refine ⟨positive, sliced, bandTiles_covers positive, le_mul_divideCeil sliced, two, leaf, placed,
      merges.imp fun count next round => ⟨?_, round.2⟩⟩
    exact (le_mergeCapFor_iff wellFormed slices leaf _).mp round.1
  split at found
  · obtain ⟨mergeSchedule, built, same⟩ := Option.map_eq_some_iff.mp found
    exact ⟨mergeSchedule, same.symm, fits mergeSchedule (buildMergeSchedule_descends positive built)⟩
  · rename_i single
    exact ⟨[], (Option.some.inj found).symm, fits [] (by change bands = 1; omega)⟩

/-- A feasible split is accepted, with as few tiles as cover; only bands of one tile are not. -/
theorem Fits.accepted (fits : request.Fits bands ntShards bandTiles ntTiles mergeSchedule)
    (wellFormed : request.WellFormed) (wide : bands = 1 ∨ 2 ≤ request.bandTiles bands) :
    (request.accept bands ntShards).isSome := by
  have bandsLe : request.bandTiles bands ≤ bandTiles := by
    unfold Request.bandTiles
    split
    · rename_i one
      have covers := fits.covers
      rw [one, Nat.one_mul] at covers
      exact max_le covers fits.two
    · exact (divideCeil_le_iff fits.banded).mpr fits.covers
  have slicesLe : request.ntTiles ntShards ≤ ntTiles := (divideCeil_le_iff fits.sliced).mpr fits.coversNonTarget
  have two : 2 ≤ request.bandTiles bands := by
    rcases wide with one | two
    · rw [Request.bandTiles, if_pos one]
      exact le_max_right _ _
    · exact two
  have slices := wellFormed.slices fits.sliced
  have leafLe := leafBytes_mono wellFormed bandsLe slicesLe
  have leaf := leafLe.trans fits.leaf
  have small := (le_maxTilesPerCore_iff wellFormed (Nat.le_mul_of_pos_right _ slices |>.trans' two)).mpr leaf
  unfold accept
  dsimp only
  rw [if_neg fun thin => Nat.not_lt.mpr two thin.2, if_neg (Int.not_lt.mpr small),
    if_neg (by rw [(placeable_iff fits.banded fits.sliced).mpr fits.placed]; exact Bool.noConfusion)]
  split
  · rw [Option.isSome_map]
    have merges : Descends (Round (request.mergeCapFor (request.bandTiles bands * request.ntTiles ntShards)
        (request.ntTiles ntShards)) request.workerGridShape) bands mergeSchedule := by
      refine fits.merges.imp fun count next round => ⟨(le_mergeCapFor_iff wellFormed slices leaf _).mpr ?_, round.2⟩
      exact (Int.add_le_add leafLe (gatheredBytes_mono wellFormed slicesLe _)).trans round.1
    exact mergeRounds_isSome _ (fits.placed.holds wellFormed fits.banded fits.sliced).1 (smooth_of_descends merges)
  · rfl

theorem Fits.exists_wide (fits : request.Fits bands ntShards bandTiles ntTiles mergeSchedule)
    (wellFormed : request.WellFormed) (banded : 1 < bands) (thin : request.bandTiles bands < 2) :
    ∃ fewer chain, request.Fits fewer ntShards 2 ntTiles chain ∧ (fewer = 1 ∨ 2 ≤ request.bandTiles fewer) := by
  have above : request.fullReductionTiles ≤ bands := by
    rw [Request.bandTiles, if_neg banded.ne'] at thin
    have few := Nat.le_of_lt_succ thin
    rwa [divideCeil_le_iff fits.banded, Nat.mul_one] at few
  obtain ⟨holds, holdsSlices⟩ := fits.placed.holds wellFormed fits.banded fits.sliced
  have leaf : request.leafBytes 2 ntTiles ≤ request.budget.usableBytes :=
    (leafBytes_mono wellFormed fits.two (Nat.le_refl _)).trans fits.leaf
  by_cases short : request.fullReductionTiles ≤ 2
  · exact ⟨1, [], ⟨Nat.one_pos, fits.sliced, by omega, fits.coversNonTarget, Nat.le_refl _, leaf,
      placed_one_iff.mpr holdsSlices, rfl⟩, Or.inl rfl⟩
  have slices : 0 < ntTiles := by
    refine Nat.pos_of_ne_zero fun none => ?_
    have covers := fits.coversNonTarget
    rw [none, Nat.mul_zero] at covers
    exact absurd wellFormed.nonTarget (Nat.not_lt.mpr covers)
  have rounds : Descends (Round (request.mergeCapFor (2 * ntTiles) ntTiles) request.workerGridShape) bands
      mergeSchedule := by
    refine fits.merges.imp fun count next round => ⟨(le_mergeCapFor_iff wellFormed slices leaf _).mpr ?_, round.2⟩
    exact (Int.add_le_add_right (leafBytes_mono wellFormed fits.two (Nat.le_refl _)) _).trans round.1
  obtain ⟨fewer, below, half, fewerHolds, smooth⟩ :=
    holds.exists_between (smooth_of_descends rounds) request.fullReductionTiles (by omega) above
  obtain ⟨chain, built⟩ := Option.isSome_iff_exists.mp (mergeRounds_isSome fewer fewerHolds smooth)
  have merges := buildMergeSchedule_descends (by omega) built
  refine ⟨fewer, chain, ⟨by omega, fits.sliced, by omega, fits.coversNonTarget, Nat.le_refl _, leaf, ?_,
    merges.imp fun count next round => ⟨(le_mergeCapFor_iff wellFormed slices leaf _).mp round.1, round.2⟩⟩, Or.inr ?_⟩
  · have placed := fits.placed
    unfold Placed at placed ⊢
    by_cases sliced : 1 < ntShards
    · rw [if_pos ⟨banded, sliced⟩] at placed
      rw [if_pos ⟨by omega, sliced⟩]
      exact ⟨by omega, placed.2⟩
    · have one : ntShards = 1 := Nat.le_antisymm (Nat.not_lt.mp sliced) fits.sliced
      rw [if_neg fun both => sliced both.2, one, Nat.mul_one]
      exact fewerHolds
  · by_contra single
    rw [Request.bandTiles, if_neg (by omega)] at single
    have few : divideCeil request.fullReductionTiles fewer ≤ 1 := by omega
    rw [divideCeil_le_iff (by omega)] at few
    omega

end Request

section Scan
variable {β : Type} {lo hi : Nat} {accept : Nat → Option β}

theorem scanPowerOfTwoFirst_some {result : β} (found : scanPowerOfTwoFirst lo hi accept = some result) :
    ∃ cand, lo ≤ cand ∧ cand ≤ hi ∧ accept cand = some result := by
  obtain ⟨powerOfTwoOnly, _, scanned⟩ := List.exists_of_findSome?_eq_some found
  obtain ⟨cand, member, tried⟩ := List.exists_of_findSome?_eq_some scanned
  have inside := List.mem_range'_1.mp member
  exact ⟨cand, inside.1, by omega, (Option.ite_none_left_eq_some.mp tried).2⟩

theorem scanPowerOfTwoFirst_none (failed : scanPowerOfTwoFirst lo hi accept = none) {cand : Nat} (low : lo ≤ cand)
    (high : cand ≤ hi) : accept cand = none := by
  -- the second pass tries them all
  have second := List.findSome?_eq_none_iff.mp failed false (by simp)
  have tried := List.findSome?_eq_none_iff.mp second cand (List.mem_range'_1.mpr ⟨low, by omega⟩)
  simpa using tried

end Scan

section Selection
variable {request : Request} {bands ntShards : Nat}

def Request.Tried (request : Request) (bands ntShards : Nat) : Prop :=
  (bands = 1 ∧ ntShards = 1) ∨ (2 ≤ bands ∧ bands ≤ request.maxGridCores ∧ ntShards = 1) ∨
    (bands = 1 ∧ 2 ≤ ntShards ∧ ntShards ≤ min request.nonTargetTiles request.maxGridCores) ∨
      (2 ≤ bands ∧ bands ≤ request.bandGridLimit ∧ 2 ≤ ntShards ∧ ntShards ≤ request.ntGridLimit)

theorem select_some {strategy : TopKShardingStrategy} (selected : selectTopKShardingStrategy request = some strategy) :
    ∃ bands ntShards, request.Tried bands ntShards ∧ request.accept bands ntShards = some strategy := by
  unfold selectTopKShardingStrategy at selected
  rcases Option.or_eq_some_iff.mp selected with one | ⟨-, selected⟩
  · exact ⟨1, 1, Or.inl ⟨rfl, rfl⟩, one⟩
  rcases Option.or_eq_some_iff.mp selected with banded | ⟨-, selected⟩
  · obtain ⟨bands, low, high, found⟩ := scanPowerOfTwoFirst_some banded
    exact ⟨bands, 1, Or.inr (Or.inl ⟨low, high, rfl⟩), found⟩
  rcases Option.or_eq_some_iff.mp selected with sliced | ⟨-, both⟩
  · obtain ⟨ntShards, member, found⟩ := List.exists_of_findSome?_eq_some sliced
    have inside := List.mem_range'_1.mp (List.mem_reverse.mp member)
    exact ⟨1, ntShards, Or.inr (Or.inr (Or.inl ⟨rfl, inside.1, by omega⟩)), found⟩
  · obtain ⟨bands, low, high, scanned⟩ := scanPowerOfTwoFirst_some both
    obtain ⟨ntShards, member, found⟩ := List.exists_of_findSome?_eq_some scanned
    have inside := List.mem_range'_1.mp member
    exact ⟨bands, ntShards, Or.inr (Or.inr (Or.inr ⟨low, high, inside.1, by omega⟩)), found⟩

theorem select_none (failed : selectTopKShardingStrategy request = none) (tried : request.Tried bands ntShards) :
    request.accept bands ntShards = none := by
  unfold selectTopKShardingStrategy at failed
  obtain ⟨one, failed⟩ := Option.or_eq_none_iff.mp failed
  obtain ⟨banded, failed⟩ := Option.or_eq_none_iff.mp failed
  obtain ⟨sliced, both⟩ := Option.or_eq_none_iff.mp failed
  rcases tried with ⟨rfl, rfl⟩ | ⟨low, high, rfl⟩ | ⟨rfl, low, high⟩ | ⟨low, high, lowSlices, highSlices⟩
  · exact one
  · exact scanPowerOfTwoFirst_none banded low high
  · exact List.findSome?_eq_none_iff.mp sliced ntShards
      (List.mem_reverse.mpr (List.mem_range'_1.mpr ⟨low, by omega⟩))
  · have scanned : ((List.range' 2 (request.ntGridLimit - 1)).findSome? fun ntShards => request.accept bands ntShards) =
        none := scanPowerOfTwoFirst_none both low high
    exact List.findSome?_eq_none_iff.mp scanned ntShards (List.mem_range'_1.mpr ⟨lowSlices, by omega⟩)

namespace Request

theorem Fits.tried {bandTiles ntTiles : Nat} {mergeSchedule : List Nat}
    (fits : request.Fits bands ntShards bandTiles ntTiles mergeSchedule) (wellFormed : request.WellFormed)
    (usual : 1 < bands ∨ ntShards ≤ request.nonTargetTiles) : request.Tried bands ntShards := by
  have holds := fits.placed.holds wellFormed fits.banded fits.sliced
  have bandsLe : bands ≤ request.maxGridCores := holds.1.le
  have slicesLe : ntShards ≤ request.maxGridCores := holds.2.le
  have sliced := fits.sliced
  rcases Nat.eq_or_lt_of_le (Nat.succ_le_of_lt fits.banded) with one | banded
  · rcases Nat.eq_or_lt_of_le (Nat.succ_le_of_lt sliced) with single | several
    · exact Or.inl ⟨one.symm, single.symm⟩
    · exact Or.inr (Or.inr (Or.inl ⟨one.symm, several, by omega⟩))
  · rcases Nat.eq_or_lt_of_le (Nat.succ_le_of_lt sliced) with single | several
    · exact Or.inr (Or.inl ⟨banded, bandsLe, single.symm⟩)
    · have placed := fits.placed
      unfold Placed at placed
      rw [if_pos ⟨banded, several⟩] at placed
      exact Or.inr (Or.inr (Or.inr ⟨banded, placed.1, several, placed.2⟩))

theorem not_fits_of_select_none (wellFormed : request.WellFormed) (failed : selectTopKShardingStrategy request = none)
    {bandTiles ntTiles : Nat} {mergeSchedule : List Nat} (usual : 1 < bands ∨ ntShards ≤ request.nonTargetTiles) :
    ¬ request.Fits bands ntShards bandTiles ntTiles mergeSchedule := by
  have refused {bands ntShards bandTiles ntTiles : Nat} {mergeSchedule : List Nat}
      (usual : 1 < bands ∨ ntShards ≤ request.nonTargetTiles) (wide : bands = 1 ∨ 2 ≤ request.bandTiles bands) :
      ¬ request.Fits bands ntShards bandTiles ntTiles mergeSchedule := by
    intro fits
    have found := fits.accepted wellFormed wide
    rw [select_none failed (fits.tried wellFormed usual)] at found
    cases found
  intro fits
  by_cases wide : bands = 1 ∨ 2 ≤ request.bandTiles bands
  · exact refused usual wide fits
  push Not at wide
  have banded : 1 < bands := Nat.lt_of_le_of_ne fits.banded (Ne.symm wide.1)
  obtain ⟨fewer, chain, fewerFits, fewerWide⟩ := fits.exists_wide wellFormed banded wide.2
  by_cases narrow : ntShards ≤ request.nonTargetTiles
  · exact refused (Or.inr narrow) fewerWide fewerFits
  by_cases several : 1 < fewer
  · exact refused (Or.inl several) fewerWide fewerFits
  -- one band and surplus slices: as the slices fit one axis of the grid, a slice per tile does
  have one : fewer = 1 := Nat.le_antisymm (Nat.not_lt.mp several) fewerFits.banded
  subst one
  have surplus := wellFormed.nonTarget
  have slices : ntShards ≤ request.ntGridLimit := by
    have placed := fits.placed
    unfold Placed at placed
    rw [if_pos ⟨banded, by omega⟩] at placed
    exact placed.2
  have tiles : 1 ≤ ntTiles := by
    refine Nat.pos_of_ne_zero fun none => ?_
    have covers := fits.coversNonTarget
    rw [none, Nat.mul_zero] at covers
    omega
  have perTile : request.Fits 1 request.nonTargetTiles 2 1 [] :=
    ⟨Nat.one_pos, surplus, fewerFits.covers, by omega, Nat.le_refl _,
      (leafBytes_mono wellFormed (Nat.le_refl _) tiles).trans fewerFits.leaf,
      placed_one_iff.mpr (wellFormed.holds_slices surplus (by omega)), rfl⟩
  exact refused (Or.inr (Nat.le_refl _)) (Or.inl rfl) perTile

/-- A split of the non-target dim alone into more slices than it has tiles is feasible only
where another split is. -/
def NeedsNoSurplusSlices (request : Request) : Prop :=
  ∀ ntShards bandTiles ntTiles, request.nonTargetTiles < ntShards → request.Fits 1 ntShards bandTiles ntTiles [] →
    ∃ bands fewer bandTiles ntTiles mergeSchedule, (1 < bands ∨ fewer ≤ request.nonTargetTiles) ∧
      request.Fits bands fewer bandTiles ntTiles mergeSchedule

theorem selects_iff (wellFormed : request.WellFormed) : request.Selects ↔ request.NeedsNoSurplusSlices := by
  unfold Selects
  cases selected : selectTopKShardingStrategy request with
  | none =>
      constructor
      · intro never ntShards bandTiles ntTiles _ fits
        exact absurd fits (never 1 ntShards bandTiles ntTiles [])
      · intro needless bands ntShards bandTiles ntTiles mergeSchedule fits
        by_cases usual : 1 < bands ∨ ntShards ≤ request.nonTargetTiles
        · exact not_fits_of_select_none wellFormed selected usual fits
        push Not at usual
        have one : bands = 1 := Nat.le_antisymm usual.1 fits.banded
        subst one
        have alone : request.Fits 1 ntShards bandTiles ntTiles [] := { fits with merges := rfl }
        obtain ⟨bands, fewer, bandTiles, ntTiles, mergeSchedule, usual, fits⟩ :=
          needless ntShards bandTiles ntTiles usual.2 alone
        exact not_fits_of_select_none wellFormed selected usual fits
  | some strategy =>
      obtain ⟨bands, ntShards, tried, accepted⟩ := select_some selected
      have positive : 0 < bands ∧ 0 < ntShards := by
        rcases tried with ⟨rfl, rfl⟩ | ⟨low, _, rfl⟩ | ⟨rfl, low, _⟩ | ⟨low, _, lowSlices, _⟩ <;> omega
      have usual : 1 < bands ∨ ntShards ≤ request.nonTargetTiles := by
        have atLeast := wellFormed.nonTarget
        rcases tried with ⟨rfl, rfl⟩ | ⟨low, _, rfl⟩ | ⟨rfl, _, high⟩ | ⟨low, _⟩ <;> omega
      obtain ⟨mergeSchedule, rfl, fits⟩ := accept_some wellFormed positive.1 positive.2 accepted
      refine iff_of_true ⟨rfl, ?_, ?_, _, _, rfl, rfl, fits⟩ ?_
      · exact decide_eq_true_iff
      · exact decide_eq_true_iff
      · exact fun _ _ _ _ _ => ⟨bands, ntShards, _, _, mergeSchedule, usual, fits⟩

def sevenSlices : Request where
  k := 32
  dim := 1
  inputShape := [224, 64]
  workerGridShape := (2, 4)
  budget := { usableBytes := 57344, bytesPerLeafTile := 24576, bytesPerMergeTile := 16384, fixedBytes := 0 }

theorem sevenSlices_wellFormed : sevenSlices.WellFormed :=
  ⟨by decide, Or.inr rfl, by decide, by decide, by decide, by decide⟩

theorem sevenSlices_fits_eight : sevenSlices.Fits 1 8 2 1 [] where
  banded := by decide
  sliced := by decide
  covers := by decide
  coversNonTarget := by decide
  two := by decide
  leaf := by decide
  placed := ⟨2, 4, by decide, by decide, rfl, by decide, by decide⟩
  merges := rfl

theorem sevenSlices_missed : sevenSlices.WellFormed ∧ ¬ sevenSlices.Selects := by
  have failed : selectTopKShardingStrategy sevenSlices = none := by with_unfolding_all decide
  refine ⟨sevenSlices_wellFormed, fun selects => ?_⟩
  unfold Selects at selects
  rw [failed] at selects
  exact selects 1 8 2 1 [] sevenSlices_fits_eight

theorem tallGrid_selects : { sevenSlices with workerGridShape := (8, 8) }.Selects := by
  refine (selects_iff ⟨by decide, Or.inr rfl, by decide, by decide, by decide, by decide⟩).mpr ?_
  refine fun _ _ _ _ _ => ⟨1, 7, 2, 1, [], Or.inr (by decide), ?_⟩
  exact ⟨by decide, by decide, by decide, by decide, by decide, by decide,
    ⟨7, 1, by decide, by decide, rfl, by decide, by decide⟩, rfl⟩

end Request

end Selection

end TtMlir.D2m.TopK
