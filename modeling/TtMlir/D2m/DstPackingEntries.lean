import TtMlir.D2m.DstPackingExact

/-!
Every entry of a packing makes up the shard of its value: outer iterations, flips and tiles per flip.
-/

namespace TtMlir.D2m.Dst.Region
variable {region : Region}

/-- The entry splits the value's shard under this many outer iterations. -/
structure Sized (region : Region) (outer : Int) (output : Nat) (entry : DSTPackingPerResultInfo) : Prop where
  tiles : 0 < entry.numTilesPerFlip
  flips : 0 < entry.numDstFlips
  perResult : entry.numTilesPerResult = entry.numDstFlips * entry.numTilesPerFlip
  volume : region.shardVolume output = some (outer * entry.numTilesPerResult)

def AllSized (region : Region) (outer : Int) (perResult : Nat → Option DSTPackingPerResultInfo) : Prop :=
  ∀ output entry, perResult output = some entry → region.Sized outer output entry

variable {outer common : Int} {perResult : Nat → Option DSTPackingPerResultInfo}

theorem allSized_nil : region.AllSized outer fun _ => none := fun _ _ found => by cases found

theorem AllSized.update (sized : region.AllSized outer perResult) {output : Nat} {entry : DSTPackingPerResultInfo}
    (here : region.Sized outer output entry) :
    region.AllSized outer (Function.update perResult output (some entry)) := by
  intro other found isEntry
  by_cases same : other = output
  · subst same
    rw [Function.update_self] at isEntry
    exact Option.some.inj isEntry ▸ here
  · rw [Function.update_of_ne same] at isEntry
    exact sized other found isEntry

theorem AllSized.tryEmplace (sized : region.AllSized outer perResult) {output : Nat} {entry : DSTPackingPerResultInfo}
    (here : region.Sized outer output entry) : region.AllSized outer (tryEmplace perResult output entry) := by
  unfold Dst.tryEmplace
  split
  · exact sized
  · exact sized.update here

theorem allSized_singles (outputs : List Nat) (single : ∀ output ∈ outputs, region.shardVolume output = some 1)
    (sized : region.AllSized 1 perResult) :
    region.AllSized 1 (outputs.foldl (fun perResult output => Dst.tryEmplace perResult output ⟨1, 1, 1⟩) perResult) := by
  induction outputs generalizing perResult with
  | nil => exact sized
  | cons output rest ih =>
      obtain ⟨here, later⟩ := List.forall_mem_cons.mp single
      exact ih later (sized.tryEmplace ⟨by decide, by decide, rfl, here⟩)

theorem emplacePending_sized (sized : region.AllSized common perResult) {write : LinalgOp × Nat}
    {pending : PendingDSTPackingResult} (packed : region.Packed write pending)
    {next : Nat → Option DSTPackingPerResultInfo} (step : emplacePending common perResult pending = .ok next) :
    region.AllSized common next := by
  simp only [emplacePending] at step
  split at step
  · cases step
  · next whole =>
      -- the common iterations divide the flips
      obtain ⟨divides, several⟩ := not_or.mp whole
      have product := Int.mul_ediv_cancel' (Int.dvd_of_emod_eq_zero (not_not.mp divides))
      have here : region.Sized common pending.outputValue ⟨pending.numDstFlips / common, pending.numTilesPerFlip,
          pending.numDstFlips / common * pending.numTilesPerFlip⟩ := by
        refine ⟨packed.positive, lt_of_lt_of_le (by decide) (not_lt.mp several), rfl, ?_⟩
        rw [packed.output, packed.volume, ← mul_assoc, product, packed.product]
      split at step
      · cases step
        exact sized.update here
      · split at step
        · cases step
          exact sized.update here
        · cases step
          exact sized

theorem emplaceAll_sized (pendingResults : List PendingDSTPackingResult)
    (each : ∀ pending ∈ pendingResults, ∃ write, region.Packed write pending)
    (sized : region.AllSized common perResult) {final : Nat → Option DSTPackingPerResultInfo}
    (run : pendingResults.foldlM (emplacePending common) perResult = .ok final) : region.AllSized common final := by
  induction pendingResults generalizing perResult with
  | nil =>
      cases run
      exact sized
  | cons pending rest ih =>
      obtain ⟨⟨write, packed⟩, later⟩ := List.forall_mem_cons.mp each
      rw [List.foldlM_cons] at run
      cases step : emplacePending common perResult pending with
      | error failure =>
          rw [step] at run
          cases run
      | ok next =>
          rw [step] at run
          exact ih later (emplacePending_sized sized packed step) run

theorem chunkShared_tiles {info : OpInfo} {entry : DSTPackingPerResultInfo} {iters : Int}
    (found : chunkShared iters info = .ok (some entry)) : entry.numTilesPerResult = info.shardSizeTiles / iters := by
  simp only [chunkShared] at found
  split at found
  · cases found
  · cases chunk : getLargestLegalChunkSize (info.shardSizeTiles / iters) info.maxDstTiles with
    | error failure =>
        rw [chunk] at found
        cases found
    | ok maxFlip =>
        rw [chunk] at found
        simp only [bind, Except.bind] at found
        split at found
        · cases found
        · cases found
          rfl

theorem chunkShared_sized {op : LinalgOp} {info : OpInfo} (isInfo : region.InfoOf op info) {share : Int}
    (rows : 0 < info.rowDim) (several : 2 ≤ share) (divides : share ∣ info.rowDim) {entry : DSTPackingPerResultInfo}
    (found : chunkShared (info.rowDim / share) info = .ok (some entry)) :
    region.Sized (info.rowDim / share) info.outputValue entry := by
  obtain ⟨same, isEntry, shared⟩ := region.chunkShared_spec op info isInfo rows several divides
  rw [found] at isEntry
  cases isEntry
  have colPositive := isInfo.colProduct_pos rows
  obtain ⟨iters, split⟩ := divides
  have itersPositive : 0 < iters := (pos_iff_pos_of_mul_pos (split ▸ rows)).mp (by omega)
  have quotient : info.rowDim / share = iters := by rw [split, Int.mul_ediv_cancel_left _ (by omega)]
  have perIter : entry.numTilesPerResult = share * info.colProduct := by
    rw [chunkShared_tiles found, quotient, isInfo.shard, split, mul_right_comm, Int.mul_ediv_cancel _ itersPositive.ne']
  obtain ⟨chunk, largest, tiles⟩ := shared.chunk
  have tilesPositive : 0 < entry.numTilesPerFlip := tiles ▸ lt_min largest.positive colPositive
  refine ⟨tilesPositive, by have := shared.flips; omega, by rw [perIter, shared.product], ?_⟩
  rw [isInfo.volume, quotient, perIter, isInfo.shard, split]
  congr 1
  ring

theorem chunkAllShared_sized {commonRowDim share : Int} (rows : 0 < commonRowDim) (several : 2 ≤ share)
    (divides : share ∣ commonRowDim) (opInfos : List OpInfo)
    (each : ∀ info ∈ opInfos, info.rowDim = commonRowDim ∧ ∃ op, region.InfoOf op info)
    (sized : region.AllSized (commonRowDim / share) perResult) {final : Nat → Option DSTPackingPerResultInfo}
    (run : chunkAllShared (commonRowDim / share) opInfos perResult = .ok (some final)) :
    region.AllSized (commonRowDim / share) final := by
  induction opInfos generalizing perResult with
  | nil =>
      cases run
      exact sized
  | cons info rest ih =>
      obtain ⟨⟨sameRows, op, isInfo⟩, later⟩ := List.forall_mem_cons.mp each
      simp only [chunkAllShared, bind, Except.bind] at run
      cases step : chunkShared (commonRowDim / share) info with
      | error failure =>
          rw [step] at run
          cases run
      | ok chunked =>
          rw [step] at run
          cases chunked with
          | none => cases run
          | some entry =>
              refine ih later (sized.tryEmplace ?_) run
              rw [← sameRows] at rows divides step ⊢
              exact chunkShared_sized isInfo rows several divides step

theorem tryFactors_sized {commonRowDim : Int} (rows : 0 < commonRowDim) (opInfos : List OpInfo)
    (each : ∀ info ∈ opInfos, info.rowDim = commonRowDim ∧ ∃ op, region.InfoOf op info) (factors : List Int)
    (divide : ∀ factor ∈ factors, factor ∣ commonRowDim) {info : DSTPackingRegionInfo}
    (run : tryFactors opInfos commonRowDim factors = .ok (some info)) :
    0 < info.numOuterLoopIters ∧ region.AllSized info.numOuterLoopIters info.perResult := by
  induction factors with
  | nil => cases run
  | cons factor rest ih =>
      obtain ⟨divides, later⟩ := List.forall_mem_cons.mp divide
      rw [tryFactors] at run
      split at run
      · exact ih later run
      · next proper =>
          simp only [bind, Except.bind] at run
          cases step : chunkAllShared (commonRowDim / factor) opInfos fun _ => none with
          | error failure =>
              rw [step] at run
              cases run
          | ok chunked =>
              rw [step] at run
              cases chunked with
              | none => exact ih later run
              | some final =>
                  cases run
                  exact ⟨Int.ediv_pos_of_pos_of_dvd rows (by omega) divides,
                    chunkAllShared_sized rows (by omega) divides opInfos each allSized_nil step⟩

theorem trySharedParallelChunking_sized {info : DSTPackingRegionInfo}
    (run : region.trySharedParallelChunking = .ok (some info)) :
    0 < info.numOuterLoopIters ∧ region.AllSized info.numOuterLoopIters info.perResult := by
  unfold trySharedParallelChunking at run
  cases found : region.sharedOpInfos with
  | none =>
      rw [found] at run
      cases run
  | some shared =>
      obtain ⟨opInfos, commonRowDim⟩ := shared
      rw [found] at run
      obtain ⟨-, rows, each⟩ := region.sharedOpInfos_spec opInfos commonRowDim found
      exact tryFactors_sized (by omega) opInfos each _ (fun factor member =>
        ((Layout.mem_getFactors _ (by omega) factor).mp (List.mem_reverse.mp member)).2) run

theorem computeDSTPackingForRegion_sized {info : DSTPackingRegionInfo}
    (packing : region.computeDSTPackingForRegion = .ok info) :
    0 < info.numOuterLoopIters ∧ region.AllSized info.numOuterLoopIters info.perResult := by
  cases passed : region.writes.mapM region.packOutput with
  | error failure =>
      rw [region.compute_error failure passed] at packing
      cases packing
  | ok scanned =>
      have each := region.scan_ok scanned passed
      cases pending : normalize (scanned.filterMap id) with
      | nil =>
          rw [region.compute_none passed pending] at packing
          split at packing
          · cases packing
          · cases packing
            refine ⟨Int.one_pos, allSized_singles _ (fun output member => ?_) allSized_nil⟩
            obtain ⟨⟨write, entry⟩, inZip, rfl⟩ := List.mem_map.mp member
            obtain ⟨inZip, isNone⟩ := List.mem_filter.mp inZip
            have paired := (List.forall₂_iff_zip.mp each).2 inZip
            cases Option.isNone_iff_eq_none.mp isNone
            exact paired
      | cons first rest =>
          by_cases several : region.singleTiles scanned = []
          · have packed := region.normalize_packed _ _ (region.all_packed _ scanned each (List.map_eq_nil_iff.mp several))
            rw [pending] at packed
            have back : ∀ entry ∈ first :: rest, ∃ write, region.Packed write entry := fun entry member => by
              obtain ⟨index, below, rfl⟩ := List.getElem_of_mem member
              have inside : index < region.writes.length := packed.length_eq ▸ below
              exact ⟨_, (List.forall₂_iff_get.mp packed).2 index inside below⟩
            have flips : ∀ entry ∈ first :: rest, 2 ≤ entry.numDstFlips := fun entry member => by
              obtain ⟨write, good⟩ := back entry member
              exact good.flips
            obtain ⟨common, isCommon, positive, fits⟩ := commonIters first.numDstFlips
              (rest.map PendingDSTPackingResult.numDstFlips) (by simpa using flips)
            obtain ⟨perResult, entered, -⟩ := emplaceAll positive (first :: rest) (fun entry member =>
              fits _ (by
                rw [← List.map_cons (f := PendingDSTPackingResult.numDstFlips)]
                exact List.mem_map_of_mem member)) emplaced_nil
            rw [region.compute_several passed several first rest pending common isCommon perResult entered] at packing
            split at packing
            · cases packing
            · next results shared =>
                cases packing
                split at shared
                · exact trySharedParallelChunking_sized shared
                · cases shared
            · cases packing
              exact ⟨positive, emplaceAll_sized _ back allSized_nil entered⟩
          · rw [region.compute_mixed passed (pending ▸ List.cons_ne_nil _ _) several] at packing
            cases packing

end TtMlir.D2m.Dst.Region
