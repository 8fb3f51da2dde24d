import TtMlir.D2m.BlockFactors

/-!
Automatic block factors are legal, and the best of those that the search looks at: the
unbounded search over a parallel op looks at five divisors of each shard factor.
-/

namespace TtMlir.D2m.BlockFactors

section Order

theorem isLexicographicallyLarger_iff {lhs rhs : List Int} (length : lhs.length = rhs.length) :
    isLexicographicallyLarger lhs rhs = true ↔ rhs < lhs := by
  induction lhs generalizing rhs with
  | nil =>
      rw [List.length_eq_zero_iff.mp length.symm]
      simp [isLexicographicallyLarger]
  | cons left lhs ih =>
      cases rhs with
      | nil => cases length
      | cons right rhs =>
          rw [isLexicographicallyLarger, List.cons_lt_cons_iff]
          by_cases same : left = right
          · subst same
            simp [ih (Nat.succ.inj length)]
          · simp [same, Ne.symm same]

def merit (shapeClass : AutoShapeClass) (score : CandidateScore) : ℤ ×ₗ ℤ ×ₗ List ℤ :=
  match shapeClass with
  | .singleReduction => toLex (-score.cbBytes, toLex (score.blockingVolume, score.dimScales))
  | .allParallelEltwise | .allParallelLayoutConversion =>
      toLex (score.blockingVolume, toLex (-score.cbBytes, score.dimScales))

theorem threeKeys_iff {a b c d : ℤ} {x y : List ℤ} {last : Bool} (lastIff : last = true ↔ y < x) :
    (if a ≠ b then decide (b < a) else if c ≠ d then decide (d < c) else last) = true ↔
      toLex (b, toLex (d, y)) < toLex (a, toLex (c, x)) := by
  rw [Prod.Lex.toLex_lt_toLex, Prod.Lex.toLex_lt_toLex, ← lastIff]
  by_cases first : a = b
  · by_cases second : c = d
    · simp [first, second]
    · simp [first, second, Ne.symm second]
  · simp [first, Ne.symm first]

theorem isBetterCandidate_iff {shapeClass : AutoShapeClass} {rank : Nat} {lhs rhs : CandidateScore}
    (left : lhs.dimScales.length = rank) (right : rhs.dimScales.length = rank) :
    isBetterCandidate shapeClass lhs rhs = true ↔ merit shapeClass rhs < merit shapeClass lhs := by
  have scales := isLexicographicallyLarger_iff (left.trans right.symm)
  -- fewer bytes are better, so they count negated
  have bytes : decide (lhs.cbBytes < rhs.cbBytes) = decide (-rhs.cbBytes < -lhs.cbBytes) :=
    decide_eq_decide.mpr neg_lt_neg_iff.symm
  have bytesDiffer : lhs.cbBytes ≠ rhs.cbBytes ↔ -lhs.cbBytes ≠ -rhs.cbBytes := neg_injective.ne_iff.symm
  cases shapeClass with
  | singleReduction =>
      simp only [isBetterCandidate, merit, bytes, bytesDiffer]
      exact threeKeys_iff scales
  | allParallelEltwise =>
      simp only [isBetterCandidate, merit, bytes, bytesDiffer]
      exact threeKeys_iff scales
  | allParallelLayoutConversion =>
      simp only [isBetterCandidate, merit, bytes, bytesDiffer]
      exact threeKeys_iff scales

end Order

section Divisors
variable {shardFactor factor : Int} (positive : 0 < shardFactor)
include positive

theorem mem_buildEltwiseScaleSearchOrder (member : factor ∈ buildEltwiseScaleSearchOrder shardFactor) :
    0 < factor ∧ factor ∣ shardFactor := by
  have kept : ∀ {order : List Int}, order.Perm (Layout.getFactors shardFactor) →
      factor ∈ order.take kEltwiseScalesPerDim → 0 < factor ∧ factor ∣ shardFactor := fun perm early =>
    (Layout.mem_getFactors shardFactor positive factor).mp (perm.mem_iff.mp (List.mem_of_mem_take early))
  rw [buildEltwiseScaleSearchOrder] at member
  split at member
  · exact kept (List.perm_insertionSort ..) member
  · rcases List.mem_append.mp member with early | one
    · exact kept (List.perm_insertionSort ..) ((List.dropLast_sublist _).subset early)
    · rw [List.mem_singleton.mp one]
      exact ⟨Int.one_pos, one_dvd _⟩

end Divisors

namespace Request
variable (request : Request) (config : AutoSearchConfig)

/-- Divisors of the shard factors on the candidate dims, 1 on the others. -/
structure Choice (scales : List Int) : Prop where
  rank : scales.length = request.shardFactors.length
  divisors : ∀ dim ∈ config.candidateDims,
    0 < scales.getD dim 1 ∧ scales.getD dim 1 ∣ request.shardFactors.getD dim 0
  others : ∀ dim ∉ config.candidateDims, scales.getD dim 1 = 1

/-- Every operand that has a scaled dim fits its new grid evenly, with a shard of four elements. -/
def Legal (scales : List Int) : Prop :=
  ∀ operand ∈ request.generic.operands.zipIdx,
    isIndexingMapBlocked (request.generic.indexingMap operand.2) (getBlockedDimMask scales) = true →
    canReblockOperandToGrid operand.1 (request.getOperandGridAndShardExtents operand.2
      (request.candidateGridExtents scales) (request.candidateShardExtents scales)).1 = true ∧
    4 ≤ volume (request.getOperandGridAndShardExtents operand.2
      (request.candidateGridExtents scales) (request.candidateShardExtents scales)).2

def Passes (scales : List Int) (score : CandidateScore) : Prop :=
  request.evaluateCandidate config.candidateDims scales false = some score ∨
    config.shapeClass = .singleReduction ∧ scales = request.unscaled ∧
      request.evaluateCandidate config.candidateDims scales true = some score

/-- No passing choice is better, or no choice passes and nothing is scaled. -/
def Optimal (scales : List Int) : Prop :=
  (∃ winner, request.Passes config scales winner ∧ ∀ choice score, request.Choice config choice →
    request.evaluateCandidate config.candidateDims choice false = some score →
    isBetterCandidate config.shapeClass score winner = false) ∨
  scales = request.unscaled ∧ ∀ choice, request.Choice config choice →
    request.evaluateCandidate config.candidateDims choice false = none

def Meets (blockFactors : List Int) : Prop :=
  ∃ scales, request.Choice config scales ∧ blockFactors = request.candidateBlockFactors scales ∧
    (scales ≠ request.unscaled → request.Legal scales) ∧
    (request.useBoundedEltwiseSearch = false → request.Optimal config scales)

def Tried (scales : List Int) : Prop :=
  ∀ dim ∈ config.candidateDims, scales.getD dim 1 ∈ request.legalScales config.shapeClass dim

/-- A passing choice with a divisor that is not tried is no better than some passing choice without. -/
def TriedSuffice : Prop :=
  ∀ choice score, request.Choice config choice →
    request.evaluateCandidate config.candidateDims choice false = some score → ¬request.Tried config choice →
    ∃ tried triedScore, request.Choice config tried ∧ request.Tried config tried ∧
      request.evaluateCandidate config.candidateDims tried false = some triedScore ∧
      isBetterCandidate config.shapeClass score triedScore = false

variable {request config} {scales : List Int} {score : CandidateScore}

theorem candidateDims_of_classify (accepted : request.classifyAutoSearch = some config) :
    config.candidateDims.Nodup ∧ ∀ dim ∈ config.candidateDims, dim < request.shardFactors.length := by
  have filtered : ∀ (keep : Nat → Bool), ((List.range request.shardFactors.length).filter keep).Nodup ∧
      ∀ dim ∈ (List.range request.shardFactors.length).filter keep, dim < request.shardFactors.length := fun keep =>
    ⟨List.nodup_range.filter _, fun dim member => List.mem_range.mp (List.mem_of_mem_filter member)⟩
  have parallel : request.getAllParallelCandidateDims.Nodup ∧
      ∀ dim ∈ request.getAllParallelCandidateDims, dim < request.shardFactors.length := filtered _
  have single : request.getSingleReductionCandidateDims.Nodup ∧
      ∀ dim ∈ request.getSingleReductionCandidateDims, dim < request.shardFactors.length := by
    rw [getSingleReductionCandidateDims]
    split
    · rw [reductionDims, request.iteratorRank]
      exact filtered _
    · exact filtered _
  rw [classifyAutoSearch] at accepted
  split at accepted
  · cases accepted
  · simp only at accepted
    split at accepted
    · split_ifs at accepted <;> cases accepted <;> exact parallel
    · split_ifs at accepted
      cases accepted
      exact single
    · cases accepted

theorem shardFactor_pos {dim : Nat} (inside : dim < request.shardFactors.length) :
    0 < request.shardFactors.getD dim 0 := by
  rw [List.getD_eq_getElem _ _ inside]
  exact request.shardFactorsPositive _ (List.getElem_mem inside)

theorem legalScales_divide {dim : Nat} {shapeClass : AutoShapeClass} {scale : Int}
    (inside : dim < request.shardFactors.length) (member : scale ∈ request.legalScales shapeClass dim) :
    0 < scale ∧ scale ∣ request.shardFactors.getD dim 0 := by
  rw [legalScales] at member
  split at member
  · exact mem_buildEltwiseScaleSearchOrder (shardFactor_pos inside) member
  · exact (Layout.mem_getFactors _ (shardFactor_pos inside) scale).mp member

theorem tried_of_singleReduction (accepted : request.classifyAutoSearch = some config)
    (single : config.shapeClass = .singleReduction) (choice : request.Choice config scales) :
    request.Tried config scales := by
  intro dim member
  have inside := (candidateDims_of_classify accepted).2 dim member
  rw [legalScales, single]
  exact (Layout.mem_getFactors _ (shardFactor_pos inside) _).mpr (choice.divisors dim member)

theorem unscaled_getD (dim : Nat) : request.unscaled.getD dim 1 = 1 := by
  rw [unscaled, List.getD_eq_getElem?_getD, List.getElem?_replicate]
  split <;> rfl

theorem choice_unscaled : request.Choice config request.unscaled where
  rank := List.length_replicate
  divisors dim _ := by
    rw [unscaled_getD]
    exact ⟨Int.one_pos, one_dvd _⟩
  others dim _ := unscaled_getD dim

theorem candidateBlockFactors_injective {other : List Int} (rank : scales.length = request.shardFactors.length)
    (otherRank : other.length = request.shardFactors.length)
    (same : request.candidateBlockFactors scales = request.candidateBlockFactors other) : scales = other := by
  refine List.ext_getElem (rank.trans otherRank.symm) fun dim inScales inOther => ?_
  have inBlocks : dim < request.generic.blockFactors.length := by
    rw [request.blockRank, ← rank]
    exact inScales
  have entry := congrArg (·[dim]?) same
  simp only [candidateBlockFactors, List.getElem?_zipWith, List.getElem?_eq_getElem inBlocks,
    List.getElem?_eq_getElem inScales, List.getElem?_eq_getElem inOther, Option.some.injEq] at entry
  exact Int.eq_of_mul_eq_mul_left (request.blockFactorsPositive _ (List.getElem_mem inBlocks)).ne' entry

theorem candidateBlockFactors_unscaled : request.candidateBlockFactors request.unscaled = request.generic.blockFactors := by
  rw [candidateBlockFactors, unscaled, ← request.blockRank]
  refine List.ext_getElem (by simp) fun dim _ _ => ?_
  simp

theorem evaluateCandidate_unscaled (candidateDims : List Nat) :
    request.evaluateCandidate candidateDims request.unscaled false = none := by
  have trivial : (request.unscaled.any fun scale => decide (scale > 1)) = false := by
    simp [unscaled]
  rw [evaluateCandidate, trivial]
  rfl

theorem evaluateOperand_legal {scaledDims : List Bool} {operands : List (Operand × Nat)} {start tally : Tally}
    (run : operands.foldlM (request.evaluateOperand scales scaledDims) start = some tally) :
    ∀ operand ∈ operands, isIndexingMapBlocked (request.generic.indexingMap operand.2) scaledDims = true →
      canReblockOperandToGrid operand.1 (request.getOperandGridAndShardExtents operand.2
        (request.candidateGridExtents scales) (request.candidateShardExtents scales)).1 = true ∧
      4 ≤ volume (request.getOperandGridAndShardExtents operand.2
        (request.candidateGridExtents scales) (request.candidateShardExtents scales)).2 := by
  induction operands generalizing start with
  | nil => exact fun _ member => absurd member List.not_mem_nil
  | cons first rest ih =>
      rw [List.foldlM_cons] at run
      obtain ⟨next, step, run⟩ := Option.bind_eq_some_iff.mp run
      refine List.forall_mem_cons.mpr ⟨fun blocked => ?_, ih run⟩
      rw [evaluateOperand, blocked] at step
      simp only [Bool.not_true, Bool.false_eq_true, if_false, Bool.not_eq_true'] at step
      split_ifs at step with unfit small foreign
      exact ⟨by simpa using unfit, by omega⟩

theorem evaluateCandidate_some {candidateDims : List Nat} {allow : Bool}
    (passes : request.evaluateCandidate candidateDims scales allow = some score) :
    score.dimScales = scales ∧ score.blockFactors = request.candidateBlockFactors scales ∧
      ((scales.any fun scale => decide (scale > 1)) = true → request.Legal scales) := by
  rw [evaluateCandidate] at passes
  simp only at passes
  split at passes
  · cases passes
  · obtain ⟨operands, first, passes⟩ := Option.bind_eq_some_iff.mp passes
    obtain ⟨tally, -, passes⟩ := Option.bind_eq_some_iff.mp passes
    split at passes
    · cases passes
    · cases passes
      refine ⟨rfl, rfl, fun scaled => ?_⟩
      rw [scaled, if_pos rfl] at first
      exact evaluateOperand_legal first

theorem Choice.scaled (choice : request.Choice config scales) (other : scales ≠ request.unscaled) :
    (scales.any fun scale => decide (scale > 1)) = true := by
  by_contra trivial
  refine other (List.ext_getElem (by rw [choice.rank, unscaled, List.length_replicate]) fun dim inside _ => ?_)
  have small := List.any_eq_false.mp (Bool.not_eq_true _ ▸ trivial) _ (List.getElem_mem inside)
  have value : scales.getD dim 1 = scales[dim] := List.getD_eq_getElem _ _ inside
  have positive : 0 < scales[dim] := by
    by_cases candidate : dim ∈ config.candidateDims
    · exact value ▸ (choice.divisors dim candidate).1
    · rw [← value, choice.others dim candidate]
      exact Int.one_pos
  rw [decide_eq_true_iff] at small
  simp only [unscaled, List.getElem_replicate]
  omega

theorem Choice.legal (choice : request.Choice config scales) {candidateDims : List Nat} {allow : Bool}
    (passes : request.evaluateCandidate candidateDims scales allow = some score)
    (other : scales ≠ request.unscaled) : request.Legal scales :=
  (evaluateCandidate_some passes).2.2 (choice.scaled other)

def slots (request : Request) (config : AutoSearchConfig) : List (Nat × List Int) :=
  config.candidateDims.map fun dim => (dim, request.legalScales config.shapeClass dim)

theorem slots_dims : (request.slots config).map Prod.fst = config.candidateDims := by
  rw [slots, List.map_map]
  exact List.map_id _

theorem mem_choicesOf_slots (accepted : request.classifyAutoSearch = some config) :
    scales ∈ choicesOf (request.slots config) request.unscaled ↔
      request.Choice config scales ∧ request.Tried config scales := by
  obtain ⟨distinct, inside⟩ := candidateDims_of_classify accepted
  have unscaledRank : request.unscaled.length = request.shardFactors.length := List.length_replicate
  rw [mem_choicesOf _ _ _ (slots_dims.symm ▸ distinct) (by
    intro slot member
    obtain ⟨dim, candidate, rfl⟩ := List.mem_map.mp member
    exact unscaledRank.symm ▸ inside dim candidate), slots_dims, unscaledRank]
  constructor
  · rintro ⟨rank, values, same⟩
    have tried : request.Tried config scales := fun dim candidate => by
      obtain ⟨scale, listed, here⟩ := values _ (List.mem_map_of_mem candidate)
      rw [List.getD_eq_getElem?_getD, here]
      exact listed
    refine ⟨⟨rank, fun dim candidate => legalScales_divide (inside dim candidate) (tried dim candidate), ?_⟩, tried⟩
    intro dim other
    rw [List.getD_eq_getElem?_getD, same dim other, ← List.getD_eq_getElem?_getD, unscaled_getD]
  · rintro ⟨choice, tried⟩
    refine ⟨choice.rank, fun slot member => ?_, fun dim other => ?_⟩
    · obtain ⟨dim, candidate, rfl⟩ := List.mem_map.mp member
      refine ⟨scales.getD dim 1, tried dim candidate, ?_⟩
      have known : dim < scales.length := choice.rank ▸ inside dim candidate
      rw [List.getD_eq_getElem _ _ known, List.getElem?_eq_getElem known]
    · have value := choice.others dim other
      by_cases known : dim < request.shardFactors.length
      · rw [List.getD_eq_getElem _ _ (choice.rank.symm ▸ known)] at value
        rw [List.getElem?_eq_getElem (choice.rank.symm ▸ known), value, unscaled, List.getElem?_replicate, if_pos known]
      · rw [List.getElem?_eq_none (by rw [choice.rank]; omega), List.getElem?_eq_none (by rw [unscaledRank]; omega)]

def scores (request : Request) (config : AutoSearchConfig) (choices : List (List Int)) : List (Option CandidateScore) :=
  choices.map fun choice => request.evaluateCandidate config.candidateDims choice false

theorem scores_append (front back : List (List Int)) :
    request.scores config (front ++ back) = request.scores config front ++ request.scores config back :=
  List.map_append

theorem enumerateCandidates_eq (dims : List (Nat × List Int)) (current : List Int) (best : Option CandidateScore) :
    request.enumerateCandidates config dims current best =
      (request.scores config (choicesOf dims current)).foldl (keepBetter (isBetterCandidate config.shapeClass)) best := by
  induction dims generalizing current best with
  | nil => rfl
  | cons slot rest ih =>
      rw [enumerateCandidates, choicesOf]
      generalize slot.2 = values
      induction values generalizing best with
      | nil => rfl
      | cons value values inner =>
          rw [List.foldl_cons, ih, inner, List.flatMap_cons, scores_append, List.foldl_append]

theorem Choice.set (choice : request.Choice config scales) {dim : Nat} {scale : Int}
    (candidate : dim ∈ config.candidateDims) (fits : 0 < scale ∧ scale ∣ request.shardFactors.getD dim 0) :
    request.Choice config (scales.set dim scale) := by
  have entry : ∀ other, (scales.set dim scale).getD other 1 = scales.getD other 1 ∨
      other = dim ∧ (scales.set dim scale).getD other 1 = scale := by
    intro other
    simp only [List.getD_eq_getElem?_getD, List.getElem?_set]
    split
    · next same =>
        split
        · exact .inr ⟨same.symm, rfl⟩
        · next outside => exact .inl (by rw [← same, List.getElem?_eq_none (Nat.not_lt.mp outside)])
    · exact .inl rfl
  refine ⟨(List.length_set ..).trans choice.rank, fun other member => ?_, fun other outside => ?_⟩
  · rcases entry other with same | ⟨rfl, here⟩
    · exact same ▸ choice.divisors other member
    · rw [here]
      exact fits
  · rcases entry other with same | ⟨rfl, -⟩
    · exact same ▸ choice.others other outside
    · exact absurd candidate outside

theorem beam_choices (accepted : request.classifyAutoSearch = some config) :
    ∀ candidate ∈ (request.slots config).foldl expandBeam [⟨request.unscaled, 1, 0⟩],
      request.Choice config candidate.dimScales := by
  suffices grows : ∀ (dims : List (Nat × List Int)) (beam : List PartialCandidate),
      (∀ slot ∈ dims, slot ∈ request.slots config) →
      (∀ candidate ∈ beam, request.Choice config candidate.dimScales) →
      ∀ candidate ∈ dims.foldl expandBeam beam, request.Choice config candidate.dimScales by
    refine grows _ _ (fun _ member => member) fun candidate member => ?_
    rw [List.mem_singleton.mp member]
    exact choice_unscaled
  intro dims
  induction dims with
  | nil => exact fun _ _ start => start
  | cons slot rest ih =>
      intro beam listed start
      refine ih _ (fun other member => listed other (List.mem_cons_of_mem _ member)) fun candidate member => ?_
      obtain ⟨dim, dimIn, rfl⟩ := List.mem_map.mp (listed slot List.mem_cons_self)
      have expanded := (List.perm_insertionSort _ _).mem_iff.mp (List.mem_of_mem_take member)
      obtain ⟨partialChoice, inBeam, made⟩ := List.mem_flatMap.mp expanded
      obtain ⟨scale, scaleIn, rfl⟩ := List.mem_map.mp made
      exact (start partialChoice inBeam).set dimIn (legalScales_divide ((candidateDims_of_classify accepted).2 dim dimIn)
        (List.fst_mem_of_mem_zipIdx scaleIn))

def looked (request : Request) (config : AutoSearchConfig) : List (List Int) :=
  if request.useBoundedEltwiseSearch && usesAllParallelScaleSearch config.shapeClass &&
      decide (kEltwiseBeamWidth < ((request.slots config).map fun slot => slot.2.length).prod) then
    ((request.slots config).foldl expandBeam [⟨request.unscaled, 1, 0⟩]).map PartialCandidate.dimScales
  else choicesOf (request.slots config) request.unscaled

theorem looked_choices (accepted : request.classifyAutoSearch = some config) :
    ∀ choice ∈ request.looked config, request.Choice config choice := by
  intro choice member
  rw [looked] at member
  split at member
  · obtain ⟨candidate, inBeam, rfl⟩ := List.mem_map.mp member
    exact beam_choices accepted candidate inBeam
  · exact ((mem_choicesOf_slots accepted).mp member).1

theorem looked_unbounded (unbounded : request.useBoundedEltwiseSearch = false) :
    request.looked config = choicesOf (request.slots config) request.unscaled := by
  rw [looked, unbounded]
  rfl

theorem findBestCandidate_eq : request.findBestCandidate config =
    (request.scores config (request.looked config)).foldl (keepBetter (isBetterCandidate config.shapeClass))
      (if config.shapeClass = .singleReduction then
        request.evaluateCandidate config.candidateDims request.unscaled true else none) := by
  rw [findBestCandidate, looked, ← slots]
  simp only
  split
  · rw [scores, List.map_map, List.foldl_map]
    rfl
  · exact enumerateCandidates_eq _ _ _

/-- How a search ends: nothing passes, or with a score that no passing choice it looked at exceeds. -/
theorem findBestCandidate_cases (accepted : request.classifyAutoSearch = some config) :
    (request.findBestCandidate config = none ∧ (∀ scales score, ¬(config.shapeClass = .singleReduction ∧
        scales = request.unscaled ∧ request.evaluateCandidate config.candidateDims scales true = some score)) ∧
      ∀ choice ∈ request.looked config, request.evaluateCandidate config.candidateDims choice false = none) ∨
    ∃ winner scales, request.findBestCandidate config = some winner ∧
      (scales ∈ request.looked config ∧ request.evaluateCandidate config.candidateDims scales false = some winner ∨
        config.shapeClass = .singleReduction ∧ scales = request.unscaled ∧
          request.evaluateCandidate config.candidateDims scales true = some winner) ∧
      ∀ choice ∈ request.looked config, ∀ score,
        request.evaluateCandidate config.candidateDims choice false = some score →
        merit config.shapeClass score ≤ merit config.shapeClass winner := by
  have agrees : ∀ a b : CandidateScore, a.dimScales.length = request.shardFactors.length →
      b.dimScales.length = request.shardFactors.length →
      (isBetterCandidate config.shapeClass a b = true ↔ merit config.shapeClass b < merit config.shapeClass a) :=
    fun a b left right => isBetterCandidate_iff left right
  have counting : ∀ score, some score ∈ request.scores config (request.looked config) →
      score.dimScales.length = request.shardFactors.length := by
    intro score member
    obtain ⟨choice, inLooked, passes⟩ := List.mem_map.mp member
    rw [(evaluateCandidate_some passes).1, (looked_choices accepted choice inLooked).rank]
  have among : ∀ choice ∈ request.looked config, ∀ score,
      request.evaluateCandidate config.candidateDims choice false = some score →
      some score ∈ request.scores config (request.looked config) := fun choice member score passes =>
    List.mem_map.mpr ⟨choice, member, passes⟩
  rw [findBestCandidate_eq]
  cases first : if config.shapeClass = .singleReduction then
      request.evaluateCandidate config.candidateDims request.unscaled true else none with
  | none =>
      rcases foldl_keepBetter_none agrees _ counting with ⟨run, nothing⟩ | ⟨winner, run, source, all⟩
      · refine .inl ⟨run, ?_, fun choice member => nothing _ (List.mem_map_of_mem member)⟩
        rintro scales score ⟨single, rfl, passes⟩
        rw [if_pos single, passes] at first
        cases first
      · obtain ⟨scales, member, passes⟩ := List.mem_map.mp source
        exact .inr ⟨winner, scales, run, .inl ⟨member, passes⟩,
          fun choice inLooked score scored => all score (among choice inLooked score scored)⟩
  | some identity =>
      have single : config.shapeClass = .singleReduction := by
        by_contra other
        rw [if_neg other] at first
        cases first
      rw [if_pos single] at first
      have identityCounts : identity.dimScales.length = request.shardFactors.length := by
        rw [(evaluateCandidate_some first).1, unscaled, List.length_replicate]
      obtain ⟨winner, run, source, -, all⟩ := foldl_keepBetter_some agrees _ counting identityCounts
      have above := fun choice inLooked score scored => all score (among choice inLooked score scored)
      rcases source with rfl | member
      · exact .inr ⟨winner, request.unscaled, run, .inr ⟨single, rfl, first⟩, above⟩
      · obtain ⟨scales, inLooked, passes⟩ := List.mem_map.mp member
        exact .inr ⟨winner, scales, run, .inl ⟨inLooked, passes⟩, above⟩

theorem not_better {lhs rhs : CandidateScore} (left : lhs.dimScales.length = request.shardFactors.length)
    (right : rhs.dimScales.length = request.shardFactors.length)
    (below : merit config.shapeClass lhs ≤ merit config.shapeClass rhs) :
    isBetterCandidate config.shapeClass lhs rhs = false :=
  Bool.eq_false_iff.mpr fun better => absurd ((isBetterCandidate_iff left right).mp better) (not_lt.mpr below)

theorem rank_of_passes (choice : request.Choice config scales) {allow : Bool}
    (passes : request.evaluateCandidate config.candidateDims scales allow = some score) :
    score.dimScales.length = request.shardFactors.length := by
  rw [(evaluateCandidate_some passes).1, choice.rank]

theorem meets_of_triedSuffice (accepted : request.classifyAutoSearch = some config)
    (covered : request.useBoundedEltwiseSearch = true ∨ request.TriedSuffice config) :
    request.Meets config request.applyAutoPolicy := by
  have enough : request.useBoundedEltwiseSearch = false → request.TriedSuffice config := fun unbounded =>
    covered.resolve_left (by rw [unbounded]; exact Bool.false_ne_true)
  rw [applyAutoPolicy, accepted]
  rcases findBestCandidate_cases accepted with ⟨found, -, nothing⟩ | ⟨winner, scales, found, source, above⟩
  · -- no choice passes among those tried, so none does
    simp only [found]
    refine ⟨request.unscaled, choice_unscaled, candidateBlockFactors_unscaled.symm, fun other => absurd rfl other, ?_⟩
    intro unbounded
    refine .inr ⟨rfl, fun choice isChoice => ?_⟩
    rw [looked_unbounded unbounded] at nothing
    by_contra passes
    obtain ⟨score, passes⟩ := Option.ne_none_iff_exists'.mp passes
    by_cases tried : request.Tried config choice
    · rw [nothing choice ((mem_choicesOf_slots accepted).mpr ⟨isChoice, tried⟩)] at passes
      cases passes
    · obtain ⟨other, _, otherChoice, otherTried, otherPasses, -⟩ := enough unbounded choice score isChoice passes tried
      rw [nothing other ((mem_choicesOf_slots accepted).mpr ⟨otherChoice, otherTried⟩)] at otherPasses
      cases otherPasses
  · simp only [found]
    have isChoice : request.Choice config scales := by
      rcases source with ⟨member, -⟩ | ⟨-, rfl, -⟩
      · exact looked_choices accepted scales member
      · exact choice_unscaled
    obtain ⟨allow, passes⟩ : ∃ allow, request.evaluateCandidate config.candidateDims scales allow = some winner := by
      rcases source with ⟨-, passes⟩ | ⟨-, -, passes⟩ <;> exact ⟨_, passes⟩
    refine ⟨scales, isChoice, (evaluateCandidate_some passes).2.1, isChoice.legal passes, fun unbounded => ?_⟩
    refine .inl ⟨winner, source.imp_left And.right, fun choice score choiceIs scored => ?_⟩
    have winnerRank := rank_of_passes isChoice passes
    have scoreRank := rank_of_passes choiceIs scored
    rw [looked_unbounded unbounded] at above
    by_cases tried : request.Tried config choice
    · exact not_better scoreRank winnerRank
        (above choice ((mem_choicesOf_slots accepted).mpr ⟨choiceIs, tried⟩) score scored)
    · obtain ⟨other, otherScore, otherChoice, otherTried, otherPasses, noBetter⟩ :=
        enough unbounded choice score choiceIs scored tried
      have otherRank := rank_of_passes otherChoice otherPasses
      have belowOther : merit config.shapeClass score ≤ merit config.shapeClass otherScore :=
        not_lt.mp fun less => Bool.eq_false_iff.mp noBetter ((isBetterCandidate_iff scoreRank otherRank).mpr less)
      exact not_better scoreRank winnerRank (belowOther.trans
        (above other ((mem_choicesOf_slots accepted).mpr ⟨otherChoice, otherTried⟩) otherScore otherPasses))

theorem triedSuffice_of_meets (accepted : request.classifyAutoSearch = some config)
    (unbounded : request.useBoundedEltwiseSearch = false)
    (meets : request.Meets config request.applyAutoPolicy) : request.TriedSuffice config := by
  intro choice score isChoice scored untried
  have parallel : config.shapeClass ≠ .singleReduction := fun single =>
    untried (tried_of_singleReduction accepted single isChoice)
  obtain ⟨scales, scalesChoice, result, -, optimal⟩ := meets
  rcases optimal unbounded with ⟨best, passes, noBetter⟩ | ⟨-, nothing⟩
  · have passes : request.evaluateCandidate config.candidateDims scales false = some best :=
      passes.resolve_right fun identity => parallel identity.1
    rw [applyAutoPolicy, accepted] at result
    rcases findBestCandidate_cases accepted with ⟨found, -, -⟩ | ⟨winner, found, run, source, above⟩
    · -- the originals are the scales of one, which do not pass
      simp only [found] at result
      rw [← candidateBlockFactors_unscaled] at result
      have same : request.unscaled = scales :=
        candidateBlockFactors_injective List.length_replicate scalesChoice.rank result
      rw [← same, evaluateCandidate_unscaled] at passes
      cases passes
    · obtain ⟨member, winnerPasses⟩ := source.resolve_right fun identity => parallel identity.1
      rw [looked_unbounded unbounded] at member
      obtain ⟨foundChoice, foundTried⟩ := (mem_choicesOf_slots accepted).mp member
      simp only [run] at result
      rw [(evaluateCandidate_some winnerPasses).2.1] at result
      have same := candidateBlockFactors_injective foundChoice.rank scalesChoice.rank result
      subst same
      exact ⟨found, best, foundChoice, foundTried, passes, noBetter choice score isChoice scored⟩
  · rw [nothing choice isChoice] at scored
    cases scored

/-- The policy meets its promise just where no choice with an untried divisor is the best. -/
theorem applyAutoPolicy_iff (accepted : request.classifyAutoSearch = some config) :
    request.Meets config request.applyAutoPolicy ↔
      (request.useBoundedEltwiseSearch = true ∨ request.TriedSuffice config) := by
  constructor
  · intro meets
    cases bounded : request.useBoundedEltwiseSearch with
    | true => exact .inl rfl
    | false => exact .inr (triedSuffice_of_meets accepted bounded meets)
  · exact meets_of_triedSuffice accepted

end Request

def tiles : ElementType := ⟨some (32, 32), 2048, 2048⟩

def tileRow : Operand := ⟨tiles, true, true, some ([1, 1], [1, 256])⟩

def longRow : Request where
  generic :=
    { inputs := [tileRow]
      outputs := [tileRow]
      indexingMaps := [AffineMap.identity 2, AffineMap.identity 2]
      iteratorTypes := [.parallel, .parallel]
      blockFactors := [1, 1]
      regions := [true]
      hasTilizeBlock := false
      hasUntilizeBlock := false
      allocs := [] }
  gridExtents := [1, 1]
  shardExtents := [1, 256]
  shardFactors := [1, 256]
  numBuffers := 2
  useBoundedEltwiseSearch := false
  allowMNReblocking := false
  blockRank := rfl
  iteratorRank := rfl
  gridRank := rfl
  shardRank := rfl
  blockFactorsPositive := by decide
  shardFactorsPositive := by decide

def longRowConfig : AutoSearchConfig := ⟨.allParallelEltwise, [1]⟩

theorem longRow_classify : longRow.classifyAutoSearch = some longRowConfig := by decide

/-- The divisors tried are 16, 8, 32 and 1, and the factors become `[1, 32]`; `[1, 64]` passes and
is better. -/
theorem longRow_misses : longRow.classifyAutoSearch = some longRowConfig ∧
    ¬longRow.Meets longRowConfig longRow.applyAutoPolicy := by
  refine ⟨longRow_classify, fun ⟨scales, choice, result, _, optimal⟩ => ?_⟩
  have found : longRow.applyAutoPolicy = longRow.candidateBlockFactors [1, 32] := by with_unfolding_all decide
  have same : [1, 32] = scales :=
    Request.candidateBlockFactors_injective (by decide) choice.rank (found.symm.trans result)
  subst same
  have better : longRow.Choice longRowConfig [1, 64] := by
    refine ⟨rfl, by decide, fun dim outside => ?_⟩
    match dim with
    | 0 => rfl
    | 1 => exact absurd List.mem_cons_self outside
    | _ + 2 => rfl
  have passes : longRow.evaluateCandidate [1] [1, 64] false = some ⟨[1, 64], [1, 64], 64, 32768⟩ := by decide
  have kept : longRow.evaluateCandidate [1] [1, 32] false = some ⟨[1, 32], [1, 32], 32, 65536⟩ := by decide
  rcases optimal rfl with ⟨winner, won, noBetter⟩ | ⟨trivial, -⟩
  · rcases won with won | ⟨single, -⟩
    · rw [longRowConfig, kept] at won
      cases won
      exact absurd (noBetter _ _ better passes) (by decide)
    · cases single
  · exact absurd trivial (by decide)

theorem longRow_iff : longRow.classifyAutoSearch = some longRowConfig ∧
    (longRow.Meets longRowConfig longRow.applyAutoPolicy ↔
      (longRow.useBoundedEltwiseSearch = true ∨ longRow.TriedSuffice longRowConfig)) :=
  ⟨longRow_classify, Request.applyAutoPolicy_iff longRow_classify⟩

end TtMlir.D2m.BlockFactors
