import TtMlir.Library.MapM
import TtMlir.Planner.SpillSound

/-!
What `spillAllocate` returns. The ranking only has to list the free variables
once each; the order it puts them in never matters for soundness.
-/

namespace TtMlir.Planner

open Problem

/-- Placed requests share no memory while live together, and end at `highest`. -/
structure Plan (problem : Problem) (highest : Int) : Prop where
  nonneg : ∀ reqIndex ∈ problem.enabled, 0 ≤ (problem.request reqIndex).offset
  apart : ∀ left ∈ problem.enabled, ∀ right ∈ problem.enabled, left ≠ right →
    LiveTogether (problem.request left).toRequest (problem.request right).toRequest →
    Disjoint (problem.request left).addresses (problem.request right).addresses
  highest : Peak (problem.enabled.map fun reqIndex => (problem.request reqIndex).stop) highest

theorem plan_of_memoryPlan (before after : Problem) (stats : AllocateStats)
    (plan : MemoryPlan before after stats) : Plan after stats.memUsage := by
  have enabled : after.enabled = before.enabled := by simp only [Problem.enabled, plan.vars]
  rw [MemoryPlan, ← enabled] at plan
  exact ⟨plan.nonneg, plan.apart, plan.memUsage⟩

def Problem.spilled (problem : Problem) : List Nat :=
  problem.free.filter fun varIndex => (problem.var varIndex).placement = .spill

def FitsIn (ties : TieBreak Nat) (algorithm : Algorithm) (memUsageLimit : Int) (problem : Problem) :
    Prop :=
  ∃ after stats, allocate ties algorithm problem = some (after, stats) ∧
    stats.memUsage ≤ memUsageLimit

theorem weigh_varIndex (work : Problem) (metrics : List RequestMetrics) (indices : List Nat)
    (priority : SpillPriority) :
    (indices.foldl (weighRequest work metrics) priority).varIndex = priority.varIndex := by
  induction indices generalizing priority with
  | nil => rfl
  | cons reqIndex rest ih => exact ih (weighRequest work metrics priority reqIndex)

theorem varPriority_varIndex (work : Problem) (metrics : List RequestMetrics) (varIndex : Nat)
    (priority : SpillPriority) (ranked : varPriority work metrics varIndex = some priority) :
    priority.varIndex = varIndex := by
  simp only [varPriority] at ranked
  by_cases off : (work.var varIndex).placement = .na
  · simp [off] at ranked
  · simp only [off, ↓reduceIte, Option.some.injEq] at ranked
    rw [← ranked, weigh_varIndex]

theorem ranked_variables (work : Problem) (metrics : List RequestMetrics) (indices : List Nat)
    (priorities : List SpillPriority)
    (ranked : indices.mapM (varPriority work metrics) = some priorities) :
    priorities.map SpillPriority.varIndex = indices := by
  induction indices generalizing priorities with
  | nil =>
      cases ranked
      rfl
  | cons varIndex rest ih =>
      simp only [List.mapM_cons, Option.bind_eq_bind, Option.bind_eq_some_iff, Option.pure_def,
        Option.some.injEq] at ranked
      obtain ⟨priority, here, others, there, rfl⟩ := ranked
      rw [List.map_cons, varPriority_varIndex work metrics varIndex priority here, ih others there]

theorem analyze_total (solution : Problem) (watermark highest : Int) (valid : solution.valid = true)
    (plan : Plan solution highest) : ∃ metrics, analyze solution watermark = some metrics := by
  have run (indices : List Nat) (start : List RequestMetrics)
      (placed : ∀ reqIndex ∈ indices, 0 ≤ (solution.request reqIndex).offset) :
      ∃ metrics, indices.foldlM (analyzeStep solution watermark) start = some metrics := by
    induction indices generalizing start with
    | nil => exact ⟨start, rfl⟩
    | cons reqIndex rest ih =>
        have here := placed reqIndex List.mem_cons_self
        simp only [List.foldlM_cons, analyzeStep, ge_iff_le, here, ↓reduceIte, Option.bind_eq_bind,
          Option.bind_some]
        exact ih _ fun other member => placed other (List.mem_cons_of_mem _ member)
  simpa [analyze, valid] using run solution.enabled _ plan.nonneg

instance : IsStrictWeakOrder SpillPriority byPriority where
  irrefl _ := by simp [byPriority]
  trans a b c := by
    simp only [byPriority]
    cases a.inContentionGroup <;> cases b.inContentionGroup <;> cases c.inContentionGroup <;>
      simp <;> omega
  incomp_trans a b c := by
    simp only [byPriority]
    cases a.inContentionGroup <;> cases b.inContentionGroup <;> cases c.inContentionGroup <;>
      simp <;> omega

/-! The free variables, and what spilling a prefix of their ranking places. -/

theorem mem_free (problem : Problem) (varIndex : Nat) :
    varIndex ∈ problem.free ↔ varIndex < problem.vars.length ∧ varIndex ∉ problem.bound := by
  simp [Problem.free]

theorem free_nodup (problem : Problem) : problem.free.Nodup := List.nodup_range.filter _

theorem free_length (problem : Problem)
    (bound : ∀ varIndex ∈ problem.bound, varIndex < problem.vars.length) :
    (problem.free.length : Int) = problem.vars.length - problem.bound.card := by
  have within : problem.bound ⊆ Finset.range problem.vars.length := fun varIndex member =>
    Finset.mem_range.mpr (bound varIndex member)
  have asSet : problem.free.toFinset = Finset.range problem.vars.length \ problem.bound := by
    ext varIndex
    simp [mem_free]
  have counted := Finset.card_sdiff_add_card_eq_card within
  rw [← asSet, List.toFinset_card_of_nodup (free_nodup problem), Finset.card_range] at counted
  omega

theorem free_congr (left right : Problem) (vars : left.vars.length = right.vars.length)
    (bound : left.bound = right.bound) : left.free = right.free := by
  simp only [Problem.free, vars, bound]

section Ranked
variable (problem : Problem) (priorities : List SpillPriority)

theorem spillFirst_placement (count varIndex : Nat) (listed : varIndex ∈ problem.free) :
    ((spillFirst (problem.reset .scratch) priorities count).var varIndex).placement =
      if varIndex ∈ (priorities.take count).map SpillPriority.varIndex then .spill else .scratch := by
  obtain ⟨inside, unbound⟩ := (mem_free problem varIndex).mp listed
  simp only [Problem.var, List.getD_eq_getElem?_getD, spillFirst_vars, reset_vars,
    List.getElem?_eq_getElem inside, Option.map_some, unbound, ↓reduceIte, Option.getD_some]
  split <;> rfl

theorem spillFirst_free (count : Nat) :
    (spillFirst (problem.reset .scratch) priorities count).free = problem.free := by
  apply free_congr
  · rw [← reset_var_length problem .scratch]
    exact length_of_getElem? _ _ Variable.slots (spillFirst_var_slots _ priorities count)
  · rw [spillFirst_bound, reset_bound]

variable (ranked : (priorities.map SpillPriority.varIndex).Perm problem.free)
include ranked

theorem ranked_free : ∀ priority ∈ priorities, priority.varIndex ∉ problem.bound := by
  intro priority member
  have listed := ranked.mem_iff.mp (List.mem_map.mpr ⟨priority, member, rfl⟩)
  exact ((mem_free problem _).mp listed).2

theorem ranked_length : priorities.length = problem.free.length := by
  simpa using ranked.length_eq

theorem spillFirst_all :
    spillFirst (problem.reset .scratch) priorities priorities.length = problem.reset .spill := by
  apply eq_of_getElem?
  · rw [spillFirst_bound, reset_bound, reset_bound]
  · intro index
    rw [spillFirst_vars, List.take_length, reset_vars, reset_vars, Option.map_map]
    cases found : problem.vars[index]? with
    | none => rfl
    | some var =>
        have inside : index < problem.vars.length := (List.getElem?_eq_some_iff.mp found).1
        by_cases pinned : index ∈ problem.bound
        · simp [ranked.mem_iff, mem_free, pinned]
        · simp [ranked.mem_iff, mem_free, pinned, inside, Variable.place]
  · intro index
    rw [spillFirst_requests, reset_requests, reset_requests]

theorem spillFirst_spilled (count : Nat) (within : count ≤ priorities.length) :
    (spillFirst (problem.reset .scratch) priorities count).spilled.length = count := by
  have nodup : ((priorities.take count).map SpillPriority.varIndex).Nodup :=
    ((List.take_sublist count priorities).map _).nodup (ranked.nodup_iff.mpr (free_nodup problem))
  have same : (spillFirst (problem.reset .scratch) priorities count).spilled.Perm
      ((priorities.take count).map SpillPriority.varIndex) := by
    refine (List.perm_ext_iff_of_nodup ((free_nodup _).filter _) nodup).mpr fun varIndex => ?_
    simp only [spillFirst_free problem priorities, List.mem_filter, decide_eq_true_eq]
    constructor
    · rintro ⟨listed, placed⟩
      rw [spillFirst_placement problem priorities count varIndex listed] at placed
      by_contra absent
      rw [if_neg absent] at placed
      cases placed
    · intro taken
      have listed : varIndex ∈ problem.free :=
        ranked.subset (((List.take_sublist count priorities).map _).subset taken)
      refine ⟨listed, ?_⟩
      simp only [spillFirst_placement problem priorities count varIndex listed, taken, ↓reduceIte]
  rw [same.length_eq, List.length_map, List.length_take, min_eq_left within]

end Ranked

/-- Placements of free variables and offsets are all that `after` may change (`sameCase`). -/
structure SpillOutcome (ties : TieBreak Nat) (algorithm : Algorithm) (memUsageLimit : Int)
    (problem after : Problem) (stats : SpillStats) : Prop where
  sameCase : SameCase after problem
  pinned : ∀ varIndex ∈ problem.bound,
    (after.var varIndex).placement = (problem.var varIndex).placement
  feasible : stats.memUsage ≤ memUsageLimit ↔ ∃ highest, Plan after highest ∧ highest ≤ memUsageLimit
  plan : stats.memUsage ≤ memUsageLimit →
    Plan after stats.memUsage ∧ (after.spilled.length : Int) = stats.spillCount ∧
      ∀ varIndex ∈ after.free, (after.var varIndex).placement = .spill ∨
        (after.var varIndex).placement = .scratch
  complete : FitsIn ties algorithm memUsageLimit (problem.reset .scratch) ∨
      FitsIn ties algorithm memUsageLimit (problem.reset .spill) →
    stats.memUsage ≤ memUsageLimit

section Outcome
variable (ties : TieBreak Nat) (algorithm : Algorithm) (memUsageLimit : Int) (problem : Problem)
  (priorities : List SpillPriority) (valid : problem.valid = true)
  (ranked : (priorities.map SpillPriority.varIndex).Perm problem.free)
include valid ranked

theorem outcome_of_fit (count : Nat) (within : count ≤ priorities.length) (after : Problem)
    (found : AllocateStats) (stats : SpillStats)
    (allocated : allocate ties algorithm (spillFirst (problem.reset .scratch) priorities count) =
      some (after, found))
    (fits : found.memUsage ≤ memUsageLimit) (memUsage : stats.memUsage = found.memUsage)
    (spillCount : stats.spillCount = count) :
    SpillOutcome ties algorithm memUsageLimit problem after stats := by
  have free := ranked_free problem priorities ranked
  have memoryPlan := probe_plan ties algorithm problem priorities count free valid after found allocated
  have same := probe_after ties algorithm problem priorities count free valid after found allocated
  have plan := plan_of_memoryPlan _ _ _ memoryPlan
  have var (varIndex : Nat) : after.var varIndex =
      (spillFirst (problem.reset .scratch) priorities count).var varIndex := by
    simp only [Problem.var, memoryPlan.vars]
  have sameFree : after.free = (spillFirst (problem.reset .scratch) priorities count).free :=
    free_congr _ _ (by rw [memoryPlan.vars]) memoryPlan.bound
  have sameSpilled : after.spilled = (spillFirst (problem.reset .scratch) priorities count).spilled := by
    simp only [Problem.spilled, sameFree, var]
  refine ⟨same, sameCase_placement after problem same, ?_, ?_, ?_⟩
  · rw [memUsage]
    exact ⟨fun _ => ⟨found.memUsage, plan, fits⟩, fun _ => fits⟩
  · intro _
    rw [memUsage, spillCount, sameSpilled]
    refine ⟨plan, ?_, fun varIndex listed => ?_⟩
    · rw [spillFirst_spilled problem priorities ranked count within]
    · rw [sameFree, spillFirst_free] at listed
      rw [var, spillFirst_placement problem priorities count varIndex listed]
      by_cases taken : varIndex ∈ (priorities.take count).map SpillPriority.varIndex
      · exact Or.inl (if_pos taken)
      · exact Or.inr (if_neg taken)
  · intro _
    rw [memUsage]
    exact fits

omit valid ranked in
theorem not_fits (target after : Problem) (found : AllocateStats)
    (allocated : allocate ties algorithm target = some (after, found))
    (tooLarge : memUsageLimit < found.memUsage) : ¬ FitsIn ties algorithm memUsageLimit target := by
  rintro ⟨other, stats, again, fits⟩
  cases allocated.symm.trans again
  omega

theorem outcome_of_miss (after : Problem) (found : AllocateStats) (stats : SpillStats)
    (allocated : allocate ties algorithm (problem.reset .scratch) = some (after, found))
    (tooLarge : memUsageLimit < found.memUsage) (reported : memUsageLimit < stats.memUsage)
    (spillAll : ¬ FitsIn ties algorithm memUsageLimit (problem.reset .spill)) :
    SpillOutcome ties algorithm memUsageLimit problem after stats := by
  have free := ranked_free problem priorities ranked
  have probed : allocate ties algorithm (spillFirst (problem.reset .scratch) priorities 0) =
      some (after, found) := allocated
  have plan := plan_of_memoryPlan _ _ _
    (probe_plan ties algorithm problem priorities 0 free valid after found probed)
  have same := probe_after ties algorithm problem priorities 0 free valid after found probed
  refine ⟨same, sameCase_placement after problem same, ?_, ?_, ?_⟩
  · refine ⟨fun fits => absurd fits (not_le.mpr reported), ?_⟩
    rintro ⟨highest, other, fits⟩
    have := peak_unique _ _ _ plan.highest other.highest
    omega
  · exact fun fits => absurd fits (not_le.mpr reported)
  · rintro (noSpill | allSpill)
    · exact absurd noSpill (not_fits ties algorithm memUsageLimit _ _ _ allocated tooLarge)
    · exact absurd allSpill spillAll

theorem searching_start (after : Problem) (found : AllocateStats)
    (allocated : allocate ties algorithm (problem.reset .scratch) = some (after, found))
    (tooLarge : memUsageLimit < found.memUsage) :
    Searching ties algorithm memUsageLimit problem priorities
      { work := after, problem := after, stats := found, bestMemUsage := found.memUsage,
        hi := priorities.length - 1 } := by
  have free := ranked_free problem priorities ranked
  refine ⟨?_, le_rfl, by simp, by simp, Or.inl ⟨rfl, rfl, tooLarge, tooLarge⟩, allocated, ?_⟩
  · exact probe_after ties algorithm problem priorities 0 free valid after found allocated
  · intro moved
    exact absurd moved (lt_irrefl _)

theorem outcome_of_search (some_free : 0 < priorities.length) (last : Bisection)
    (searching : Searching ties algorithm memUsageLimit problem priorities last)
    (finished : last.hi < last.lo) :
    SpillOutcome ties algorithm memUsageLimit problem (settle last).1 (settle last).2 := by
  obtain ⟨_, lo, hi, ordered, answer, left, missed⟩ := searching
  rcases answer with ⟨failed, top, above, bestAbove⟩ | ⟨positive, within, fits⟩
  · have settled : settle last = (last.problem, { last.stats with
        memUsage := last.bestMemUsage, stepsTaken := last.stepCount, spillCount := -1 }) := by
      simp [settle, failed]
    have all : last.lo.toNat = priorities.length := by omega
    obtain ⟨work, stats, probed, tooLarge⟩ := missed (by omega)
    rw [all, spillFirst_all problem priorities ranked] at probed
    rw [failed] at left
    rw [settled]
    exact outcome_of_miss ties algorithm memUsageLimit problem priorities valid ranked _ _ _ left above
      bestAbove (not_fits ties algorithm memUsageLimit _ _ _ probed tooLarge)
  · have settled : settle last = (last.problem, { last.stats with
        stepsTaken := last.stepCount, spillCount := last.spilledCount }) := by
      simp [settle, not_lt.mpr positive.le]
    rw [settled]
    exact outcome_of_fit ties algorithm memUsageLimit problem priorities valid ranked
      last.spilledCount.toNat (by omega) _ _ _ left fits rfl (by simp [positive.le])

end Outcome

section Returned
variable (ties : TieBreak Nat) (algorithm : Algorithm) (memUsageLimit : Int)
  (order : TieBreak SpillPriority) (problem : Problem)

theorem rankFree_ranked (work : Problem) (priorities : List SpillPriority)
    (ranking : rankFree memUsageLimit order work = some priorities) :
    (priorities.map SpillPriority.varIndex).Perm work.free := by
  simp only [rankFree, Option.bind_eq_bind, Option.bind_eq_some_iff, Option.some.injEq] at ranking
  obtain ⟨metrics, _, unsorted, ranked, rfl⟩ := ranking
  have listed := ranked_variables work metrics work.free unsorted ranked
  exact ((order.sort_perm byPriority unsorted).map _).trans (List.Perm.of_eq listed)

theorem rankFree_total (work : Problem) (highest : Int) (valid : work.valid = true)
    (plan : Plan work highest)
    (placed : ∀ varIndex ∈ work.free, (work.var varIndex).placement ≠ .na) :
    ∃ priorities, rankFree memUsageLimit order work = some priorities := by
  obtain ⟨metrics, analyzed⟩ := analyze_total work memUsageLimit highest valid plan
  obtain ⟨unsorted, ranked⟩ := mapM_total (varPriority work metrics) work.free fun varIndex member =>
    ⟨_, by rw [varPriority, if_neg (placed varIndex member)]⟩
  exact ⟨order.sort byPriority unsorted, by simp [rankFree, analyzed, ranked]⟩

theorem unweighed_ranked :
    ((problem.free.map fun varIndex => ({ varIndex := varIndex } : SpillPriority)).map
      SpillPriority.varIndex).Perm problem.free := by
  simp [Function.comp_def]

variable (valid : problem.valid = true)
  (bound : ∀ varIndex ∈ problem.bound, varIndex < problem.vars.length)
include valid bound

theorem spillAllocate_outcome (after : Problem) (stats : SpillStats)
    (returned : spillAllocate ties algorithm memUsageLimit order problem = some (after, stats)) :
    SpillOutcome ties algorithm memUsageLimit problem after stats := by
  simp only [spillAllocate, valid, ↓reduceIte, Option.bind_eq_bind, Option.bind_eq_some_iff] at returned
  obtain ⟨⟨first, found⟩, allocated, rest⟩ := returned
  have anyRanked := unweighed_ranked problem
  have anyFree := ranked_free problem _ anyRanked
  have same := probe_after ties algorithm problem _ 0 anyFree valid first found allocated
  have sameFree : first.free = problem.free := by
    refine free_congr _ _ ?_ (sameCase_bound _ _ same)
    rw [← reset_var_length first .scratch, same, reset_var_length]
  have freeCount : (first.vars.length : Int) - first.bound.card = problem.free.length := by
    rw [free_length problem bound, sameCase_bound _ _ same, ← reset_var_length first .scratch, same,
      reset_var_length]
  dsimp only at rest
  rw [freeCount] at rest
  by_cases fits : found.memUsage ≤ memUsageLimit
  · simp only [fits, ↓reduceIte, Option.some.injEq, Prod.mk.injEq] at rest
    obtain ⟨rfl, rfl⟩ := rest
    exact outcome_of_fit ties algorithm memUsageLimit problem _ valid anyRanked 0 (Nat.zero_le _) _ _ _
      allocated fits rfl rfl
  have tooLarge := not_le.mp fits
  simp only [fits, ↓reduceIte] at rest
  by_cases allBound : (problem.free.length : Int) = 0
  · simp only [allBound, ↓reduceIte, Option.some.injEq, Prod.mk.injEq] at rest
    obtain ⟨rfl, rfl⟩ := rest
    have none : problem.free = [] := List.length_eq_zero_iff.mp (by omega)
    have spillAll := spillFirst_all problem [] (by simp [none])
    refine outcome_of_miss ties algorithm memUsageLimit problem _ valid anyRanked _ _ _ allocated
      tooLarge tooLarge ?_
    rw [← spillAll]
    exact not_fits ties algorithm memUsageLimit _ _ _ allocated tooLarge
  · simp only [allBound, ↓reduceIte, Option.bind_eq_some_iff, Option.some.injEq] at rest
    obtain ⟨priorities, ranking, last, ran, settled⟩ := rest
    have ranked := rankFree_ranked memUsageLimit order first priorities ranking
    rw [sameFree] at ranked
    have someFree : 0 < priorities.length := by
      rw [ranked_length problem priorities ranked]
      omega
    have start := searching_start ties algorithm memUsageLimit problem priorities valid ranked first found
      allocated tooLarge
    obtain ⟨searching, finished⟩ := searching_run ties algorithm memUsageLimit problem priorities valid
      (ranked_free problem priorities ranked) _ last start ran
    have outcome := outcome_of_search ties algorithm memUsageLimit problem priorities valid ranked someFree
      last searching finished
    rw [settled] at outcome
    exact outcome

omit bound in
theorem spillAllocate_total (owned : problem.slots.Nodup) :
    ∃ outcome, spillAllocate ties algorithm memUsageLimit order problem = some outcome := by
  have anyRanked := unweighed_ranked problem
  have anyFree := ranked_free problem _ anyRanked
  obtain ⟨⟨first, found⟩, allocated⟩ := probe_total ties algorithm problem _ 0 anyFree valid owned
  have memoryPlan := probe_plan ties algorithm problem _ 0 anyFree valid first found allocated
  have same := probe_after ties algorithm problem _ 0 anyFree valid first found allocated
  change allocate ties algorithm (problem.reset .scratch) = some (first, found) at allocated
  by_cases fits : found.memUsage ≤ memUsageLimit
  · simp only [spillAllocate, valid, allocated, fits, ↓reduceIte, Option.bind_eq_bind, Option.bind_some]
    exact ⟨_, rfl⟩
  by_cases allBound : (first.vars.length : Int) - first.bound.card = 0
  · simp only [spillAllocate, valid, allocated, fits, allBound, ↓reduceIte, Option.bind_eq_bind,
      Option.bind_some]
    exact ⟨_, rfl⟩
  have sameFree : first.free = problem.free := by
    refine free_congr _ _ ?_ (sameCase_bound _ _ same)
    rw [← reset_var_length first .scratch, same, reset_var_length]
  have placed : ∀ varIndex ∈ first.free, (first.var varIndex).placement ≠ .na := by
    intro varIndex listed
    rw [sameFree] at listed
    have var : first.var varIndex = (spillFirst (problem.reset .scratch)
        (problem.free.map fun varIndex => { varIndex := varIndex }) 0).var varIndex := by
      simp only [Problem.var, memoryPlan.vars]
    rw [var, spillFirst_placement problem _ 0 varIndex listed]
    simp
  obtain ⟨priorities, ranking⟩ := rankFree_total memUsageLimit order first found.memUsage
    (by rw [sameCase_valid first problem same]; exact valid) (plan_of_memoryPlan _ _ _ memoryPlan) placed
  have ranked := rankFree_ranked memUsageLimit order first priorities ranking
  rw [sameFree] at ranked
  have start := searching_start ties algorithm memUsageLimit problem priorities valid ranked first found
    allocated (not_le.mp fits)
  obtain ⟨last, ran⟩ := searching_total ties algorithm memUsageLimit problem priorities valid
    (ranked_free problem priorities ranked) owned _ start
  exact ⟨settle last, by simp only [spillAllocate, valid, allocated, fits, allBound, ranking, ran,
    ↓reduceIte, Option.bind_eq_bind, Option.bind_some]⟩

end Returned

end TtMlir.Planner
