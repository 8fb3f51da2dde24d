import TtMlir.Planner.Sound

/-!
`Planner::spillAllocate`: rank the free variables once, then bisect on how many
of them to spill. `problem` and `stats` are only copied back at feasible
midpoints; `work` is the scratch copy every midpoint is built in.
-/

namespace TtMlir.Planner

structure SpillStats extends AllocateStats where
  stepsTaken : Int
  spillCount : Int
  deriving DecidableEq, Repr

structure RequestMetrics where
  maxConflictSize : Int := 0
  inContentionGroup : Bool := false
  deriving DecidableEq, Repr

def containing (solution : Problem) (position : Int) : List Nat :=
  solution.enabled.filter fun reqIndex =>
    decide ((solution.request reqIndex).first ≤ position) &&
      decide (position ≤ (solution.request reqIndex).last)

def analyzeStep (solution : Problem) (watermark : Int) (metrics : List RequestMetrics) (reqIndex : Nat) :
    Option (List RequestMetrics) :=
  let req := solution.request reqIndex
  if req.offset ≥ 0 then
    let conflicts := containing solution req.first
    let usage := conflicts.foldl (fun usage index => max usage (solution.request index).stop) 0
    some (metrics.modify reqIndex fun old =>
      { inContentionGroup := old.inContentionGroup || decide (usage > watermark)
        maxConflictSize := max old.maxConflictSize conflicts.length })
  else none

def analyze (solution : Problem) (watermark : Int) : Option (List RequestMetrics) :=
  if solution.valid then
    solution.enabled.foldlM (analyzeStep solution watermark)
      (List.replicate solution.requests.length {})
  else none

structure SpillPriority where
  worstSize : Int := 0
  worstMaxConflictSize : Int := 0
  inContentionGroup : Bool := false
  varIndex : Nat
  deriving DecidableEq, Repr

/-- Lexicographic `std::greater` over contention, size and conflict count. -/
def byPriority (lhs rhs : SpillPriority) : Prop :=
  rhs.inContentionGroup < lhs.inContentionGroup ∨
    lhs.inContentionGroup = rhs.inContentionGroup ∧
      (lhs.worstSize > rhs.worstSize ∨
        lhs.worstSize = rhs.worstSize ∧ lhs.worstMaxConflictSize > rhs.worstMaxConflictSize)

instance : DecidableRel byPriority := fun _ _ => inferInstanceAs (Decidable (_ ∨ _))

def weighRequest (work : Problem) (metrics : List RequestMetrics) (priority : SpillPriority)
    (reqIndex : Nat) : SpillPriority :=
  let reqMetrics := metrics.getD reqIndex {}
  { priority with
    worstSize := max priority.worstSize (work.request reqIndex).size
    worstMaxConflictSize := max priority.worstMaxConflictSize reqMetrics.maxConflictSize
    inContentionGroup := priority.inContentionGroup || reqMetrics.inContentionGroup }

def varPriority (work : Problem) (metrics : List RequestMetrics) (varIndex : Nat) :
    Option SpillPriority :=
  let var := work.var varIndex
  if var.placement = .na then none
  else some ((var.domain var.placement).foldl (weighRequest work metrics) { varIndex := varIndex })

def Problem.free (problem : Problem) : List Nat :=
  (List.range problem.vars.length).filter fun varIndex => varIndex ∉ problem.bound

def spillFirst (work : Problem) (priorities : List SpillPriority) (count : Nat) : Problem :=
  (priorities.take count).foldl
    (fun current priority => current.setPlacement priority.varIndex .spill) work

structure Bisection where
  work : Problem
  problem : Problem
  stats : AllocateStats
  bestMemUsage : Int
  spilledCount : Int := -1
  stepCount : Int := 1
  lo : Int := 0
  hi : Int

def Bisection.mid (state : Bisection) : Int := state.lo + (state.hi - state.lo) / 2

section Search
variable (ties : TieBreak Nat) (algorithm : Algorithm) (memUsageLimit : Int)

def bisectStep (priorities : List SpillPriority) (state : Bisection) : Option Bisection := do
  let chosen := spillFirst (state.work.reset .scratch) priorities (state.mid + 1).toNat
  let (work, midStats) ← allocate ties algorithm chosen
  let bestMemUsage := min state.bestMemUsage midStats.memUsage
  let stepCount := state.stepCount + 1
  if midStats.memUsage ≤ memUsageLimit then
    some { state with
      work, bestMemUsage, stepCount
      hi := state.mid - 1
      problem := work
      stats := midStats
      spilledCount := state.mid + 1 }
  else
    some { state with work, bestMemUsage, stepCount, lo := state.mid + 1 }

theorem bisectStep_cases (priorities : List SpillPriority) (state next : Bisection)
    (stepped : bisectStep ties algorithm memUsageLimit priorities state = some next) :
    ∃ midStats : AllocateStats,
      allocate ties algorithm
          (spillFirst (state.work.reset .scratch) priorities (state.mid + 1).toNat) =
        some (next.work, midStats) ∧
      next.bestMemUsage = min state.bestMemUsage midStats.memUsage ∧
      next.stepCount = state.stepCount + 1 ∧
      (midStats.memUsage ≤ memUsageLimit ∧ next.lo = state.lo ∧ next.hi = state.mid - 1 ∧
          next.problem = next.work ∧ next.stats = midStats ∧ next.spilledCount = state.mid + 1 ∨
        memUsageLimit < midStats.memUsage ∧ next.lo = state.mid + 1 ∧ next.hi = state.hi ∧
          next.problem = state.problem ∧ next.stats = state.stats ∧
          next.spilledCount = state.spilledCount) := by
  simp only [bisectStep, Option.bind_eq_bind, Option.bind_eq_some_iff] at stepped
  obtain ⟨⟨work, midStats⟩, allocated, rest⟩ := stepped
  by_cases fits : midStats.memUsage ≤ memUsageLimit
  · simp only [fits, ↓reduceIte, Option.some.injEq] at rest
    subst rest
    exact ⟨midStats, allocated, rfl, rfl, Or.inl ⟨fits, rfl, rfl, rfl, rfl, rfl⟩⟩
  · simp only [fits, ↓reduceIte, Option.some.injEq] at rest
    subst rest
    exact ⟨midStats, allocated, rfl, rfl, Or.inr ⟨not_le.mp fits, rfl, rfl, rfl, rfl, rfl⟩⟩

theorem bisectStep_shrinks (priorities : List SpillPriority) (state next : Bisection)
    (open_ : state.lo ≤ state.hi)
    (stepped : bisectStep ties algorithm memUsageLimit priorities state = some next) :
    (next.hi + 1 - next.lo).toNat < (state.hi + 1 - state.lo).toNat := by
  obtain ⟨_, _, _, _, ⟨_, lo, hi, _⟩ | ⟨_, lo, hi, _⟩⟩ :=
    bisectStep_cases ties algorithm memUsageLimit priorities state next stepped
  · simp only [lo, hi, Bisection.mid]
    omega
  · simp only [lo, hi, Bisection.mid]
    omega

def bisect (priorities : List SpillPriority) (state : Bisection) : Option Bisection :=
  if state.lo ≤ state.hi then
    match _stepped : bisectStep ties algorithm memUsageLimit priorities state with
    | some next => bisect priorities next
    | none => none
  else some state
termination_by (state.hi + 1 - state.lo).toNat
decreasing_by exact bisectStep_shrinks _ _ _ _ _ _ (by assumption) (by assumption)

def rankFree (order : TieBreak SpillPriority) (work : Problem) : Option (List SpillPriority) := do
  let metrics ← analyze work memUsageLimit
  let priorities ← work.free.mapM (varPriority work metrics)
  some (order.sort byPriority priorities)

/-- The two exits below the bisection loop. -/
def settle (last : Bisection) : Problem × SpillStats :=
  if last.spilledCount < 0 then
    (last.problem, { last.stats with
      memUsage := last.bestMemUsage, stepsTaken := last.stepCount, spillCount := -1 })
  else
    (last.problem, { last.stats with stepsTaken := last.stepCount, spillCount := last.spilledCount })

def spillAllocate (order : TieBreak SpillPriority) (problem : Problem) :
    Option (Problem × SpillStats) :=
  if problem.valid then do
    let (problem, stats) ← allocate ties algorithm (problem.reset .scratch)
    let freeVarCount : Int := problem.vars.length - problem.bound.card
    if stats.memUsage ≤ memUsageLimit then
      some (problem, { stats with stepsTaken := 0, spillCount := 0 })
    else if freeVarCount = 0 then
      some (problem, { stats with stepsTaken := 0, spillCount := 0 })
    else
      let priorities ← rankFree memUsageLimit order problem
      let last ← bisect ties algorithm memUsageLimit priorities
        { work := problem, problem, stats, bestMemUsage := stats.memUsage, hi := priorities.length - 1 }
      some (settle last)
  else none

end Search

end TtMlir.Planner
