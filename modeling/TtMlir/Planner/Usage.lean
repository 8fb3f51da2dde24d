import TtMlir.Planner.SpillAllocate
import TtMlir.Planner.Verify

/-!
How much memory the greedy allocator takes: no less than the load of any instant, and no more than the
bumper allocator.
-/

namespace TtMlir.Planner

variable (before : Problem)

theorem usage_nonneg (done : List Nat) (after : Problem) (memUsage maxSize : Int)
    (placed : Placed before done after memUsage maxSize) (sizes : ∀ other ∈ done, 0 ≤ (after.request other).size) :
    0 ≤ memUsage := by
  rcases placed.memUsage.2 with member | ⟨_, zero⟩
  · obtain ⟨other, isDone, stop⟩ := List.mem_map.mp member
    exact stop ▸ Int.add_nonneg (placed.nonneg other isDone) (sizes other isDone)
  · exact zero.ge

theorem greedyStep_usage (reqIndex : Nat) (rest done : List Nat) (state next : GreedyState)
    (queue : Queue before (reqIndex :: rest) done) (plan : GreedyPlan before done state)
    (stepped : greedyStep state reqIndex = some next) :
    next.memUsage ≤ state.memUsage + (before.request reqIndex).size := by
  have sameSize := placed_size _ _ _ _ _ plan.placed
  have size := queue.visitable.size reqIndex List.mem_cons_self
  have visited (entry : Int × Nat) (member : entry ∈ state.allocatedOrderedByOffset) : entry.2 ∈ done :=
    plan.listed.mem_iff.mp (List.mem_map.mpr ⟨entry, member, rfl⟩)
  obtain ⟨origin, -⟩ := findOffset_clear state.problem (state.problem.request reqIndex) state.allocatedOrderedByOffset
    (fun entry member => by
      rw [sameSize, sameSize]
      exact queue.larger reqIndex List.mem_cons_self _ (visited entry member))
    (plan.sorted.imp_of_mem fun lowIn highIn ordered => by rwa [plan.keyed _ lowIn, plan.keyed _ highIn] at ordered)
  have nonneg := usage_nonneg _ _ _ _ _ plan.placed fun other isDone =>
    sameSize other ▸ queue.visitable.size other (List.mem_append_right _ isDone)
  have below : findOffset state.problem (state.problem.request reqIndex) state.allocatedOrderedByOffset ≤ state.memUsage := by
    rcases origin with zero | ⟨entry, member, stop⟩
    · exact zero ▸ nonneg
    · exact stop ▸ plan.placed.memUsage.1 _ (List.mem_map.mpr ⟨_, visited entry member, rfl⟩)
  unfold greedyStep at stepped
  dsimp only at stepped
  split at stepped
  · cases stepped
    rw [sameSize]
    dsimp only
    omega
  · cases stepped

theorem greedyRun_usage (order done : List Nat) (state last : GreedyState) (queue : Queue before order done)
    (plan : GreedyPlan before done state) (ran : order.foldlM greedyStep state = some last) :
    last.memUsage ≤ state.memUsage + (order.map fun reqIndex => (before.request reqIndex).size).sum := by
  induction order generalizing done state with
  | nil =>
      cases ran
      simp
  | cons reqIndex rest ih =>
      rw [List.foldlM_cons, Option.bind_eq_bind, Option.bind_eq_some_iff] at ran
      obtain ⟨next, stepped, ran⟩ := ran
      have new := greedyStep_new before done state next reqIndex plan stepped
      obtain ⟨_, again, nextPlan⟩ := queue_step before reqIndex rest done state queue plan new
      cases stepped.symm.trans again
      have step := greedyStep_usage before reqIndex rest done state next queue plan stepped
      have later := ih (reqIndex :: done) next (queue_advance _ _ _ _ queue) nextPlan ran
      rw [List.map_cons, List.sum_cons]
      omega

theorem simpleRun_usage (order done : List Nat) (state : SimpleState) (visitable : Visitable before (order ++ done))
    (placed : Placed before done state.problem state.memUsage state.maxSize) :
    (order.foldl simpleStep state).memUsage =
      state.memUsage + (order.map fun reqIndex => (before.request reqIndex).size).sum := by
  induction order generalizing done state with
  | nil => simp
  | cons reqIndex rest ih =>
      have here := visitable_subset _ _ (reqIndex :: done)
        ((List.sublist_append_right rest done).cons_cons reqIndex).subset visitable
      have later := ih (reqIndex :: done) _ (visitable_subset _ _ _ (by simp) visitable)
        (simpleStep_placed before done state reqIndex here placed)
      rw [List.foldl_cons, later, List.map_cons, List.sum_cons, simpleStep, placed_size _ _ _ _ _ placed, add_assoc]

/-- The greedy allocator never takes more than the bumper one, which takes all sizes together, and never
less than the load of an instant. -/
theorem greedy_within_simple (ties others : TieBreak Nat) (problem greedy simple : Problem)
    (greedyStats simpleStats : AllocateStats) (valid : problem.valid = true) (built : problem.Built) (fresh : problem.Fresh)
    (placed : allocate ties .greedy problem = some (greedy, greedyStats))
    (stacked : allocate others .simple problem = some (simple, simpleStats)) :
    (∀ time, loadAt problem time ≤ greedyStats.memUsage) ∧ greedyStats.memUsage ≤ simpleStats.memUsage ∧
      simpleStats.memUsage = (problem.enabled.map fun reqIndex => (problem.request reqIndex).size).sum := by
  have visitable := visitable_enabled problem valid
  have unplaced := fresh_enabled problem valid fresh
  have plan := allocate_plan ties .greedy problem greedy greedyStats visitable unplaced placed
  have sizes (order : List Nat) (same : order.Perm problem.enabled) :
      (order.map fun reqIndex => (problem.request reqIndex).size).sum =
        (problem.enabled.map fun reqIndex => (problem.request reqIndex).size).sum := (same.map _).sum_eq
  have total : simpleStats.memUsage = (problem.enabled.map fun reqIndex => (problem.request reqIndex).size).sum := by
    have order := others.drain_perm (lexicographic problem) problem.enabled
    have run := simpleRun_usage problem _ [] { problem }
      (visitable_subset _ _ _ (by simpa using order.subset) visitable) (placed_start problem)
    cases stacked
    rw [run, sizes _ order, Int.zero_add]
  refine ⟨fun time => ?_, ?_, total⟩
  · have enabled : greedy.enabled = problem.enabled := by simp only [Problem.enabled, plan.vars]
    have same (reqIndex : Nat) := demand_fields _ _ (plan.demand reqIndex)
    have load : loadAt greedy time = loadAt problem time := by
      simp only [loadAt, LiveAt, enabled, (same _).1, (same _).2.1, (same _).2.2.1]
      congr
    rw [← load]
    have sameCase := placed_sameCase _ _ _ _ _ (fun reqIndex => problem.slots_of_enabled reqIndex) plan
    have solution := plan_of_memoryPlan _ _ _ plan
    have separate : ¬ SharesMemory greedy := by
      rintro ⟨left, leftOn, right, rightOn, differ, together, shared⟩
      exact shared (solution.apart left leftOn right rightOn differ together)
    refine loadAt_le_usage greedy ((Problem.sameCase_valid _ _ sameCase).trans valid) (enabled ▸ built.enabled_nodup)
      solution.nonneg separate _
      (usage_nonneg _ _ _ _ _ plan fun reqIndex on => (same reqIndex).2.2.1 ▸ visitable.size reqIndex on)
      (fun reqIndex on => solution.highest.1 _ (List.mem_map.mpr ⟨reqIndex, on, rfl⟩)) time
  · have order := ties.drain_perm (bySize problem) problem.enabled
    simp only [allocate, allocateGreedy, Option.bind_eq_bind, Option.bind_eq_some_iff] at placed
    obtain ⟨last, ran, same⟩ := placed
    cases same
    have run := greedyRun_usage problem _ [] _ last (queue_drain ties problem visitable unplaced)
      (greedyPlan_start problem) ran
    rwa [sizes _ order, Int.zero_add, ← total] at run


def apartVariables : Problem :=
  (({} : Problem).define [.place .scratch, .request .scratch 64 0 1]).define [.place .scratch, .request .scratch 64 2 3]

/-- Requests that are never live together share their bytes in the greedy solution only. -/
theorem greedy_within_simple_apart : ∃ greedyStats simpleStats : AllocateStats,
    greedyStats.memUsage = 64 ∧ simpleStats.memUsage = 128 ∧
      (∀ time, loadAt apartVariables time ≤ greedyStats.memUsage) ∧ greedyStats.memUsage ≤ simpleStats.memUsage := by
  have placed : (allocate (TieBreak.insertion Nat) .greedy apartVariables).map (·.2.memUsage) = some 64 := by decide
  have stacked : (allocate (TieBreak.insertion Nat) .simple apartVariables).map (·.2.memUsage) = some 128 := by decide
  obtain ⟨⟨greedy, greedyStats⟩, placed, usage⟩ := Option.map_eq_some_iff.mp placed
  obtain ⟨⟨simple, simpleStats⟩, stacked, total⟩ := Option.map_eq_some_iff.mp stacked
  have within := greedy_within_simple (TieBreak.insertion Nat) (TieBreak.insertion Nat) apartVariables greedy simple
    greedyStats simpleStats (by decide) (built_define _ _ (built_define _ _ built_empty))
    (fresh_define _ _ (fresh_define _ _ fresh_empty)) placed stacked
  exact ⟨greedyStats, simpleStats, usage, total, within.1, within.2.1⟩

end TtMlir.Planner
