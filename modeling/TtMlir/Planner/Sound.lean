import TtMlir.Planner.Plan

/-!
Both allocators produce a memory plan. Each is a fold over the drained queue:
one lemma says what one visit adds to the plan, and the run lemma carries it
over the whole queue.
-/

namespace TtMlir.Planner

theorem placed_perm (before after : Problem) (done order : List Nat) (memUsage maxSize : Int)
    (same : done.Perm order) (placed : Placed before done after memUsage maxSize) :
    Placed before order after memUsage maxSize where
  vars := placed.vars
  bound := placed.bound
  length := placed.length
  demand := placed.demand
  untouched reqIndex absent := placed.untouched reqIndex fun member => absent (same.mem_iff.mp member)
  nonneg reqIndex member := placed.nonneg reqIndex (same.mem_iff.mpr member)
  apart left leftIn right rightIn :=
    placed.apart left (same.mem_iff.mpr leftIn) right (same.mem_iff.mpr rightIn)
  memUsage := peak_perm _ _ _ (same.map _) placed.memUsage
  maxSize := peak_perm _ _ _ (same.map _) placed.maxSize
  aligned alignment divides reqIndex member :=
    placed.aligned alignment (fun other inDone => divides other (same.mem_iff.mp inDone)) reqIndex
      (same.mem_iff.mpr member)

theorem placed_size (before after : Problem) (done : List Nat) (memUsage maxSize : Int)
    (placed : Placed before done after memUsage maxSize) (reqIndex : Nat) :
    (after.request reqIndex).size = (before.request reqIndex).size :=
  (demand_fields _ _ (placed.demand reqIndex)).2.2.1

structure Visitable (problem : Problem) (indices : List Nat) : Prop where
  inside : ∀ reqIndex ∈ indices, reqIndex < problem.requests.length
  size : ∀ reqIndex ∈ indices, 0 ≤ (problem.request reqIndex).size

theorem visitable_enabled (problem : Problem) (valid : problem.valid = true) :
    Visitable problem problem.enabled := by
  have inside (reqIndex : Nat) (on : reqIndex ∈ problem.enabled) :
      reqIndex < problem.requests.length :=
    problem.valid_slots valid reqIndex (problem.slots_of_enabled reqIndex on)
  exact ⟨inside, fun reqIndex on => problem.valid_size valid reqIndex (inside reqIndex on)⟩

theorem visitable_subset (problem : Problem) (indices chosen : List Nat) (part : chosen ⊆ indices)
    (visitable : Visitable problem indices) : Visitable problem chosen where
  inside reqIndex member := visitable.inside reqIndex (part member)
  size reqIndex member := visitable.size reqIndex (part member)

/-! Bumper allocation stacks every request on top of the previous ones. -/

theorem simpleStep_placed (before : Problem) (done : List Nat) (state : SimpleState) (reqIndex : Nat)
    (visitable : Visitable before (reqIndex :: done))
    (placed : Placed before done state.problem state.memUsage state.maxSize) :
    let next := simpleStep state reqIndex
    Placed before (reqIndex :: done) next.problem next.memUsage next.maxSize := by
  have sameSize := placed_size _ _ _ _ _ placed
  have size : 0 ≤ (state.problem.request reqIndex).size := by
    rw [sameSize]
    exact visitable.size reqIndex List.mem_cons_self
  have sizes (other : Nat) (member : other ∈ done) : 0 ≤ (state.problem.request other).size := by
    rw [sameSize]
    exact visitable.size other (List.mem_cons_of_mem _ member)
  have origin : state.memUsage = 0 ∨
      ∃ other ∈ done, state.memUsage = (state.problem.request other).stop := by
    rcases placed.memUsage.2 with reached | ⟨_, zero⟩
    · obtain ⟨other, member, stop⟩ := List.mem_map.mp reached
      exact Or.inr ⟨other, member, stop.symm⟩
    · exact Or.inl zero
  have below (other : Nat) (member : other ∈ done) :
      (state.problem.request other).stop ≤ state.memUsage :=
    placed.memUsage.1 _ (List.mem_map.mpr ⟨other, member, rfl⟩)
  have extended := placed_extend before state.problem done state.memUsage state.maxSize reqIndex
    state.memUsage placed (visitable.inside reqIndex List.mem_cons_self) (Or.inr le_rfl) size origin
    (fun other member _ => Or.inl (below other member)) sizes
  rw [max_eq_right (by omega)] at extended
  exact extended

theorem simpleRun_placed (before : Problem) (order done : List Nat) (state : SimpleState)
    (visitable : Visitable before (order ++ done))
    (placed : Placed before done state.problem state.memUsage state.maxSize) :
    let last := order.foldl simpleStep state
    Placed before (order.reverse ++ done) last.problem last.memUsage last.maxSize := by
  induction order generalizing done state with
  | nil => exact placed
  | cons reqIndex rest ih =>
      have here := visitable_subset _ _ (reqIndex :: done)
        ((List.sublist_append_right rest done).cons_cons reqIndex).subset visitable
      have ahead := visitable_subset _ _ (rest ++ reqIndex :: done) (by simp) visitable
      have last := ih (reqIndex :: done) _ ahead (simpleStep_placed before done state reqIndex here placed)
      simpa using last

/-! Greedy allocation. The multimap holds exactly the placed requests under
their offsets, and no request still to come is larger than a placed one. -/

structure GreedyPlan (before : Problem) (done : List Nat) (state : GreedyState) : Prop where
  placed : Placed before done state.problem state.memUsage state.maxSize
  listed : (state.allocatedOrderedByOffset.map Prod.snd).Perm done
  keyed : ∀ entry ∈ state.allocatedOrderedByOffset,
    entry.1 = (state.problem.request entry.2).offset
  sorted : state.allocatedOrderedByOffset.Pairwise fun low high => low.1 ≤ high.1

theorem greedyPlan_start (problem : Problem) : GreedyPlan problem [] { problem := problem } where
  placed := placed_start problem
  listed := List.Perm.refl _
  keyed := by simp
  sorted := List.Pairwise.nil

theorem greedyStep_plan (before : Problem) (done : List Nat) (state : GreedyState) (reqIndex : Nat)
    (visitable : Visitable before (reqIndex :: done)) (new : reqIndex ∉ done)
    (fresh : (before.request reqIndex).offset < 0)
    (larger : ∀ other ∈ done, (before.request reqIndex).size ≤ (before.request other).size)
    (plan : GreedyPlan before done state) :
    ∃ next, greedyStep state reqIndex = some next ∧ GreedyPlan before (reqIndex :: done) next := by
  obtain ⟨placed, listed, keyed, sorted⟩ := plan
  have inside := visitable.inside reqIndex List.mem_cons_self
  have sameSize := placed_size _ _ _ _ _ placed
  have unplaced : (state.problem.request reqIndex).offset < 0 := by
    rw [placed.untouched reqIndex new]
    exact fresh
  have mem_listed (other : Nat) (member : other ∈ done) :
      ∃ entry ∈ state.allocatedOrderedByOffset, entry.2 = other := by
    simpa using listed.mem_iff.mpr member
  have listed_mem (entry : Int × Nat) (member : entry ∈ state.allocatedOrderedByOffset) :
      entry.2 ∈ done :=
    listed.mem_iff.mp (List.mem_map.mpr ⟨entry, member, rfl⟩)
  obtain ⟨origin, clear⟩ := findOffset_clear state.problem (state.problem.request reqIndex)
    state.allocatedOrderedByOffset
    (fun entry member => by
      rw [sameSize, sameSize]
      exact larger _ (listed_mem entry member))
    (sorted.imp_of_mem fun lowIn highIn ordered => by rwa [keyed _ lowIn, keyed _ highIn] at ordered)
  generalize chosen : findOffset state.problem (state.problem.request reqIndex)
    state.allocatedOrderedByOffset = offset at origin clear
  have extended := placed_extend before state.problem done state.memUsage state.maxSize reqIndex
    offset placed inside (Or.inl new)
    (by rw [sameSize]; exact visitable.size reqIndex List.mem_cons_self)
    (origin.imp_right fun ⟨entry, member, stop⟩ => ⟨entry.2, listed_mem entry member, stop⟩)
    (fun other member live => by
      obtain ⟨entry, entryIn, rfl⟩ := mem_listed other member
      exact clear entry entryIn live)
    (fun other member => by
      rw [sameSize]
      exact visitable.size other (List.mem_cons_of_mem _ member))
  have insideNow : reqIndex < state.problem.requests.length := placed.length ▸ inside
  have stepped : greedyStep state reqIndex = some
      { problem := state.problem.setOffset reqIndex offset
        allocatedOrderedByOffset := emplace (offset, reqIndex) state.allocatedOrderedByOffset
        memUsage := max state.memUsage (offset + (state.problem.request reqIndex).size)
        maxSize := max state.maxSize (state.problem.request reqIndex).size } := by
    simp only [greedyStep, unplaced, ↓reduceIte, chosen]
  refine ⟨_, stepped, extended, ?_, ?_, ?_⟩
  · exact ((emplace_perm _ _).map Prod.snd).trans (listed.cons reqIndex)
  · intro entry member
    rw [request_setOffset _ _ _ _ insideNow]
    rcases List.mem_cons.mp ((emplace_perm _ _).mem_iff.mp member) with rfl | old
    · simp [VarRequest.place]
    · have differs : reqIndex ≠ entry.2 := fun same => new (same ▸ listed_mem entry old)
      simp only [differs, ↓reduceIte]
      exact keyed entry old
  · exact emplace_sorted _ _ sorted

theorem greedyStep_new (before : Problem) (done : List Nat) (state next : GreedyState) (reqIndex : Nat)
    (plan : GreedyPlan before done state) (stepped : greedyStep state reqIndex = some next) :
    reqIndex ∉ done := by
  intro old
  have nonneg := plan.placed.nonneg reqIndex old
  have placed : ¬ (state.problem.request reqIndex).offset < 0 := by omega
  simp [greedyStep, placed] at stepped

structure Queue (before : Problem) (order done : List Nat) : Prop where
  visitable : Visitable before (order ++ done)
  fresh : ∀ reqIndex ∈ order, (before.request reqIndex).offset < 0
  descending : order.Pairwise fun early late => ¬ bySize before early late
  larger : ∀ late ∈ order, ∀ early ∈ done, (before.request late).size ≤ (before.request early).size

theorem queue_advance (before : Problem) (reqIndex : Nat) (rest done : List Nat)
    (queue : Queue before (reqIndex :: rest) done) : Queue before rest (reqIndex :: done) where
  visitable := visitable_subset _ _ _ (by simp) queue.visitable
  fresh other member := queue.fresh other (List.mem_cons_of_mem _ member)
  descending := (List.pairwise_cons.mp queue.descending).2
  larger late lateIn early earlyIn := by
    rcases List.mem_cons.mp earlyIn with rfl | old
    · have ordered := (List.pairwise_cons.mp queue.descending).1 late lateIn
      simp only [bySize] at ordered
      omega
    · exact queue.larger late (List.mem_cons_of_mem _ lateIn) early old

theorem queue_step (before : Problem) (reqIndex : Nat) (rest done : List Nat) (state : GreedyState)
    (queue : Queue before (reqIndex :: rest) done) (plan : GreedyPlan before done state)
    (new : reqIndex ∉ done) :
    ∃ next, greedyStep state reqIndex = some next ∧ GreedyPlan before (reqIndex :: done) next :=
  greedyStep_plan before done state reqIndex
    (visitable_subset _ _ (reqIndex :: done)
      ((List.sublist_append_right rest done).cons_cons reqIndex).subset queue.visitable)
    new (queue.fresh reqIndex List.mem_cons_self) (queue.larger reqIndex List.mem_cons_self) plan

theorem greedyPrefix_plan (before : Problem) (order done : List Nat) (state last : GreedyState)
    (visitable : Visitable before (order ++ done))
    (descending : order.Pairwise fun early late => ¬ bySize before early late)
    (larger : ∀ late ∈ order, ∀ early ∈ done, (before.request late).size ≤ (before.request early).size)
    (plan : GreedyPlan before done state) (ran : order.foldlM greedyStep state = some last) :
    GreedyPlan before (order.reverse ++ done) last := by
  induction order generalizing done state with
  | nil =>
      cases ran
      exact plan
  | cons reqIndex rest ih =>
      rw [List.foldlM_cons, Option.bind_eq_bind, Option.bind_eq_some_iff] at ran
      obtain ⟨next, stepped, ran⟩ := ran
      have new := greedyStep_new before done state next reqIndex plan stepped
      have fresh : (before.request reqIndex).offset < 0 := by
        rw [← plan.placed.untouched reqIndex new]
        by_contra placed
        simp [greedyStep, placed] at stepped
      have here := visitable_subset _ _ (reqIndex :: done)
        ((List.sublist_append_right rest done).cons_cons reqIndex).subset visitable
      obtain ⟨_, again, nextPlan⟩ := greedyStep_plan before done state reqIndex here new fresh
        (larger reqIndex List.mem_cons_self) plan
      cases stepped.symm.trans again
      have ahead := visitable_subset _ _ (rest ++ reqIndex :: done) (by simp) visitable
      have smaller : ∀ late ∈ rest, ∀ early ∈ reqIndex :: done,
          (before.request late).size ≤ (before.request early).size := by
        intro late lateIn early earlyIn
        rcases List.mem_cons.mp earlyIn with rfl | old
        · have ordered := (List.pairwise_cons.mp descending).1 late lateIn
          simp only [bySize] at ordered
          omega
        · exact larger late (List.mem_cons_of_mem _ lateIn) early old
      simpa using ih (reqIndex :: done) next ahead (List.pairwise_cons.mp descending).2 smaller nextPlan ran

theorem greedyRun_total (before : Problem) (order done : List Nat) (state : GreedyState)
    (queue : Queue before order done) (nodup : (order ++ done).Nodup)
    (plan : GreedyPlan before done state) : ∃ last, order.foldlM greedyStep state = some last := by
  induction order generalizing done state with
  | nil => exact ⟨state, rfl⟩
  | cons reqIndex rest ih =>
      have new : reqIndex ∉ done := fun old =>
        (List.nodup_cons.mp nodup).1 (List.mem_append_right _ old)
      obtain ⟨next, stepped, nextPlan⟩ := queue_step before reqIndex rest done state queue plan new
      obtain ⟨last, ran⟩ := ih (reqIndex :: done) next (queue_advance _ _ _ _ queue)
        (List.perm_middle.nodup_iff.mpr nodup) nextPlan
      exact ⟨last, by rw [List.foldlM_cons, stepped]; exact ran⟩

theorem queue_drain (ties : TieBreak Nat) (problem : Problem)
    (visitable : Visitable problem problem.enabled)
    (fresh : ∀ reqIndex ∈ problem.enabled, (problem.request reqIndex).offset < 0) :
    Queue problem (ties.drain (bySize problem) problem.enabled) [] where
  visitable := visitable_subset _ _ _
    (by simpa using (ties.drain_perm (bySize problem) problem.enabled).subset) visitable
  fresh reqIndex member := fresh reqIndex ((ties.mem_drain _ _ _).mp member)
  descending := ties.drain_pairwise _ _
  larger _ _ _ member := absurd member List.not_mem_nil

theorem allocate_plan (ties : TieBreak Nat) (algorithm : Algorithm) (problem after : Problem)
    (stats : AllocateStats) (visitable : Visitable problem problem.enabled)
    (fresh : ∀ reqIndex ∈ problem.enabled, (problem.request reqIndex).offset < 0)
    (allocated : allocate ties algorithm problem = some (after, stats)) :
    MemoryPlan problem after stats := by
  cases algorithm with
  | simple =>
      have order := ties.drain_perm (lexicographic problem) problem.enabled
      have run := simpleRun_placed problem (ties.drain (lexicographic problem) problem.enabled) []
        { problem := problem }
        (visitable_subset _ _ _ (by simpa using order.subset) visitable) (placed_start problem)
      rw [List.append_nil] at run
      cases allocated
      exact placed_perm _ _ _ _ _ _ ((List.reverse_perm _).trans order) run
  | greedy =>
      have order := ties.drain_perm (bySize problem) problem.enabled
      simp only [allocate, allocateGreedy, Option.bind_eq_bind, Option.bind_eq_some_iff] at allocated
      obtain ⟨last, ran, same⟩ := allocated
      cases same
      have queue := queue_drain ties problem visitable fresh
      have plan := greedyPrefix_plan problem _ [] _ last queue.visitable queue.descending queue.larger
        (greedyPlan_start problem) ran
      rw [List.append_nil] at plan
      exact placed_perm _ _ _ _ _ _ ((List.reverse_perm _).trans order) plan.placed

theorem allocate_total (ties : TieBreak Nat) (algorithm : Algorithm) (problem : Problem)
    (visitable : Visitable problem problem.enabled)
    (fresh : ∀ reqIndex ∈ problem.enabled, (problem.request reqIndex).offset < 0)
    (nodup : problem.enabled.Nodup) : ∃ outcome, allocate ties algorithm problem = some outcome := by
  cases algorithm with
  | simple => exact ⟨_, rfl⟩
  | greedy =>
      have order := ties.drain_perm (bySize problem) problem.enabled
      obtain ⟨last, ran⟩ := greedyRun_total problem _ [] _ (queue_drain ties problem visitable fresh)
        (by simpa using order.nodup_iff.mpr nodup) (greedyPlan_start problem)
      exact ⟨_, by simp only [allocate, allocateGreedy, ran]; rfl⟩

theorem fresh_enabled (problem : Problem) (valid : problem.valid = true) (fresh : problem.Fresh) :
    ∀ reqIndex ∈ problem.enabled, (problem.request reqIndex).offset < 0 := by
  intro reqIndex on
  have inside := problem.valid_slots valid reqIndex (problem.slots_of_enabled reqIndex on)
  have unplaced := fresh problem.requests[reqIndex] (List.getElem_mem inside)
  simp [Problem.request, inside, unplaced]

/-- For every way the priority queue breaks ties, `allocate` places exactly the
enabled requests, without overlap and keeping any common alignment. -/
theorem allocate_sound (ties : TieBreak Nat) (algorithm : Algorithm) (problem : Problem)
    (valid : problem.valid = true) (built : problem.Built) (fresh : problem.Fresh) :
    ∃ after stats, allocate ties algorithm problem = some (after, stats) ∧
      MemoryPlan problem after stats := by
  have visitable := visitable_enabled problem valid
  have unplaced := fresh_enabled problem valid fresh
  obtain ⟨⟨after, stats⟩, allocated⟩ :=
    allocate_total ties algorithm problem visitable unplaced built.enabled_nodup
  exact ⟨after, stats, allocated,
    allocate_plan ties algorithm problem after stats visitable unplaced allocated⟩

def threeVariables : Problem :=
  ((({} : Problem).define [.place .scratch, .request .scratch 64 0 4, .request .spill 32 1 1]).define
    [.bind .scratch, .request .scratch 96 2 6]).define [.request .scratch 32 0 9]

theorem threeVariables_built : threeVariables.Built :=
  built_define _ _ (built_define _ _ (built_define _ _ built_empty))

theorem threeVariables_fresh : threeVariables.Fresh :=
  fresh_define _ _ (fresh_define _ _ (fresh_define _ _ fresh_empty))

theorem allocate_sound_three : threeVariables.valid = true ∧ threeVariables.Built ∧ threeVariables.Fresh ∧
    ∃ after stats, allocate (TieBreak.stable Nat) .greedy threeVariables = some (after, stats) ∧
      MemoryPlan threeVariables after stats :=
  ⟨by decide, threeVariables_built, threeVariables_fresh,
    allocate_sound (TieBreak.stable Nat) .greedy threeVariables (by decide) threeVariables_built
      threeVariables_fresh⟩

end TtMlir.Planner
