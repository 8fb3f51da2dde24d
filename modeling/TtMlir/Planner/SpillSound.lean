import TtMlir.Planner.Spill

/-!
Soundness of the spill search. Every copy the search handles differs from the
given problem only in offsets and in placements of free variables, that is, it
has the same `reset`; what a copy holds is therefore fixed by how many
priorities it spills.
-/

namespace TtMlir.Planner

namespace Problem

theorem valid_iff (problem : Problem) : problem.valid = true ↔
    (∀ reqIndex < problem.requests.length,
      0 ≤ (problem.request reqIndex).size ∧
        (problem.request reqIndex).varIndex < problem.vars.length) ∧
    ∀ varIndex < problem.vars.length,
      (varIndex ∈ problem.bound → (problem.var varIndex).placement ≠ .na) ∧
      ∀ reqIndex ∈ (problem.var varIndex).slots, reqIndex < problem.requests.length := by
  rw [Problem.valid, Bool.and_eq_true]
  refine and_congr ?_ ?_
  · simp only [List.all_eq_true, List.forall_mem_iff_forall_getElem]
    refine forall₂_congr fun reqIndex inside => ?_
    simp [validRequest, request, inside]
  · simp only [List.all_eq_true, List.mem_range]
    refine forall₂_congr fun varIndex _ => ?_
    by_cases pinned : varIndex ∈ problem.bound <;> simp [validVariable, pinned]

theorem length_of_getElem? {α β : Type} (left right : List α) (f : α → β)
    (same : ∀ index : Nat, left[index]?.map f = right[index]?.map f) : left.length = right.length := by
  have mapped : left.map f = right.map f := List.ext_getElem? fun index => by simpa using same index
  simpa using congrArg List.length mapped

section
variable (problem : Problem) (placement : Space)

theorem reset_request_length :
    (problem.reset placement).requests.length = problem.requests.length :=
  length_of_getElem? _ _ VarRequest.demand fun index => by
    rw [reset_requests, Option.map_map]
    congr 1
    funext req
    by_cases owned : index ∈ problem.slots <;> simp [owned, VarRequest.demand, VarRequest.place]

theorem reset_var_length :
    (problem.reset placement).vars.length = problem.vars.length :=
  length_of_getElem? _ _ Variable.slots fun index => by
    rw [reset_vars, Option.map_map]
    congr 1
    funext var
    by_cases pinned : index ∈ problem.bound <;> simp [pinned]

theorem var_reset (varIndex : Nat)
    (inside : varIndex < problem.vars.length) :
    (problem.reset placement).var varIndex =
      if varIndex ∈ problem.bound then problem.var varIndex
      else (problem.var varIndex).place placement := by
  simp [var, reset_vars, inside]

theorem request_reset (reqIndex : Nat)
    (inside : reqIndex < problem.requests.length) :
    (problem.reset placement).request reqIndex =
      if reqIndex ∈ problem.slots then (problem.request reqIndex).demand
      else problem.request reqIndex := by
  simp [request, reset_requests, inside]

theorem valid_reset :
    (problem.reset placement).valid = problem.valid := by
  rw [Bool.eq_iff_iff, valid_iff, valid_iff, reset_var_length, reset_request_length, reset_bound]
  refine and_congr (forall₂_congr fun reqIndex inside => ?_) (forall₂_congr fun varIndex inside => ?_)
  · rw [request_reset problem placement reqIndex inside]
    by_cases owned : reqIndex ∈ problem.slots <;> simp [owned, VarRequest.demand, VarRequest.place]
  · rw [var_reset problem placement varIndex inside]
    by_cases pinned : varIndex ∈ problem.bound <;> simp [pinned]

end

/-- Two copies of one problem: they differ in offsets and free placements only. -/
def SameCase (left right : Problem) : Prop := left.reset .scratch = right.reset .scratch

theorem sameCase_reset (problem : Problem) (placement : Space) :
    SameCase (problem.reset placement) problem := reset_reset problem placement .scratch

section
variable (left right : Problem) (same : SameCase left right)
include same

theorem sameCase_bound : left.bound = right.bound := by
  simpa using congrArg Problem.bound same

theorem sameCase_valid : left.valid = right.valid := by
  rw [← valid_reset left .scratch, same, valid_reset]

theorem sameCase_slots : left.slots = right.slots := by
  rw [← slots_reset left .scratch, same, slots_reset]

theorem sameCase_pinned (varIndex : Nat)
    (pinned : varIndex ∈ right.bound) : left.vars[varIndex]? = right.vars[varIndex]? := by
  have vars := congrArg (fun problem : Problem => problem.vars[varIndex]?) same
  simpa [reset_vars, sameCase_bound left right same, pinned] using vars

theorem sameCase_placement (varIndex : Nat)
    (pinned : varIndex ∈ right.bound) :
    (left.var varIndex).placement = (right.var varIndex).placement := by
  simp only [var, List.getD_eq_getElem?_getD, sameCase_pinned left right same varIndex pinned]

end

end Problem

open Problem

theorem placed_sameCase (before after : Problem) (done : List Nat) (memUsage maxSize : Int)
    (owned : done ⊆ before.slots) (placed : Placed before done after memUsage maxSize) :
    SameCase after before := by
  have slots : after.slots = before.slots := by simp only [Problem.slots, placed.vars]
  apply eq_of_getElem?
  · simp [placed.bound]
  · simp [reset_vars, placed.vars, placed.bound]
  · intro index
    rw [reset_requests, reset_requests, slots]
    by_cases inside : index < before.requests.length
    · have insideAfter : index < after.requests.length := placed.length ▸ inside
      have request (problem : Problem) (within : index < problem.requests.length) :
          problem.requests[index]? = some (problem.request index) := by
        simp [Problem.request, within]
      rw [request after insideAfter, request before inside]
      by_cases member : index ∈ before.slots
      · simp [member, placed.demand]
      · simp [member, placed.untouched index fun visited => member (owned visited)]
    · have outsideAfter : ¬ index < after.requests.length := placed.length ▸ inside
      simp [not_lt.mp inside, not_lt.mp outsideAfter]

section SpillFirst
variable (work : Problem) (priorities : List SpillPriority) (count : Nat)

theorem spillAll_fields (chosen : List SpillPriority) (current : Problem) :
    let last := chosen.foldl
      (fun current priority => current.setPlacement priority.varIndex .spill) current
    last.requests = current.requests ∧ last.bound = current.bound ∧
    ∀ index : Nat, last.vars[index]? = current.vars[index]?.map fun var =>
      if index ∈ chosen.map SpillPriority.varIndex then var.place .spill else var := by
  induction chosen generalizing current with
  | nil => simp
  | cons priority rest ih =>
      obtain ⟨requests, bound, vars⟩ := ih (current.setPlacement priority.varIndex .spill)
      refine ⟨requests, bound, fun index => ?_⟩
      rw [List.foldl_cons, vars, setPlacement_vars, Option.map_map]
      congr 1
      funext var
      by_cases here : priority.varIndex = index
      · subst here
        by_cases again : priority.varIndex ∈ rest.map SpillPriority.varIndex <;>
          simp [again, Variable.place]
      · simp [here, Ne.symm here]

theorem spillFirst_requests : (spillFirst work priorities count).requests = work.requests :=
  (spillAll_fields (priorities.take count) work).1

theorem spillFirst_bound : (spillFirst work priorities count).bound = work.bound :=
  (spillAll_fields (priorities.take count) work).2.1

theorem spillFirst_vars (index : Nat) :
    (spillFirst work priorities count).vars[index]? = work.vars[index]?.map fun var =>
      if index ∈ (priorities.take count).map SpillPriority.varIndex then var.place .spill else var :=
  (spillAll_fields (priorities.take count) work).2.2 index

theorem spillFirst_var_slots (index : Nat) :
    (spillFirst work priorities count).vars[index]?.map Variable.slots = work.vars[index]?.map Variable.slots := by
  rw [spillFirst_vars, Option.map_map]
  congr 1
  funext var
  by_cases chosen : index ∈ (priorities.take count).map SpillPriority.varIndex <;>
    simp only [Function.comp_apply, chosen, ↓reduceIte, place_slots]

theorem spillFirst_slots : (spillFirst work priorities count).slots = work.slots :=
  slots_congr _ _ (spillFirst_var_slots work priorities count)

variable (free : ∀ priority ∈ priorities, priority.varIndex ∉ work.bound)
include free

theorem spillFirst_sameCase : SameCase (spillFirst work priorities count) work := by
  have chosenFree : ∀ index ∈ (priorities.take count).map SpillPriority.varIndex,
      index ∉ work.bound := by
    intro index member
    obtain ⟨priority, taken, rfl⟩ := List.mem_map.mp member
    exact free priority (List.mem_of_mem_take taken)
  apply eq_of_getElem?
  · simp [spillFirst_bound]
  · intro index
    rw [reset_vars, reset_vars, spillFirst_vars, spillFirst_bound, Option.map_map]
    congr 1
    funext var
    by_cases pinned : index ∈ work.bound
    · have untouched : index ∉ (priorities.take count).map SpillPriority.varIndex :=
        fun chosen => chosenFree index chosen pinned
      simp only [Function.comp_apply, pinned, untouched, ↓reduceIte]
    · by_cases chosen : index ∈ (priorities.take count).map SpillPriority.varIndex <;>
        simp only [Function.comp_apply, pinned, chosen, ↓reduceIte, Variable.place]
  · intro index
    rw [reset_requests, reset_requests, spillFirst_requests, spillFirst_slots]

end SpillFirst

/-! One probe of the search allocates a copy with some prefix spilled. -/

section Probe
variable (ties : TieBreak Nat) (algorithm : Algorithm) (problem : Problem)
  (priorities : List SpillPriority) (count : Nat)
  (free : ∀ priority ∈ priorities, priority.varIndex ∉ problem.bound)
include free

theorem probe_sameCase : SameCase (spillFirst (problem.reset .scratch) priorities count) problem :=
  (spillFirst_sameCase _ _ _ (by simpa using free)).trans (sameCase_reset problem .scratch)

variable (valid : problem.valid = true)
include valid

theorem probe_visitable : Visitable (spillFirst (problem.reset .scratch) priorities count)
    (spillFirst (problem.reset .scratch) priorities count).enabled := by
  apply visitable_enabled
  rw [sameCase_valid _ _ (probe_sameCase problem priorities count free)]
  exact valid

theorem probe_fresh : ∀ reqIndex ∈ (spillFirst (problem.reset .scratch) priorities count).enabled,
    ((spillFirst (problem.reset .scratch) priorities count).request reqIndex).offset < 0 := by
  intro reqIndex on
  have owned := slots_of_enabled _ reqIndex on
  rw [sameCase_slots _ _ (probe_sameCase problem priorities count free)] at owned
  have same : (spillFirst (problem.reset .scratch) priorities count).request reqIndex =
      (problem.reset .scratch).request reqIndex := by
    simp only [Problem.request, spillFirst_requests]
  rw [same, request_reset problem .scratch reqIndex (problem.valid_slots valid reqIndex owned)]
  simp [owned, VarRequest.demand, VarRequest.place]

section
variable (after : Problem) (stats : AllocateStats)
  (allocated : allocate ties algorithm (spillFirst (problem.reset .scratch) priorities count) = some (after, stats))
include stats allocated

theorem probe_plan :
    MemoryPlan (spillFirst (problem.reset .scratch) priorities count) after stats :=
  allocate_plan ties algorithm _ after stats (probe_visitable problem priorities count free valid)
    (probe_fresh problem priorities count free valid) allocated

theorem probe_after : SameCase after problem :=
  (placed_sameCase _ _ _ _ _ (fun reqIndex => slots_of_enabled _ reqIndex)
    (probe_plan ties algorithm problem priorities count free valid after stats allocated)).trans
    (probe_sameCase problem priorities count free)

end

theorem probe_total (owned : problem.slots.Nodup) :
    ∃ outcome, allocate ties algorithm (spillFirst (problem.reset .scratch) priorities count) =
      some outcome := by
  apply allocate_total ties algorithm _ (probe_visitable problem priorities count free valid)
    (probe_fresh problem priorities count free valid)
  refine (enabled_sublist _).nodup ?_
  rw [sameCase_slots _ _ (probe_sameCase problem priorities count free)]
  exact owned

end Probe

/-! The search itself. `missed` is why a failed search has tried to spill
everything: its lower end only moves past a prefix that was probed. -/

section Search
variable (ties : TieBreak Nat) (algorithm : Algorithm) (memUsageLimit : Int) (problem : Problem)
  (priorities : List SpillPriority)

structure Searching (state : Bisection) : Prop where
  work : SameCase state.work problem
  lo : 0 ≤ state.lo
  hi : state.hi < priorities.length
  ordered : state.lo ≤ state.hi + 1
  answer : state.spilledCount = -1 ∧ state.hi = priorities.length - 1 ∧
      memUsageLimit < state.stats.memUsage ∧ memUsageLimit < state.bestMemUsage ∨
    0 < state.spilledCount ∧ state.spilledCount ≤ priorities.length ∧
      state.stats.memUsage ≤ memUsageLimit
  left : allocate ties algorithm
      (spillFirst (problem.reset .scratch) priorities state.spilledCount.toNat) =
    some (state.problem, state.stats)
  missed : 0 < state.lo → ∃ work stats,
    allocate ties algorithm (spillFirst (problem.reset .scratch) priorities state.lo.toNat) =
      some (work, stats) ∧ memUsageLimit < stats.memUsage

variable (valid : problem.valid = true)
  (free : ∀ priority ∈ priorities, priority.varIndex ∉ problem.bound)
include valid free

theorem searching_step (state next : Bisection) (unfinished : state.lo ≤ state.hi)
    (searching : Searching ties algorithm memUsageLimit problem priorities state)
    (stepped : bisectStep ties algorithm memUsageLimit priorities state = some next) :
    Searching ties algorithm memUsageLimit problem priorities next := by
  obtain ⟨work, lo, hi, ordered, answer, left, missed⟩ := searching
  obtain ⟨midStats, allocated, best, _, moved⟩ :=
    bisectStep_cases ties algorithm memUsageLimit priorities state next stepped
  rw [work] at allocated
  have within : state.lo ≤ state.mid ∧ state.mid ≤ state.hi := by
    simp only [Bisection.mid]
    omega
  have sameWork := probe_after ties algorithm problem priorities _ free valid _ _ allocated
  rcases moved with ⟨fits, sameLo, newHi, sameProblem, sameStats, count⟩ |
    ⟨tooLarge, newLo, sameHi, sameProblem, sameStats, count⟩
  · refine ⟨sameWork, by omega, by omega, by omega, Or.inr ?_, ?_, ?_⟩
    · rw [count, sameStats]
      exact ⟨by omega, by omega, fits⟩
    · rw [count, sameProblem, sameStats]
      exact allocated
    · rw [sameLo]
      exact missed
  · refine ⟨sameWork, by omega, by omega, by omega, ?_, ?_, fun _ => ?_⟩
    · rw [count, sameStats, sameHi, best]
      refine answer.imp_left fun none => ?_
      obtain ⟨failed, top, above, bestAbove⟩ := none
      exact ⟨failed, top, above, lt_min bestAbove tooLarge⟩
    · rw [count, sameProblem, sameStats]
      exact left
    · rw [newLo]
      exact ⟨next.work, midStats, allocated, tooLarge⟩

theorem searching_run (state last : Bisection)
    (searching : Searching ties algorithm memUsageLimit problem priorities state)
    (ran : bisect ties algorithm memUsageLimit priorities state = some last) :
    Searching ties algorithm memUsageLimit problem priorities last ∧ last.hi < last.lo := by
  fun_induction bisect ties algorithm memUsageLimit priorities state with
  | case1 state unfinished next stepped ih =>
      exact ih (searching_step ties algorithm memUsageLimit problem priorities valid free state next
        unfinished searching stepped) ran
  | case2 state unfinished failed => cases ran
  | case3 state finished =>
      cases ran
      exact ⟨searching, not_le.mp finished⟩

theorem searching_total (owned : problem.slots.Nodup) (state : Bisection)
    (searching : Searching ties algorithm memUsageLimit problem priorities state) :
    ∃ last, bisect ties algorithm memUsageLimit priorities state = some last := by
  fun_induction bisect ties algorithm memUsageLimit priorities state with
  | case1 state unfinished next stepped ih =>
      exact ih (searching_step ties algorithm memUsageLimit problem priorities valid free state next
        unfinished searching stepped)
  | case2 state unfinished failed =>
      obtain ⟨outcome, allocated⟩ := probe_total ties algorithm problem priorities
        (state.mid + 1).toNat free valid owned
      rw [← searching.work] at allocated
      simp only [bisectStep, allocated, Option.bind_eq_bind, Option.bind_some] at failed
      by_cases fits : outcome.2.memUsage ≤ memUsageLimit <;> simp [fits] at failed
  | case3 state finished => exact ⟨state, rfl⟩

end Search

end TtMlir.Planner
