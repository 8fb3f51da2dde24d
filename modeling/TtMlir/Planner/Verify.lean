import TtMlir.Library.Intervals
import TtMlir.Library.Lists
import TtMlir.Planner.Sound

/-!
`Planner::verify`: conflicts and load are looked up at the start of every live
range, in an interval tree that answers stabbing queries.
-/

namespace TtMlir.Planner

/-- A query of the interval tree: the values of the intervals that hold a point. -/
abbrev Stab := List (LiveRange × Nat) → Int → List Nat

/-- The tree returns exactly the intervals that contain the point, in any order. -/
def Stab.Exact (getContaining : Stab) : Prop :=
  ∀ intervals point, (getContaining intervals point).Perm
    ((intervals.filter fun entry => entry.1.first ≤ point ∧ point ≤ entry.1.last).map Prod.snd)

def memOverlap (req conflict : VarRequest) : Bool :=
  decide (max req.offset conflict.offset < min (req.offset + req.size) (conflict.offset + conflict.size))

structure VerifyState where
  memUsage : Int := 0
  maxSize : Int := 0
  maxLoad : Int := 0

/-- One interval found at the start of a request; the request itself is found too. -/
def verifyConflict (solution : Problem) (reqIndex : Nat) (load : Int) (conflictIndex : Nat) : Option Int :=
  if conflictIndex ≠ reqIndex then
    let conflict := solution.request conflictIndex
    if memOverlap (solution.request reqIndex) conflict then none else some (load + conflict.size)
  else some load

def verifyRequest (getContaining : Stab) (intervals : List (LiveRange × Nat)) (solution : Problem)
    (state : VerifyState) (reqIndex : Nat) : Option VerifyState :=
  let req := solution.request reqIndex
  if req.offset ≥ 0 then do
    let load ← (getContaining intervals req.first).foldlM (verifyConflict solution reqIndex) req.size
    some { memUsage := max state.memUsage (req.offset + req.size)
           maxLoad := max state.maxLoad load
           maxSize := max state.maxSize req.size }
  else none

def verify (getContaining : Stab) (solution : Problem) : Option AllocateStats :=
  let requestIndices := solution.enabled
  let intervals := requestIndices.map fun reqIndex => ((solution.request reqIndex).toLiveRange, reqIndex)
  if requestIndices.isEmpty then some { maxSize := 0, memUsage := 0, maxLoad := 0 }
  else do
    let state ← requestIndices.foldlM (verifyRequest getContaining intervals solution) {}
    if state.maxLoad > 0 ∧ state.maxLoad ≤ state.memUsage then
      some { maxSize := state.maxSize, memUsage := state.memUsage, maxLoad := state.maxLoad }
    else none

/-- A request belongs to the one variable it names, and domains are sets. -/
structure Problem.Parented (problem : Problem) : Prop where
  sets : ∀ var ∈ problem.vars, ∀ placement, (var.domain placement).Nodup
  parent : ∀ varIndex < problem.vars.length, ∀ placement,
    ∀ reqIndex ∈ (problem.var varIndex).domain placement, (problem.request reqIndex).varIndex = varIndex

theorem Problem.Parented.enabled_nodup {problem : Problem} (parented : problem.Parented) :
    problem.enabled.Nodup := by
  have enabledBy (var : Variable) (reqIndex : Nat) :
      reqIndex ∈ (if var.placement = .na then [] else var.domain var.placement) →
        reqIndex ∈ var.domain var.placement := by
    intro member
    split at member
    · simp at member
    · exact member
  refine List.nodup_flatMap.mpr ⟨fun var member => ?_, ?_⟩
  · split
    · exact List.nodup_nil
    · exact parented.sets var member var.placement
  · rw [List.pairwise_iff_getElem]
    intro left right leftIn rightIn before reqIndex leftMember rightMember
    have atIndex (varIndex : Nat) (inside : varIndex < problem.vars.length) :
        problem.var varIndex = problem.vars[varIndex] := by
      simp [Problem.var, inside]
    have leftParent := parented.parent left leftIn problem.vars[left].placement reqIndex
      (by rw [atIndex left leftIn]; exact enabledBy _ _ leftMember)
    have rightParent := parented.parent right rightIn problem.vars[right].placement reqIndex
      (by rw [atIndex right rightIn]; exact enabledBy _ _ rightMember)
    omega

/-! `define` gives every request to the variable it is defining. -/

structure Fathered (varIndex : Nat) (old : List VarRequest) (state : List VarRequest × Variable) : Prop where
  kept : ∀ reqIndex < old.length, state.1.getD reqIndex default = old.getD reqIndex default
  grown : old.length ≤ state.1.length
  sets : ∀ placement, (state.2.domain placement).Nodup
  own : ∀ placement, ∀ reqIndex ∈ state.2.domain placement,
    reqIndex < state.1.length ∧ (state.1.getD reqIndex default).varIndex = varIndex

theorem mem_insertIndex (indices : List Nat) (reqIndex other : Nat) :
    other ∈ insertIndex indices reqIndex ↔ other ∈ indices ∨ other = reqIndex := by
  unfold insertIndex
  by_cases present : reqIndex ∈ indices
  · rw [if_pos present]
    constructor
    · exact Or.inl
    · rintro (old | rfl)
      · exact old
      · exact present
  · simp [present]

theorem insertIndex_nodup (indices : List Nat) (reqIndex : Nat) (nodup : indices.Nodup) :
    (insertIndex indices reqIndex).Nodup := by
  unfold insertIndex
  by_cases present : reqIndex ∈ indices
  · rwa [if_pos present]
  · rw [if_neg present]
    exact nodup.append (List.nodup_singleton _) (by simpa using present)

theorem insert_domain (var : Variable) (space placement : Space) (reqIndex : Nat) :
    (var.insert space reqIndex).domain placement = var.domain placement ∨
      (var.insert space reqIndex).domain placement = insertIndex (var.domain placement) reqIndex := by
  cases space <;> cases placement <;> simp [Variable.insert, Variable.domain]

theorem addRequest_fathered (varIndex : Nat) (old : List VarRequest) (state : List VarRequest × Variable)
    (entry : Request × Space) (fathered : Fathered varIndex old state) :
    Fathered varIndex old (VariableBuilder.addRequest varIndex state entry) := by
  obtain ⟨kept, grown, sets, own⟩ := fathered
  have before (reqIndex : Nat) (inside : reqIndex < state.1.length) :
      (VariableBuilder.addRequest varIndex state entry).1.getD reqIndex default =
        state.1.getD reqIndex default := by
    simp [VariableBuilder.addRequest, List.getElem?_append_left inside]
  have last : (VariableBuilder.addRequest varIndex state entry).1.getD state.1.length default =
      { entry.1 with varIndex := varIndex } := by
    simp [VariableBuilder.addRequest]
  have length : (VariableBuilder.addRequest varIndex state entry).1.length = state.1.length + 1 := by
    simp [VariableBuilder.addRequest]
  refine ⟨fun reqIndex inside => ?_, by omega, fun placement => ?_, fun placement reqIndex member => ?_⟩
  · rw [before reqIndex (inside.trans_le grown), kept reqIndex inside]
  · rcases insert_domain state.2 entry.2 placement state.1.length with same | inserted
    · simpa only [VariableBuilder.addRequest, same] using sets placement
    · simpa only [VariableBuilder.addRequest, inserted] using insertIndex_nodup _ _ (sets placement)
  · have source : reqIndex ∈ state.2.domain placement ∨ reqIndex = state.1.length := by
      rcases insert_domain state.2 entry.2 placement state.1.length with same | inserted
      · exact Or.inl (same ▸ member)
      · exact (mem_insertIndex _ _ _).mp (inserted ▸ member)
    rcases source with earlier | rfl
    · obtain ⟨inside, parent⟩ := own placement reqIndex earlier
      exact ⟨by omega, by rw [before reqIndex inside, parent]⟩
    · exact ⟨by omega, by rw [last]⟩

theorem addAll_fathered (varIndex : Nat) (old : List VarRequest) (entries : List (Request × Space))
    (state : List VarRequest × Variable) (fathered : Fathered varIndex old state) :
    Fathered varIndex old (entries.foldl (VariableBuilder.addRequest varIndex) state) := by
  induction entries generalizing state with
  | nil => exact fathered
  | cons entry rest ih => exact ih _ (addRequest_fathered varIndex old state entry fathered)

theorem parented_empty : ({} : Problem).Parented :=
  ⟨fun _ member => absurd member List.not_mem_nil, fun _ inside => absurd inside (Nat.not_lt_zero _)⟩

theorem parented_define (problem : Problem) (calls : List BuilderCall) (built : problem.Built)
    (parented : problem.Parented) : (problem.define calls).Parented := by
  obtain ⟨requests, vars, _⟩ := VariableBuilder.calls_parent calls { parent := problem }
  simp only [Problem.define, VariableBuilder.add]
  generalize calls.foldl VariableBuilder.call { parent := problem } = builder at *
  rw [requests, vars]
  have start : Fathered problem.vars.length problem.requests
      (problem.requests, { placement := builder.placement }) := by
    refine ⟨fun _ _ => rfl, le_rfl, fun placement => ?_, fun placement reqIndex member => ?_⟩
    · cases placement <;> exact List.nodup_nil
    · cases placement <;> exact absurd member List.not_mem_nil
  have added := addAll_fathered problem.vars.length problem.requests builder.requests _ start
  generalize builder.requests.foldl (VariableBuilder.addRequest problem.vars.length) _ = last at *
  refine ⟨fun var member placement => ?_, fun varIndex inside placement reqIndex member => ?_⟩
  · rcases List.mem_append.mp member with old | new
    · exact parented.sets var old placement
    · rw [List.mem_singleton.mp new]
      exact added.sets placement
  · by_cases old : varIndex < problem.vars.length
    · have same : (problem.vars ++ [last.2]).getD varIndex {} = problem.var varIndex := by
        simp [Problem.var, List.getElem?_append_left old]
      rw [Problem.var, same] at member
      have owned : reqIndex ∈ problem.slots := by
        refine List.mem_flatMap.mpr ⟨problem.vars[varIndex], List.getElem_mem old, ?_⟩
        have inVar : reqIndex ∈ (problem.vars[varIndex]).domain placement := by
          simpa [Problem.var, old] using member
        exact (Problem.domain_sublist _ placement).subset inVar
      rw [Problem.request, added.kept reqIndex (built.slots_lt reqIndex owned)]
      exact parented.parent varIndex old placement reqIndex member
    · have here : varIndex = problem.vars.length := by
        simp only [List.length_append, List.length_singleton] at inside
        omega
      subst here
      have same : (problem.vars ++ [last.2]).getD problem.vars.length {} = last.2 := by simp
      rw [Problem.var, same] at member
      exact (added.own placement reqIndex member).2

theorem parented_setOffset (problem : Problem) (reqIndex : Nat) (offset : Int) (parented : problem.Parented) :
    (problem.setOffset reqIndex offset).Parented := by
  refine ⟨parented.sets, fun varIndex inside placement index member => ?_⟩
  rw [← parented.parent varIndex inside placement index member]
  simp only [Problem.request, List.getD_eq_getElem?_getD, Problem.setOffset_requests]
  cases problem.requests[index]? with
  | none => rfl
  | some req => by_cases same : reqIndex = index <;> simp [same, VarRequest.place]

theorem foldlM_guarded {State Item : Type} (step : State → Item → Option State) (bad : Item → Prop)
    [DecidablePred bad] (next : State → Item → State)
    (steps : ∀ state item, step state item = if bad item then none else some (next state item))
    (items : List Item) (state : State) :
    items.foldlM step state = if ∃ item ∈ items, bad item then none else some (items.foldl next state) := by
  induction items generalizing state with
  | nil => simp
  | cons item rest ih =>
      rw [List.foldlM_cons, steps, List.foldl_cons]
      by_cases here : bad item
      · simp [here]
      · simp [here, ih]

theorem foldl_add_sum (sizes : List Int) (start : Int) : sizes.foldl (· + ·) start = start + sizes.sum := by
  rw [List.sum_eq_foldl]
  induction sizes generalizing start with
  | nil => simp
  | cons size rest ih =>
      rw [List.foldl_cons, ih, List.foldl_cons, ih (0 + size)]
      omega

section Run
variable (solution : Problem)

def LiveAt (time : Int) (reqIndex : Nat) : Prop :=
  (solution.request reqIndex).first ≤ time ∧ time ≤ (solution.request reqIndex).last

instance (time : Int) : DecidablePred (LiveAt solution time) := fun _ => inferInstanceAs (Decidable (_ ∧ _))

/-- Sum of the sizes of the enabled requests that are live at an instant. -/
def loadAt (time : Int) : Int :=
  ((solution.enabled.filter fun reqIndex => LiveAt solution time reqIndex).map
    fun reqIndex => (solution.request reqIndex).size).sum

def ClashesAtStart (reqIndex : Nat) : Prop :=
  ∃ other ∈ solution.enabled, LiveAt solution (solution.request reqIndex).first other ∧
    other ≠ reqIndex ∧ memOverlap (solution.request reqIndex) (solution.request other) = true

instance : DecidablePred (ClashesAtStart solution) := fun _ => inferInstanceAs (Decidable (∃ _ ∈ _, _))

theorem verifyConflicts_fold (reqIndex : Nat) (found : List Nat) (load : Int) :
    found.foldlM (verifyConflict solution reqIndex) load =
      if ∃ other ∈ found, other ≠ reqIndex ∧
          memOverlap (solution.request reqIndex) (solution.request other) = true then none
      else some (load + ((found.filter fun other => other ≠ reqIndex).map
        fun other => (solution.request other).size).sum) := by
  rw [foldlM_guarded (verifyConflict solution reqIndex)
    (fun other => other ≠ reqIndex ∧ memOverlap (solution.request reqIndex) (solution.request other) = true)
    (fun load other => if other ≠ reqIndex then load + (solution.request other).size else load)]
  · congr 2
    rw [← foldl_add_sum, List.foldl_map, List.foldl_filter]
    simp only [decide_eq_true_eq]
  · intro load other
    by_cases isOther : other ≠ reqIndex
    · by_cases overlap : memOverlap (solution.request reqIndex) (solution.request other) = true <;>
        simp [verifyConflict, isOther, overlap]
    · simp [verifyConflict, isOther]

theorem load_split (nodup : solution.enabled.Nodup) (time : Int) (reqIndex : Nat)
    (on : reqIndex ∈ solution.enabled) (live : LiveAt solution time reqIndex) :
    loadAt solution time = (solution.request reqIndex).size +
      (((solution.enabled.filter fun other => LiveAt solution time other).filter
        fun other => other ≠ reqIndex).map fun other => (solution.request other).size).sum := by
  have member : reqIndex ∈ solution.enabled.filter fun other => LiveAt solution time other :=
    List.mem_filter.mpr ⟨on, by simpa using live⟩
  have unique := nodup.filter fun other => decide (LiveAt solution time other)
  rw [loadAt, ((List.perm_cons_erase member).map _).sum_eq, List.map_cons, List.sum_cons,
    unique.erase_eq_filter]
  congr 3
  apply List.filter_congr
  intro other _
  by_cases same : other = reqIndex <;> simp [same]

theorem stabbed_perm (getContaining : Stab) (exact : getContaining.Exact) (time : Int) :
    (getContaining (solution.enabled.map fun reqIndex => ((solution.request reqIndex).toLiveRange, reqIndex))
      time).Perm (solution.enabled.filter fun reqIndex => LiveAt solution time reqIndex) := by
  refine (exact _ time).trans (List.Perm.of_eq ?_)
  rw [List.filter_map, List.map_map]
  exact List.map_id _

theorem verifyRequest_eq (getContaining : Stab) (exact : getContaining.Exact)
    (nodup : solution.enabled.Nodup) (state : VerifyState) (reqIndex : Nat)
    (on : reqIndex ∈ solution.enabled) (allocated : 0 ≤ (solution.request reqIndex).offset)
    (ordered : (solution.request reqIndex).first ≤ (solution.request reqIndex).last) :
    verifyRequest getContaining
        (solution.enabled.map fun reqIndex => ((solution.request reqIndex).toLiveRange, reqIndex))
        solution state reqIndex =
      if ClashesAtStart solution reqIndex then none
      else some
        { memUsage := max state.memUsage (solution.request reqIndex).stop
          maxLoad := max state.maxLoad (loadAt solution (solution.request reqIndex).first)
          maxSize := max state.maxSize (solution.request reqIndex).size } := by
  have found := stabbed_perm solution getContaining exact (solution.request reqIndex).first
  have clash : (∃ other ∈ getContaining
        (solution.enabled.map fun reqIndex => ((solution.request reqIndex).toLiveRange, reqIndex))
        (solution.request reqIndex).first, other ≠ reqIndex ∧
          memOverlap (solution.request reqIndex) (solution.request other) = true) ↔
      ClashesAtStart solution reqIndex := by
    simp only [found.mem_iff, List.mem_filter, decide_eq_true_eq, ClashesAtStart, and_assoc]
  have load := load_split solution nodup (solution.request reqIndex).first reqIndex on ⟨le_rfl, ordered⟩
  rw [← (((found.filter fun other => decide (other ≠ reqIndex)).map
    fun other => (solution.request other).size).sum_eq)] at load
  simp only [verifyRequest, ge_iff_le, allocated, ↓reduceIte, verifyConflicts_fold, clash, ← load]
  by_cases clashes : ClashesAtStart solution reqIndex <;> simp [clashes, Request.stop]

def gathered (state : VerifyState) (reqIndex : Nat) : VerifyState :=
  { memUsage := max state.memUsage (solution.request reqIndex).stop
    maxLoad := max state.maxLoad (loadAt solution (solution.request reqIndex).first)
    maxSize := max state.maxSize (solution.request reqIndex).size }

theorem gathered_fields (indices : List Nat) (state : VerifyState) :
    (indices.foldl (gathered solution) state).memUsage =
        (indices.map fun reqIndex => (solution.request reqIndex).stop).foldl max state.memUsage ∧
      (indices.foldl (gathered solution) state).maxLoad =
        (indices.map fun reqIndex => loadAt solution (solution.request reqIndex).first).foldl max
          state.maxLoad := by
  induction indices generalizing state with
  | nil => exact ⟨rfl, rfl⟩
  | cons reqIndex rest ih => exact ih (gathered solution state reqIndex)

variable (nodup : solution.enabled.Nodup)
  (ordered : ∀ reqIndex ∈ solution.enabled, (solution.request reqIndex).first ≤ (solution.request reqIndex).last)
  (allocated : ∀ reqIndex ∈ solution.enabled, 0 ≤ (solution.request reqIndex).offset)

include nodup ordered allocated

theorem verifyRequests_eq (getContaining : Stab) (exact : getContaining.Exact) (indices : List Nat)
    (on : ∀ reqIndex ∈ indices, reqIndex ∈ solution.enabled) (state : VerifyState) :
    indices.foldlM (verifyRequest getContaining
        (solution.enabled.map fun reqIndex => ((solution.request reqIndex).toLiveRange, reqIndex)) solution)
        state =
      if ∃ reqIndex ∈ indices, ClashesAtStart solution reqIndex then none
      else some (indices.foldl (gathered solution) state) := by
  induction indices generalizing state with
  | nil => simp
  | cons reqIndex rest ih =>
      have here := on reqIndex List.mem_cons_self
      rw [List.foldlM_cons, verifyRequest_eq solution getContaining exact nodup state reqIndex here
        (allocated reqIndex here) (ordered reqIndex here), List.foldl_cons]
      by_cases clashes : ClashesAtStart solution reqIndex
      · simp [clashes]
      · have later := ih (fun other member => on other (List.mem_cons_of_mem _ member))
          (gathered solution state reqIndex)
        simpa [clashes, gathered] using later

end Run

theorem memOverlap_iff (left right : VarRequest) :
    memOverlap left right = true ↔ ¬ Disjoint left.addresses right.addresses := by
  simp only [memOverlap, decide_eq_true_eq, Request.addresses, Set.Ico_disjoint_Ico]
  omega

/-- Two enabled requests are live at a common instant and share an address. -/
def SharesMemory (solution : Problem) : Prop :=
  ∃ left ∈ solution.enabled, ∃ right ∈ solution.enabled, left ≠ right ∧
    LiveTogether (solution.request left).toRequest (solution.request right).toRequest ∧
    ¬ Disjoint (solution.request left).addresses (solution.request right).addresses

/-- Looking at starts only misses no pair: of two ranges that meet, one holds the other's start. -/
theorem clashes_iff_sharesMemory (solution : Problem)
    (ordered : ∀ reqIndex ∈ solution.enabled,
      (solution.request reqIndex).first ≤ (solution.request reqIndex).last) :
    (∃ reqIndex ∈ solution.enabled, ClashesAtStart solution reqIndex) ↔ SharesMemory solution := by
  have meet (left right : Nat) (leftOn : left ∈ solution.enabled) (rightOn : right ∈ solution.enabled) :
      LiveTogether (solution.request left).toRequest (solution.request right).toRequest ↔
        LiveAt solution (solution.request left).first right ∨
          LiveAt solution (solution.request right).first left :=
    Intervals.meet_iff_start ((solution.request left).first, (solution.request left).last)
      ((solution.request right).first, (solution.request right).last) (ordered left leftOn)
      (ordered right rightOn)
  constructor
  · rintro ⟨reqIndex, on, other, otherOn, live, differ, overlap⟩
    exact ⟨reqIndex, on, other, otherOn, Ne.symm differ, (meet _ _ on otherOn).mpr (Or.inl live),
      (memOverlap_iff _ _).mp overlap⟩
  · rintro ⟨left, leftOn, right, rightOn, differ, together, shared⟩
    rcases (meet _ _ leftOn rightOn).mp together with live | live
    · exact ⟨left, leftOn, right, rightOn, live, Ne.symm differ, (memOverlap_iff _ _).mpr shared⟩
    · refine ⟨right, rightOn, left, leftOn, live, differ, (memOverlap_iff _ _).mpr ?_⟩
      rwa [disjoint_comm]

section Load
variable (solution : Problem)

theorem loadAt_eq_load (nodup : solution.enabled.Nodup) (time : Int) :
    loadAt solution time = Intervals.load solution.enabled.toFinset (fun reqIndex => (solution.request reqIndex).first)
      (fun reqIndex => (solution.request reqIndex).last) (fun reqIndex => (solution.request reqIndex).size) time := by
  rw [loadAt, Intervals.load, ← List.sum_toFinset _ (nodup.filter _), List.toFinset_filter]
  apply Finset.sum_congr _ fun _ _ => rfl
  ext reqIndex
  rw [Finset.mem_filter, Finset.mem_filter, decide_eq_true_iff, LiveAt]

theorem enabled_size (valid : solution.valid = true) (reqIndex : Nat) (on : reqIndex ∈ solution.enabled) :
    0 ≤ (solution.request reqIndex).size :=
  solution.valid_size valid reqIndex (solution.valid_slots valid reqIndex (solution.slots_of_enabled reqIndex on))

theorem size_le_loadAt (valid : solution.valid = true) (nodup : solution.enabled.Nodup) (reqIndex : Nat)
    (on : reqIndex ∈ solution.enabled)
    (ordered : (solution.request reqIndex).first ≤ (solution.request reqIndex).last) :
    (solution.request reqIndex).size ≤ loadAt solution (solution.request reqIndex).first := by
  rw [load_split solution nodup _ reqIndex on ⟨le_rfl, ordered⟩]
  have others : 0 ≤ (((solution.enabled.filter fun other =>
      LiveAt solution (solution.request reqIndex).first other).filter
        fun other => other ≠ reqIndex).map fun other => (solution.request other).size).sum := by
    apply List.sum_nonneg
    intro size member
    obtain ⟨other, found, rfl⟩ := List.mem_map.mp member
    exact enabled_size solution valid other (List.mem_of_mem_filter (List.mem_of_mem_filter found))
  omega

theorem loadAt_le_start (valid : solution.valid = true) (nodup : solution.enabled.Nodup) (time : Int) :
    loadAt solution time ≤ 0 ∨
      ∃ reqIndex ∈ solution.enabled, loadAt solution time ≤ loadAt solution (solution.request reqIndex).first := by
  by_cases live : ∃ reqIndex ∈ solution.enabled, LiveAt solution time reqIndex
  · right
    simp only [loadAt_eq_load solution nodup]
    obtain ⟨reqIndex, member, below⟩ := Intervals.load_le_at_start solution.enabled.toFinset
      (fun reqIndex => (solution.request reqIndex).first) (fun reqIndex => (solution.request reqIndex).last)
      (fun reqIndex => (solution.request reqIndex).size)
      (fun reqIndex member => enabled_size solution valid reqIndex (List.mem_toFinset.mp member)) time
      (by simpa only [List.mem_toFinset, LiveAt] using live)
    exact ⟨reqIndex, List.mem_toFinset.mp member, below⟩
  · left
    have none : solution.enabled.filter (fun reqIndex => LiveAt solution time reqIndex) = [] := by
      rw [List.filter_eq_nil_iff]
      intro reqIndex on isLive
      exact live ⟨reqIndex, on, by simpa using isLive⟩
    simp [loadAt, none]

theorem loadAt_le_usage (valid : solution.valid = true) (nodup : solution.enabled.Nodup)
    (allocated : ∀ reqIndex ∈ solution.enabled, 0 ≤ (solution.request reqIndex).offset)
    (apart : ¬ SharesMemory solution) (memUsage : Int) (nonneg : 0 ≤ memUsage)
    (highest : ∀ reqIndex ∈ solution.enabled, (solution.request reqIndex).stop ≤ memUsage) (time : Int) :
    loadAt solution time ≤ memUsage := by
  rw [loadAt_eq_load solution nodup, Intervals.load]
  apply Intervals.packed_sum_le _ (fun reqIndex => (solution.request reqIndex).offset) _ _ nonneg
  · intro reqIndex member
    exact enabled_size solution valid reqIndex (List.mem_toFinset.mp (Finset.mem_filter.mp member).1)
  · intro reqIndex member
    have on := List.mem_toFinset.mp (Finset.mem_filter.mp member).1
    exact ⟨allocated reqIndex on, highest reqIndex on⟩
  · intro left leftIn right rightIn differ
    obtain ⟨leftOn, leftLive⟩ := Finset.mem_filter.mp leftIn
    obtain ⟨rightOn, rightLive⟩ := Finset.mem_filter.mp rightIn
    by_contra shared
    exact apart ⟨left, List.mem_toFinset.mp leftOn, right, List.mem_toFinset.mp rightOn, differ,
      ⟨time, leftLive, rightLive⟩, shared⟩

end Load

def stabAll : Stab := fun intervals point =>
  (intervals.filter fun entry => entry.1.first ≤ point ∧ point ≤ entry.1.last).map Prod.snd

theorem stabAll_exact : stabAll.Exact := fun _ _ => List.Perm.refl _

def placedVariables : Problem := (threeVariables.setOffset 0 96).setOffset 2 0

end TtMlir.Planner