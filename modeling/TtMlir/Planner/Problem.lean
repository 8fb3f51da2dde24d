import Mathlib

/-!
Planning problems of the D2M memory planner (`PlannerImpl.h`). Sizes, offsets and times are
exact integers: the C++ types are signed, so a run is only defined while nothing overflows. Request
and variable indices are positions, hence natural numbers.
-/

namespace TtMlir.Planner

inductive Algorithm where
  | simple
  | greedy
  deriving DecidableEq, Repr

/-- `na` is the `Space::NA = end` alias for "not placed". -/
inductive Space where
  | scratch
  | spill
  | na
  deriving DecidableEq, Repr

structure LiveRange where
  first : Int := -1
  last : Int := -1
  deriving DecidableEq, Repr

structure Request extends LiveRange where
  size : Int := -1
  offset : Int := -1
  deriving DecidableEq, Repr

structure VarRequest extends Request where
  varIndex : Nat := 0
  deriving DecidableEq, Repr

instance : Inhabited VarRequest := ⟨{}⟩

def VarRequest.place (req : VarRequest) (offset : Int) : VarRequest :=
  { req with offset := offset }

/-- What the caller asked for: the request without its offset. -/
def VarRequest.demand (req : VarRequest) : VarRequest := req.place (-1)

def LiveRange.instants (range : LiveRange) : Set Int := Set.Icc range.first range.last

/-- Addresses reserved by the request, `[offset, offset + size)`. -/
def Request.addresses (request : Request) : Set Int :=
  Set.Ico request.offset (request.offset + request.size)

/-- The source indexes its two request sets by `ordinal(Space)`. -/
structure Variable where
  scratch : List Nat := []
  spill : List Nat := []
  placement : Space := .na
  deriving DecidableEq, Repr

def Variable.domain (var : Variable) : Space → List Nat
  | .scratch => var.scratch
  | .spill => var.spill
  | .na => []

def Variable.place (var : Variable) (placement : Space) : Variable :=
  { var with placement := placement }

/-- Both request sets of the variable, in the order the source walks `domain`. -/
def Variable.slots (var : Variable) : List Nat := var.scratch ++ var.spill

structure Problem where
  requests : List VarRequest := []
  vars : List Variable := []
  bound : Finset Nat := ∅
  deriving DecidableEq

namespace Problem

def request (problem : Problem) (reqIndex : Nat) : VarRequest :=
  problem.requests.getD reqIndex default

def var (problem : Problem) (varIndex : Nat) : Variable :=
  problem.vars.getD varIndex {}

def validRequest (problem : Problem) (req : VarRequest) : Bool :=
  decide (0 ≤ req.size) && decide (req.varIndex < problem.vars.length)

def validVariable (problem : Problem) (varIndex : Nat) : Bool :=
  (!decide (varIndex ∈ problem.bound) || decide ((problem.var varIndex).placement ≠ .na)) &&
    (problem.var varIndex).slots.all fun reqIndex => decide (reqIndex < problem.requests.length)

def valid (problem : Problem) : Bool :=
  problem.requests.all problem.validRequest &&
    (List.range problem.vars.length).all problem.validVariable

def setOffset (problem : Problem) (reqIndex : Nat) (offset : Int) : Problem :=
  { problem with requests := problem.requests.modify reqIndex (·.place offset) }

def setPlacement (problem : Problem) (varIndex : Nat) (placement : Space) : Problem :=
  { problem with vars := problem.vars.modify varIndex (·.place placement) }

def clearOffsets (problem : Problem) (indices : List Nat) : Problem :=
  indices.foldl (fun current reqIndex => current.setOffset reqIndex (-1)) problem

def resetVariable (placement : Space) (problem : Problem) (varIndex : Nat) : Problem :=
  let placed := if varIndex ∈ problem.bound then problem
    else problem.setPlacement varIndex placement
  placed.clearOffsets (placed.var varIndex).slots

/-- `Problem::reset`: place every unbound variable, forget every offset. -/
def reset (problem : Problem) (placement : Space) : Problem :=
  (List.range problem.vars.length).foldl (resetVariable placement) problem

def slots (problem : Problem) : List Nat := problem.vars.flatMap Variable.slots

/-- Requests of the placed variables, in the order the allocators push them. -/
def enabled (problem : Problem) : List Nat :=
  problem.vars.flatMap fun var =>
    if var.placement = .na then [] else var.domain var.placement

@[simp] theorem setPlacement_requests (problem : Problem) (varIndex : Nat) (placement : Space) :
    (problem.setPlacement varIndex placement).requests = problem.requests := rfl

@[simp] theorem setPlacement_bound (problem : Problem) (varIndex : Nat) (placement : Space) :
    (problem.setPlacement varIndex placement).bound = problem.bound := rfl

theorem setOffset_requests (problem : Problem) (reqIndex : Nat) (offset : Int) (index : Nat) :
    (problem.setOffset reqIndex offset).requests[index]? =
      problem.requests[index]?.map fun req =>
        if reqIndex = index then req.place offset else req := by
  simp only [setOffset, List.getElem?_modify]
  by_cases same : reqIndex = index <;> simp [same]

theorem setPlacement_vars (problem : Problem) (varIndex : Nat) (placement : Space) (index : Nat) :
    (problem.setPlacement varIndex placement).vars[index]? =
      problem.vars[index]?.map fun var =>
        if varIndex = index then var.place placement else var := by
  simp only [setPlacement, List.getElem?_modify]
  by_cases same : varIndex = index <;> simp [same]

@[simp] theorem clearOffsets_vars (problem : Problem) (indices : List Nat) :
    (problem.clearOffsets indices).vars = problem.vars := by
  induction indices generalizing problem with
  | nil => rfl
  | cons reqIndex rest ih => exact ih (problem.setOffset reqIndex (-1))

@[simp] theorem clearOffsets_bound (problem : Problem) (indices : List Nat) :
    (problem.clearOffsets indices).bound = problem.bound := by
  induction indices generalizing problem with
  | nil => rfl
  | cons reqIndex rest ih => exact ih (problem.setOffset reqIndex (-1))

theorem clearOffsets_requests (problem : Problem) (indices : List Nat) (index : Nat) :
    (problem.clearOffsets indices).requests[index]? =
      problem.requests[index]?.map fun req =>
        if index ∈ indices then req.demand else req := by
  induction indices generalizing problem with
  | nil => simp [clearOffsets]
  | cons reqIndex rest ih =>
      change ((problem.setOffset reqIndex (-1)).clearOffsets rest).requests[index]? = _
      rw [ih, setOffset_requests, Option.map_map]
      congr 1
      funext req
      by_cases same : reqIndex = index
      · subst same
        by_cases later : reqIndex ∈ rest <;> simp [later, VarRequest.demand, VarRequest.place]
      · by_cases later : index ∈ rest <;> simp [later, same, Ne.symm same]

@[simp] theorem place_slots (var : Variable) (placement : Space) :
    (var.place placement).slots = var.slots := rfl

theorem setPlacement_slots (problem : Problem) (varIndex : Nat) (placement : Space) (index : Nat) :
    ((problem.setPlacement varIndex placement).var index).slots = (problem.var index).slots := by
  simp only [var, List.getD_eq_getElem?_getD, setPlacement_vars]
  cases problem.vars[index]? with
  | none => rfl
  | some found => by_cases same : varIndex = index <;> simp [same]

@[simp] theorem resetVariable_bound (placement : Space) (problem : Problem) (varIndex : Nat) :
    (resetVariable placement problem varIndex).bound = problem.bound := by
  by_cases pinned : varIndex ∈ problem.bound <;> simp [resetVariable, pinned]

theorem resetVariable_vars (placement : Space) (problem : Problem) (varIndex index : Nat) :
    (resetVariable placement problem varIndex).vars[index]? =
      problem.vars[index]?.map fun var =>
        if varIndex = index ∧ index ∉ problem.bound then var.place placement else var := by
  by_cases pinned : varIndex ∈ problem.bound
  · have kept : ¬ (varIndex = index ∧ index ∉ problem.bound) := by
      rintro ⟨rfl, free⟩
      exact free pinned
    simp [resetVariable, pinned, kept]
  · have placed : (varIndex = index ∧ index ∉ problem.bound) ↔ varIndex = index :=
      ⟨And.left, fun same => ⟨same, same ▸ pinned⟩⟩
    simp [resetVariable, pinned, placed, setPlacement_vars]

theorem resetVariable_requests (placement : Space) (problem : Problem) (varIndex index : Nat) :
    (resetVariable placement problem varIndex).requests[index]? =
      problem.requests[index]?.map fun req =>
        if index ∈ (problem.var varIndex).slots then req.demand else req := by
  by_cases pinned : varIndex ∈ problem.bound <;>
    simp [resetVariable, pinned, clearOffsets_requests, setPlacement_slots]

theorem reset_first (problem : Problem) (placement : Space) (count : Nat)
    (within : count ≤ problem.vars.length) :
    let current := (List.range count).foldl (resetVariable placement) problem
    current.bound = problem.bound ∧
    (∀ index, current.vars[index]? = problem.vars[index]?.map fun var =>
      if index < count ∧ index ∉ problem.bound then var.place placement else var) ∧
    (∀ index, current.requests[index]? = problem.requests[index]?.map fun req =>
      if index ∈ (problem.vars.take count).flatMap Variable.slots then req.demand else req) := by
  induction count with
  | zero => simp
  | succ count ih =>
      obtain ⟨sameBound, varsAt, requestsAt⟩ := ih (by omega)
      rw [List.range_succ, List.foldl_append, List.foldl_cons, List.foldl_nil]
      generalize (List.range count).foldl (resetVariable placement) problem = current at *
      have here : problem.vars[count]? = some problem.vars[count] := List.getElem?_eq_getElem _
      refine ⟨by simpa using sameBound, ?_, ?_⟩
      · intro index
        rw [resetVariable_vars, varsAt, sameBound, Option.map_map]
        congr 1
        funext var
        by_cases same : count = index
        · subst same
          by_cases pinned : count ∈ problem.bound <;> simp [pinned]
        · have shifted : index < count + 1 ↔ index < count := by omega
          simp [same, shifted]
      · intro index
        have slotsHere : (current.var count).slots = problem.vars[count].slots := by
          simp [var, varsAt count, here]
        have grown : index ∈ (problem.vars.take (count + 1)).flatMap Variable.slots ↔
            index ∈ (problem.vars.take count).flatMap Variable.slots ∨
              index ∈ problem.vars[count].slots := by
          rw [List.take_add_one, here, Option.toList_some, List.flatMap_append,
            List.flatMap_singleton, List.mem_append]
        rw [resetVariable_requests, requestsAt, slotsHere, Option.map_map]
        congr 1
        funext req
        by_cases old : index ∈ (problem.vars.take count).flatMap Variable.slots <;>
          by_cases new : index ∈ problem.vars[count].slots <;>
            simp [grown, old, new, VarRequest.demand, VarRequest.place]

@[simp] theorem reset_bound (problem : Problem) (placement : Space) :
    (problem.reset placement).bound = problem.bound :=
  (reset_first problem placement _ le_rfl).1

theorem reset_vars (problem : Problem) (placement : Space) (index : Nat) :
    (problem.reset placement).vars[index]? = problem.vars[index]?.map fun var =>
      if index ∈ problem.bound then var else var.place placement := by
  rw [Problem.reset, (reset_first problem placement _ le_rfl).2.1 index]
  cases found : problem.vars[index]? with
  | none => rfl
  | some var => simp [(List.getElem?_eq_some_iff.mp found).1]

theorem reset_requests (problem : Problem) (placement : Space) (index : Nat) :
    (problem.reset placement).requests[index]? = problem.requests[index]?.map fun req =>
      if index ∈ problem.slots then req.demand else req := by
  rw [Problem.reset, (reset_first problem placement _ le_rfl).2.2 index, List.take_length]
  rfl

theorem eq_of_getElem? (left right : Problem) (bound : left.bound = right.bound)
    (vars : ∀ index : Nat, left.vars[index]? = right.vars[index]?)
    (requests : ∀ index : Nat, left.requests[index]? = right.requests[index]?) : left = right := by
  cases left
  cases right
  congr
  · exact List.ext_getElem? requests
  · exact List.ext_getElem? vars

theorem slots_congr (left right : Problem)
    (same : ∀ index : Nat, left.vars[index]?.map Variable.slots = right.vars[index]?.map Variable.slots) :
    left.slots = right.slots := by
  have mapped : left.vars.map Variable.slots = right.vars.map Variable.slots :=
    List.ext_getElem? fun index => by simpa using same index
  simp only [slots, List.flatMap_def, mapped]

@[simp] theorem slots_reset (problem : Problem) (placement : Space) :
    (problem.reset placement).slots = problem.slots := by
  apply slots_congr
  intro index
  rw [reset_vars, Option.map_map]
  congr 1
  funext var
  by_cases pinned : index ∈ problem.bound <;> simp [pinned]

theorem reset_reset (problem : Problem) (old placement : Space) :
    (problem.reset old).reset placement = problem.reset placement := by
  apply eq_of_getElem?
  · simp
  · intro index
    rw [reset_vars, reset_vars, reset_vars, Option.map_map]
    congr 1
    funext var
    by_cases pinned : index ∈ problem.bound <;> simp [pinned, Variable.place]
  · intro index
    rw [reset_requests, reset_requests, reset_requests, Option.map_map]
    congr 1
    funext req
    by_cases owned : index ∈ problem.slots <;> simp [owned, VarRequest.demand, VarRequest.place]

theorem domain_sublist (var : Variable) (placement : Space) :
    (var.domain placement).Sublist var.slots := by
  cases placement with
  | scratch => exact List.sublist_append_left _ _
  | spill => exact List.sublist_append_right _ _
  | na => exact List.nil_sublist _

theorem enabled_sublist (problem : Problem) : problem.enabled.Sublist problem.slots := by
  unfold enabled slots
  induction problem.vars with
  | nil => exact List.Sublist.slnil
  | cons var rest ih =>
      simp only [List.flatMap_cons]
      refine List.Sublist.append ?_ ih
      by_cases off : var.placement = .na
      · simp [off]
      · simpa [off] using domain_sublist var var.placement

theorem slots_of_enabled (problem : Problem) (reqIndex : Nat) (on : reqIndex ∈ problem.enabled) :
    reqIndex ∈ problem.slots :=
  problem.enabled_sublist.subset on

theorem valid_size (problem : Problem) (valid : problem.valid = true) (reqIndex : Nat)
    (inside : reqIndex < problem.requests.length) : 0 ≤ (problem.request reqIndex).size := by
  simp only [Problem.valid, Bool.and_eq_true, List.all_eq_true] at valid
  have checked := valid.1 problem.requests[reqIndex] (List.getElem_mem inside)
  simp only [validRequest, Bool.and_eq_true, decide_eq_true_eq] at checked
  simpa [request, inside] using checked.1

theorem valid_slots (problem : Problem) (valid : problem.valid = true) (reqIndex : Nat)
    (owned : reqIndex ∈ problem.slots) : reqIndex < problem.requests.length := by
  simp only [Problem.valid, Bool.and_eq_true, List.all_eq_true] at valid
  obtain ⟨var, member, inVar⟩ := List.mem_flatMap.mp owned
  obtain ⟨varIndex, inside, rfl⟩ := List.mem_iff_getElem.mp member
  have checked := valid.2 varIndex (List.mem_range.mpr inside)
  simp only [validVariable, Bool.and_eq_true, List.all_eq_true, decide_eq_true_eq] at checked
  exact checked.2 reqIndex (by simpa [Problem.var, inside] using inVar)

/-- No request serves two variables or two spaces, and only existing variables are bound. -/
structure Built (problem : Problem) : Prop where
  owned : problem.slots.Nodup
  slots_lt : ∀ reqIndex ∈ problem.slots, reqIndex < problem.requests.length
  bound_lt : ∀ varIndex ∈ problem.bound, varIndex < problem.vars.length

def Fresh (problem : Problem) : Prop := ∀ req ∈ problem.requests, req.offset = -1

theorem Built.enabled_nodup {problem : Problem} (built : problem.Built) : problem.enabled.Nodup :=
  built.owned.sublist problem.enabled_sublist

end Problem

/-! `VariableBuilder` collects requests locally and moves them into the problem
when the definition ends; only `bind` touches the problem before that. -/

inductive BuilderCall where
  | request (space : Space) (size first last : Int)
  | place (space : Space)
  | bind (space : Space)
  deriving Repr

structure VariableBuilder where
  parent : Problem
  requests : List (Request × Space) := []
  placement : Space := .na

def insertIndex (indices : List Nat) (reqIndex : Nat) : List Nat :=
  if reqIndex ∈ indices then indices else indices ++ [reqIndex]

/-- `NA` has no domain slot: the source would index past its array. -/
def Variable.insert (var : Variable) (space : Space) (reqIndex : Nat) : Variable :=
  match space with
  | .scratch => { var with scratch := insertIndex var.scratch reqIndex }
  | .spill => { var with spill := insertIndex var.spill reqIndex }
  | .na => var

namespace VariableBuilder

def call (builder : VariableBuilder) : BuilderCall → VariableBuilder
  | .request space size first last =>
      { builder with requests :=
          builder.requests ++ [({ first, last, size, offset := -1 }, space)] }
  | .place space => { builder with placement := space }
  | .bind space =>
      let varIndex := builder.parent.vars.length
      { builder with
        parent := { builder.parent with bound := insert varIndex builder.parent.bound }
        placement := space }

def addRequest (varIndex : Nat) (state : List VarRequest × Variable) (entry : Request × Space) :
    List VarRequest × Variable :=
  let reqIndex := state.1.length
  (state.1 ++ [{ entry.1 with varIndex := varIndex }], state.2.insert entry.2 reqIndex)

def add (builder : VariableBuilder) : Problem :=
  let varIndex := builder.parent.vars.length
  let added := builder.requests.foldl (addRequest varIndex)
    (builder.parent.requests, { placement := builder.placement })
  { builder.parent with requests := added.1, vars := builder.parent.vars ++ [added.2] }

end VariableBuilder

/-- `Problem::def` with the body given as the calls it makes. -/
def Problem.define (problem : Problem) (calls : List BuilderCall) : Problem :=
  (calls.foldl VariableBuilder.call { parent := problem }).add

theorem insert_slots (var : Variable) (space : Space) (reqIndex : Nat)
    (fresh : reqIndex ∉ var.slots) :
    (var.insert space reqIndex).slots.Perm (reqIndex :: var.slots) ∨
      (var.insert space reqIndex).slots = var.slots := by
  simp only [Variable.slots, List.mem_append, not_or] at fresh
  cases space with
  | scratch =>
      left
      simp only [Variable.insert, insertIndex, fresh.1, ↓reduceIte, Variable.slots,
        List.append_assoc, List.singleton_append]
      exact List.perm_middle
  | spill =>
      left
      simp only [Variable.insert, insertIndex, fresh.2, ↓reduceIte, Variable.slots,
        ← List.append_assoc]
      exact List.perm_append_singleton _ _
  | na => exact Or.inr rfl

namespace VariableBuilder

/-- While `add` runs, the new variable owns distinct requests, all of them new. -/
structure Adding (base : Nat) (state : List VarRequest × Variable) : Prop where
  nodup : state.2.slots.Nodup
  base_le : base ≤ state.1.length
  fresh : ∀ reqIndex ∈ state.2.slots, base ≤ reqIndex ∧ reqIndex < state.1.length

theorem addRequest_adding (varIndex base : Nat) (state : List VarRequest × Variable)
    (entry : Request × Space) (adding : Adding base state) :
    Adding base (addRequest varIndex state entry) := by
  obtain ⟨nodup, base_le, fresh⟩ := adding
  have isNew : state.1.length ∉ state.2.slots := fun old => by
    have := (fresh _ old).2
    omega
  have grown : (addRequest varIndex state entry).1.length = state.1.length + 1 := by
    simp [addRequest]
  rcases insert_slots state.2 entry.2 state.1.length isNew with added | same
  · refine ⟨added.nodup_iff.mpr (List.nodup_cons.mpr ⟨isNew, nodup⟩), by omega, ?_⟩
    intro reqIndex member
    rw [grown]
    rcases List.mem_cons.mp (added.mem_iff.mp member) with rfl | old
    · omega
    · have := fresh reqIndex old
      omega
  · refine ⟨by simpa [addRequest, same] using nodup, by omega, ?_⟩
    intro reqIndex member
    have := fresh reqIndex (by simpa [addRequest, same] using member)
    omega

theorem addAll_adding (varIndex base : Nat) (entries : List (Request × Space))
    (state : List VarRequest × Variable) (adding : Adding base state) :
    Adding base (entries.foldl (addRequest varIndex) state) := by
  induction entries generalizing state with
  | nil => exact adding
  | cons entry rest ih => exact ih _ (addRequest_adding varIndex base state entry adding)

theorem call_parent (builder : VariableBuilder) (call : BuilderCall) :
    (builder.call call).parent.requests = builder.parent.requests ∧
    (builder.call call).parent.vars = builder.parent.vars ∧
    (builder.call call).parent.bound ⊆ insert builder.parent.vars.length builder.parent.bound := by
  cases call with
  | request => exact ⟨rfl, rfl, Finset.subset_insert _ _⟩
  | place => exact ⟨rfl, rfl, Finset.subset_insert _ _⟩
  | bind => exact ⟨rfl, rfl, Finset.Subset.refl _⟩

theorem calls_parent (calls : List BuilderCall) (builder : VariableBuilder) :
    (calls.foldl call builder).parent.requests = builder.parent.requests ∧
    (calls.foldl call builder).parent.vars = builder.parent.vars ∧
    (calls.foldl call builder).parent.bound ⊆
      insert builder.parent.vars.length builder.parent.bound := by
  induction calls generalizing builder with
  | nil => exact ⟨rfl, rfl, Finset.subset_insert _ _⟩
  | cons first rest ih =>
      obtain ⟨requests, vars, bound⟩ := ih (builder.call first)
      obtain ⟨requestsHere, varsHere, boundHere⟩ := call_parent builder first
      refine ⟨requests.trans requestsHere, vars.trans varsHere, bound.trans ?_⟩
      rw [varsHere]
      exact Finset.insert_subset (Finset.mem_insert_self _ _) boundHere

end VariableBuilder

theorem built_empty : ({} : Problem).Built :=
  ⟨List.nodup_nil, by simp [Problem.slots], by simp⟩

theorem fresh_empty : ({} : Problem).Fresh := fun _ member => absurd member List.not_mem_nil

theorem built_define (problem : Problem) (calls : List BuilderCall) (built : problem.Built) :
    (problem.define calls).Built := by
  obtain ⟨requests, vars, bound⟩ := VariableBuilder.calls_parent calls { parent := problem }
  simp only [Problem.define, VariableBuilder.add]
  generalize calls.foldl VariableBuilder.call { parent := problem } = builder at *
  rw [requests, vars]
  have start : VariableBuilder.Adding problem.requests.length
      (problem.requests, { placement := builder.placement }) :=
    ⟨List.nodup_nil, le_rfl, by simp [Variable.slots]⟩
  have added := VariableBuilder.addAll_adding problem.vars.length _ builder.requests _ start
  generalize builder.requests.foldl (VariableBuilder.addRequest problem.vars.length) _ = last at *
  have slots : ∀ target : Problem, target.vars = problem.vars ++ [last.2] →
      target.slots = problem.slots ++ last.2.slots := by
    intro target same
    simp [Problem.slots, same]
  refine ⟨?_, ?_, ?_⟩
  · rw [slots _ rfl]
    refine List.nodup_append.mpr ⟨built.owned, added.nodup, ?_⟩
    intro old oldMember new newMember same
    have below := built.slots_lt old oldMember
    have above := (added.fresh new newMember).1
    omega
  · intro reqIndex member
    rw [slots _ rfl, List.mem_append] at member
    have grown := added.base_le
    rcases member with old | new
    · exact lt_of_lt_of_le (built.slots_lt reqIndex old) grown
    · exact (added.fresh reqIndex new).2
  · intro varIndex member
    simp only [List.length_append, List.length_singleton]
    rcases Finset.mem_insert.mp (bound member) with rfl | old
    · exact Nat.lt_succ_self _
    · exact Nat.lt_succ_of_lt (built.bound_lt varIndex old)

theorem addAll_fresh (varIndex : Nat) (entries : List (Request × Space))
    (state : List VarRequest × Variable) (unplaced : ∀ entry ∈ entries, entry.1.offset = -1)
    (fresh : ∀ req ∈ state.1, req.offset = -1) :
    ∀ req ∈ (entries.foldl (VariableBuilder.addRequest varIndex) state).1, req.offset = -1 := by
  induction entries generalizing state with
  | nil => exact fresh
  | cons entry rest ih =>
      refine ih _ (fun other member => unplaced other (List.mem_cons_of_mem _ member)) ?_
      intro req member
      rcases List.mem_append.mp member with old | new
      · exact fresh req old
      · rw [List.mem_singleton.mp new]
        exact unplaced entry List.mem_cons_self

theorem calls_unplaced (calls : List BuilderCall) (builder : VariableBuilder)
    (unplaced : ∀ entry ∈ builder.requests, entry.1.offset = -1) :
    ∀ entry ∈ (calls.foldl VariableBuilder.call builder).requests, entry.1.offset = -1 := by
  induction calls generalizing builder with
  | nil => exact unplaced
  | cons first rest ih =>
      apply ih
      cases first with
      | request space size first last =>
          intro entry member
          rcases List.mem_append.mp member with old | new
          · exact unplaced entry old
          · rw [List.mem_singleton.mp new]
      | place => exact unplaced
      | bind => exact unplaced

theorem fresh_define (problem : Problem) (calls : List BuilderCall) (fresh : problem.Fresh) :
    (problem.define calls).Fresh := by
  apply addAll_fresh _ _ _ (calls_unplaced calls { parent := problem } (by simp))
  rw [(VariableBuilder.calls_parent calls { parent := problem }).1]
  exact fresh

end TtMlir.Planner
