import Mathlib

/-!
`ConstEvalHoist` and the marking of conv2d weights. A const-eval function is created once
and extended by later runs, that insert the arguments it is missing. The attributes of
arguments are kept by position; an extension moves the arguments and leaves the attributes.
-/

namespace TtMlir.Hoist

/-- An argument is told by the function that owns it and when that function got it. -/
structure BlockArgument where
  owner : Nat
  serial : Nat
  deriving DecidableEq, Repr

/-- Whether the conv2d-weight attribute is set at a position; none is set past the end. -/
structure FuncOp where
  name : Nat
  arguments : List BlockArgument
  argAttrs : List Bool
  owned : ∀ argument ∈ arguments, argument.owner = name

/-- Attributes past the new arity are dropped, and new positions have none. -/
def FuncOp.setType (function : FuncOp) (arity : Nat) : FuncOp :=
  { function with
    argAttrs := function.argAttrs.take arity ++ List.replicate (arity - function.argAttrs.length) false }

def FuncOp.setArgAttr (function : FuncOp) (index : Nat) : FuncOp :=
  { function with argAttrs := function.argAttrs.set index true }

def FuncOp.insertArgument (function : FuncOp) (index : Nat) : FuncOp :=
  { function with
    arguments := function.arguments.insertIdx index ⟨function.name, function.arguments.length⟩
    owned := fun argument member => by
      rcases List.eq_or_mem_of_mem_insertIdx member with rfl | old
      · rfl
      · exact function.owned argument old }

def FuncOp.addEntryBlock (function : FuncOp) (arity : Nat) : FuncOp :=
  { function with
    arguments := (List.range arity).map (⟨function.name, ·⟩)
    owned := by simp }

/-- The original function has name zero, and a cached op calls another one. -/
structure LoadCachedOp where
  callee : FuncOp
  inputs : List BlockArgument
  hoisted : callee.name ≠ 0

structure Module where
  original : FuncOp
  loadCachedOps : List LoadCachedOp
  created : Nat
  isOriginal : original.name = 0

/-- Parameters that ops of the subgraph use, by number, and the functions whose cached results it
uses. -/
structure ConstEvalSubgraph where
  parameters : List Nat
  loadCachedOps : List Nat
  deriving DecidableEq

def Module.lookup (m : Module) (name : Nat) : Option LoadCachedOp :=
  m.loadCachedOps.find? fun op => op.callee.name = name

/-- Also what the cached ops of the subgraph are given. -/
def ConstEvalSubgraph.inputParameters (subgraph : ConstEvalSubgraph) (m : Module) : List Nat :=
  subgraph.parameters ++
    (subgraph.loadCachedOps.filterMap m.lookup).flatMap fun op => op.inputs.filterMap m.original.arguments.idxOf?

/-- The inputs in the order of the arguments, each once. -/
def collectSubgraphBoundary (m : Module) (subgraph : ConstEvalSubgraph) : List BlockArgument :=
  (((subgraph.inputParameters m).insertionSort (· ≤ ·)).destutter (· ≠ ·)).filterMap fun number =>
    m.original.arguments[number]?

/-- The argument is looked up among those of the original function. -/
def transferConv2DWeightAttr (original newFunc : FuncOp) (inputArg : BlockArgument) (newArgIdx : Nat) : FuncOp :=
  match original.arguments.idxOf? inputArg with
  | none => newFunc
  | some originalArgIdx => if original.argAttrs.getD originalArgIdx false then newFunc.setArgAttr newArgIdx else newFunc

def transferAll (original : FuncOp) : Nat → List BlockArgument → FuncOp → FuncOp
  | _, [], newFunc => newFunc
  | index, input :: rest, newFunc =>
      transferAll original (index + 1) rest (transferConv2DWeightAttr original newFunc input index)

/-- The next old input is where it was; any other is inserted, and the argument of the const-eval
function looked up in the original. -/
def addInputs (original : FuncOp) : Nat → List BlockArgument → List BlockArgument → FuncOp → FuncOp
  | _, _, [], constEvalFunc => constEvalFunc
  | index, old :: oldRest, input :: rest, constEvalFunc =>
      if old = input then addInputs original (index + 1) oldRest rest constEvalFunc
      else
        let inserted := constEvalFunc.insertArgument index
        addInputs original (index + 1) (old :: oldRest) rest
          (transferConv2DWeightAttr original inserted (inserted.arguments.getD index ⟨inserted.name, 0⟩) index)
  | index, [], _ :: rest, constEvalFunc =>
      let inserted := constEvalFunc.insertArgument index
      addInputs original (index + 1) [] rest
        (transferConv2DWeightAttr original inserted (inserted.arguments.getD index ⟨inserted.name, 0⟩) index)

section Names

@[simp] theorem transfer_name (original newFunc : FuncOp) (inputArg : BlockArgument) (newArgIdx : Nat) :
    (transferConv2DWeightAttr original newFunc inputArg newArgIdx).name = newFunc.name := by
  unfold transferConv2DWeightAttr
  split
  · rfl
  · split <;> rfl

theorem transferAll_name (original : FuncOp) (index : Nat) (inputs : List BlockArgument) (newFunc : FuncOp) :
    (transferAll original index inputs newFunc).name = newFunc.name := by
  induction inputs generalizing index newFunc with
  | nil => rfl
  | cons input rest ih => rw [transferAll, ih, transfer_name]

theorem addInputs_name (original : FuncOp) (index : Nat) (oldInputs inputs : List BlockArgument) (function : FuncOp) :
    (addInputs original index oldInputs inputs function).name = function.name := by
  induction inputs generalizing index oldInputs function with
  | nil => cases oldInputs <;> rfl
  | cons input rest ih =>
      cases oldInputs with
      | nil => simp only [addInputs, ih, transfer_name, FuncOp.insertArgument]
      | cons old oldRest =>
          simp only [addInputs]
          split
          · exact ih ..
          · simp only [ih, transfer_name, FuncOp.insertArgument]

end Names

def createConstEvalFunction (m : Module) (subgraph : ConstEvalSubgraph) : Module :=
  let inputs := collectSubgraphBoundary m subgraph
  let empty : FuncOp := ⟨m.created + 1, [], List.replicate inputs.length false, by simp⟩
  let newFunc := (transferAll m.original 0 inputs empty).addEntryBlock inputs.length
  { m with
    loadCachedOps :=
      m.loadCachedOps ++
        [⟨newFunc, inputs, by
          have name : newFunc.name = m.created + 1 := transferAll_name m.original 0 inputs empty
          omega⟩]
    created := m.created + 1 }

/-- The first cached op's function takes in those of the others, that are erased. -/
def addToExistingConstEvalFunction (m : Module) (subgraph : ConstEvalSubgraph) (first : LoadCachedOp) : Module :=
  let inputs := collectSubgraphBoundary m subgraph
  let extended := addInputs m.original 0 first.inputs inputs (first.callee.setType inputs.length)
  { m with
    loadCachedOps :=
      (m.loadCachedOps.filter fun op => op.callee.name ∉ subgraph.loadCachedOps) ++
        [⟨extended, inputs, by
          have name : extended.name = first.callee.name := addInputs_name ..
          exact name ▸ first.hoisted⟩] }

def processSubgraph (m : Module) (subgraph : ConstEvalSubgraph) : Option Module :=
  match subgraph.loadCachedOps with
  | [] => some (createConstEvalFunction m subgraph)
  | first :: others =>
      if others.all fun name => (m.lookup name).isSome then
        (m.lookup first).map (addToExistingConstEvalFunction m subgraph)
      else none

def processSubgraphs (m : Module) (subgraphs : List ConstEvalSubgraph) : Option Module :=
  subgraphs.foldlM processSubgraph m

section Marks

def carriesWeight (original : FuncOp) (argument : BlockArgument) : Bool :=
  (original.arguments.idxOf? argument).elim false fun index => original.argAttrs.getD index false

/-- Each argument of the callee carries the attribute when the argument passed for it does. -/
def LoadCachedOp.Marked (original : FuncOp) (op : LoadCachedOp) : Prop :=
  op.callee.argAttrs = op.inputs.map (carriesWeight original)

def Module.Marked (m : Module) : Prop := ∀ op ∈ m.loadCachedOps, op.Marked m.original

theorem transfer_argAttrs (original newFunc : FuncOp) (inputArg : BlockArgument) (newArgIdx : Nat) :
    (transferConv2DWeightAttr original newFunc inputArg newArgIdx).argAttrs =
      if carriesWeight original inputArg then newFunc.argAttrs.set newArgIdx true else newFunc.argAttrs := by
  unfold transferConv2DWeightAttr carriesWeight
  cases original.arguments.idxOf? inputArg with
  | none => rfl
  | some index => exact apply_ite FuncOp.argAttrs _ _ _

theorem transferAll_argAttrs (original : FuncOp) (marked : List Bool) (inputs : List BlockArgument) (newFunc : FuncOp)
    (attrs : newFunc.argAttrs = marked ++ List.replicate inputs.length false) :
    (transferAll original marked.length inputs newFunc).argAttrs = marked ++ inputs.map (carriesWeight original) := by
  induction inputs generalizing marked newFunc with
  | nil => simpa [transferAll] using attrs
  | cons input rest ih =>
      have next : (transferConv2DWeightAttr original newFunc input marked.length).argAttrs =
          (marked ++ [carriesWeight original input]) ++ List.replicate rest.length false := by
        rw [transfer_argAttrs, attrs, List.length_cons, List.replicate_succ]
        cases carriesWeight original input <;> simp
      have grown := ih (marked ++ [carriesWeight original input]) _ next
      rw [List.length_append, List.length_singleton] at grown
      simpa [transferAll] using grown

theorem transfer_own {original : FuncOp} {function : FuncOp} {argument : BlockArgument} (index : Nat)
    (owner : argument.owner ≠ original.name) : transferConv2DWeightAttr original function argument index = function := by
  have absent : original.arguments.idxOf? argument = none := by
    rw [List.idxOf?_eq_none_iff]
    exact fun member => owner (original.owned argument member)
  rw [transferConv2DWeightAttr, absent]

theorem getD_owner (function : FuncOp) (index : Nat) :
    (function.arguments.getD index ⟨function.name, 0⟩).owner = function.name := by
  rw [List.getD_eq_getElem?_getD]
  cases found : function.arguments[index]? with
  | none => rfl
  | some argument => exact function.owned argument (List.mem_of_getElem? found)

theorem addInputs_argAttrs {original : FuncOp} (index : Nat) (oldInputs inputs : List BlockArgument) {function : FuncOp}
    (hoisted : function.name ≠ original.name) :
    (addInputs original index oldInputs inputs function).argAttrs = function.argAttrs := by
  induction inputs generalizing index oldInputs function with
  | nil => cases oldInputs <;> rfl
  | cons input rest ih =>
      have untouched (oldInputs : List BlockArgument) :
          (addInputs original (index + 1) oldInputs rest
            (transferConv2DWeightAttr original (function.insertArgument index)
              ((function.insertArgument index).arguments.getD index ⟨(function.insertArgument index).name,
                0⟩) index)).argAttrs =
            function.argAttrs := by
        rw [transfer_own index ((getD_owner (function.insertArgument index) index).trans_ne hoisted)]
        exact ih (index + 1) oldInputs hoisted
      cases oldInputs with
      | nil => exact untouched []
      | cons old oldRest =>
          simp only [addInputs]
          split
          · exact ih (index + 1) oldRest hoisted
          · exact untouched (old :: oldRest)

/-- The argument at a position carries the attribute when the one that was there did; a new one has
none. -/
def Aligned (original : FuncOp) (oldInputs inputs : List BlockArgument) : Prop :=
  ∀ index (inside : index < inputs.length),
    carriesWeight original inputs[index] = oldInputs[index]?.elim false (carriesWeight original)

theorem setType_argAttrs_iff (original function : FuncOp) (oldInputs inputs : List BlockArgument)
    (marked : function.argAttrs = oldInputs.map (carriesWeight original)) :
    (function.setType inputs.length).argAttrs = inputs.map (carriesWeight original) ↔
      Aligned original oldInputs inputs := by
  have resized (index : Nat) (inside : index < inputs.length) :
      (function.setType inputs.length).argAttrs[index]? =
        some (oldInputs[index]?.elim false (carriesWeight original)) := by
    simp only [FuncOp.setType, marked, List.length_map]
    by_cases old : index < oldInputs.length
    · rw [List.getElem?_append_left (by simp; omega)]
      simp [inside, old]
    · rw [List.getElem?_append_right (by simp; omega)]
      have position : index - min inputs.length oldInputs.length < inputs.length - oldInputs.length := by omega
      simp [position, List.getElem?_eq_none (Nat.le_of_not_lt old)]
  have arity : (function.setType inputs.length).argAttrs.length = inputs.length := by
    simp [FuncOp.setType]
    omega
  constructor
  · intro same index inside
    have position := resized index inside
    rw [same, List.getElem?_map, List.getElem?_eq_getElem inside] at position
    exact Option.some.inj position
  · intro aligned
    apply List.ext_getElem?
    intro index
    by_cases inside : index < inputs.length
    · rw [resized index inside, List.getElem?_map, List.getElem?_eq_getElem inside, ← aligned index inside]
      rfl
    · rw [List.getElem?_eq_none (by omega), List.getElem?_eq_none (by simp; omega)]

end Marks

section Runs

theorem create_marked (m : Module) (subgraph : ConstEvalSubgraph) (marked : m.Marked) :
    (createConstEvalFunction m subgraph).Marked := by
  intro op member
  rcases List.mem_append.mp member with old | new
  · exact marked op old
  · cases List.mem_singleton.mp new
    exact transferAll_argAttrs m.original [] _ _ rfl

/-- Creating is right; an extension is where no argument with the attribute moves or comes in. -/
theorem extend_marked_iff (m : Module) (subgraph : ConstEvalSubgraph) (first : LoadCachedOp) (marked : m.Marked)
    (member : first ∈ m.loadCachedOps) :
    (addToExistingConstEvalFunction m subgraph first).Marked ↔
      Aligned m.original first.inputs (collectSubgraphBoundary m subgraph) := by
  have hoisted : first.callee.name ≠ m.original.name := m.isOriginal ▸ first.hoisted
  have unset : (addInputs m.original 0 first.inputs (collectSubgraphBoundary m subgraph)
      (first.callee.setType (collectSubgraphBoundary m subgraph).length)).argAttrs =
        (first.callee.setType (collectSubgraphBoundary m subgraph).length).argAttrs :=
    addInputs_argAttrs 0 first.inputs _ hoisted
  rw [← setType_argAttrs_iff m.original first.callee _ _ (marked first member), ← unset]
  constructor
  · exact fun all => all _ (List.mem_append_right _ (List.mem_singleton_self _))
  · intro extended op included
    rcases List.mem_append.mp included with old | new
    · exact marked op (List.mem_filter.mp old).1
    · cases List.mem_singleton.mp new
      exact extended

/-- What an extension needs of the function that is extended and of the new inputs. -/
def SubgraphAligned (m : Module) (subgraph : ConstEvalSubgraph) : Prop :=
  ∀ name ∈ subgraph.loadCachedOps.head?, ∀ first ∈ m.lookup name,
    Aligned m.original first.inputs (collectSubgraphBoundary m subgraph)

theorem step_marked_iff {m next : Module} {subgraph : ConstEvalSubgraph} (step : processSubgraph m subgraph = some next)
    (marked : m.Marked) : next.Marked ↔ SubgraphAligned m subgraph := by
  unfold processSubgraph at step
  unfold SubgraphAligned
  split at step
  · rename_i empty
    cases step
    simp [empty, create_marked m subgraph marked]
  · rename_i name others calls
    split at step
    · obtain ⟨first, found, rfl⟩ := Option.map_eq_some_iff.mp step
      rw [extend_marked_iff m subgraph first marked (List.mem_of_find?_eq_some found)]
      simp [calls, found]
    · exact nomatch step

def RunAligned : Module → List ConstEvalSubgraph → Prop
  | _, [] => True
  | m, subgraph :: rest => SubgraphAligned m subgraph ∧ ∀ next ∈ processSubgraph m subgraph, RunAligned next rest

def convolution : Module where
  original := ⟨0, [⟨0, 0⟩, ⟨0, 1⟩], [false, true], by decide⟩
  loadCachedOps := []
  created := 0
  isOriginal := rfl

def hoistedOnce : Module := createConstEvalFunction convolution ⟨[1], []⟩

end Runs

end TtMlir.Hoist
