import TtMlir.Spill.Ir

/-!
What the rewrites of the pass leave alone. Spilling and resharding add
`to_memory_config` ops and hand their results to users of older values; a
change of layout touches the results of one op.
-/

namespace TtMlir.Spill

namespace Func

def Reads (func : Func) (reader producer : OpId) : Prop :=
  ∃ number, Value.result producer number ∈ (func.getOp reader).operands

/-- Every operand that is a result belongs to an op of the function. -/
def Defined (func : Func) : Prop := ∀ reader producer, func.Reads reader producer → producer < func.ops.length

section
variable (func : Func)

theorem getOp_outside (op : OpId) (outside : func.ops.length ≤ op) : func.getOp op = default := by
  rw [getOp, List.getD_eq_getElem?_getD, List.getElem?_eq_none outside]
  rfl

theorem getOp_modify (op other : OpId) (change : Operation → Operation) (body : List OpId) :
    getOp { func with ops := func.ops.modify op change, body } other =
      if other = op ∧ op < func.ops.length then change (func.getOp other) else func.getOp other := by
  simp only [getOp, List.getD_eq_getElem?_getD, List.getElem?_modify]
  cases found : func.ops[other]? with
  | none =>
      have outside : ¬ (other = op ∧ op < func.ops.length) := by
        rintro ⟨rfl, inside⟩
        exact absurd (List.getElem?_eq_none_iff.mp found) (Nat.not_le.mpr inside)
      rw [if_neg outside]
      rfl
  | some operation =>
      have inside : other < func.ops.length := (List.getElem?_eq_some_iff.mp found).1
      by_cases same : op = other
      · subst same
        simp [inside]
      · simp [same, Ne.symm same]

theorem getOp_setOperand (op other : OpId) (number : Nat) (value : Value) :
    (func.setOperand op number value).getOp other =
      if other = op then { func.getOp other with operands := (func.getOp other).operands.set number value }
      else func.getOp other := by
  refine (getOp_modify func op other _ func.body).trans ?_
  by_cases same : other = op
  · subst same
    by_cases inside : other < func.ops.length
    · simp only [inside, and_self, ↓reduceIte]
    · rw [getOp_outside func other (Nat.le_of_not_lt inside)]
      simp only [inside, and_false, ↓reduceIte]
      rfl
  · simp only [same, false_and, ↓reduceIte]

theorem getOp_setResults (op other : OpId) (results : List (Option TTNNLayout)) :
    (func.setResults op results).getOp other =
      if other = op ∧ op < func.ops.length then { func.getOp other with results } else func.getOp other :=
  getOp_modify func op other _ func.body

theorem getOp_create (layout : TTNNLayout) (input : Value) (body : List OpId) (op : OpId) :
    (func.createToMemoryConfig layout input body).getOp op =
      if op = func.ops.length then { kind := .toMemoryConfig, operands := [input], results := [some layout] }
      else func.getOp op := by
  simp only [getOp, createToMemoryConfig, List.getD_eq_getElem?_getD]
  by_cases new : op = func.ops.length
  · rw [if_pos new, new, List.getElem?_append_right (Nat.le_refl _), Nat.sub_self]
    rfl
  · rw [if_neg new]
    rcases Nat.lt_or_gt_of_ne new with old | beyond
    · rw [List.getElem?_append_left old]
    · rw [List.getElem?_append_right (by omega), List.getElem?_eq_none (by simp; omega),
        List.getElem?_eq_none (by omega)]

theorem length_create (layout : TTNNLayout) (input : Value) (body : List OpId) :
    (func.createToMemoryConfig layout input body).ops.length = func.ops.length + 1 := by
  simp only [createToMemoryConfig, List.length_append, List.length_cons, List.length_nil]

theorem length_setOperand (op : OpId) (number : Nat) (value : Value) :
    (func.setOperand op number value).ops.length = func.ops.length := List.length_modify _ _ _

theorem length_setResults (op : OpId) (results : List (Option TTNNLayout)) :
    (func.setResults op results).ops.length = func.ops.length := List.length_modify _ _ _

theorem length_replaceUses (uses : List (OpId × Nat)) (value : Value) :
    (func.replaceUses uses value).ops.length = func.ops.length := by
  induction uses generalizing func with
  | nil => rfl
  | cons use rest ih => exact (ih (func.setOperand use.1 use.2 value)).trans (length_setOperand func _ _ _)

theorem arguments_replaceUses (uses : List (OpId × Nat)) (value : Value) :
    (func.replaceUses uses value).arguments = func.arguments := by
  induction uses generalizing func with
  | nil => rfl
  | cons use rest ih => exact ih (func.setOperand use.1 use.2 value)

theorem getOp_replaceUses (uses : List (OpId × Nat)) (value : Value) (op : OpId) :
    ((func.replaceUses uses value).getOp op).kind = (func.getOp op).kind ∧
    ((func.replaceUses uses value).getOp op).results = (func.getOp op).results ∧
    ∀ number, ((func.replaceUses uses value).getOp op).operands[number]? =
      if (op, number) ∈ uses then (func.getOp op).operands[number]?.map fun _ => value
      else (func.getOp op).operands[number]? := by
  induction uses generalizing func with
  | nil => exact ⟨rfl, rfl, fun number => rfl⟩
  | cons use rest ih =>
      obtain ⟨kind, results, operands⟩ := ih (func.setOperand use.1 use.2 value)
      have first := getOp_setOperand func use.1 op use.2 value
      by_cases same : op = use.1
      · rw [if_pos same] at first
        refine ⟨kind.trans (by rw [first]), results.trans (by rw [first]), fun number => ?_⟩
        refine (operands number).trans ?_
        rw [first, List.getElem?_set]
        obtain ⟨user, place⟩ := use
        simp only [List.mem_cons, Prod.mk.injEq] at same ⊢
        by_cases listed : (op, number) ∈ rest
        · rw [if_pos listed, if_pos (Or.inr listed)]
          by_cases here : place = number
          · subst here
            rw [if_pos rfl]
            by_cases inside : place < (func.getOp op).operands.length
            · simp [inside]
            · simp [inside]
          · rw [if_neg here]
        · rw [if_neg listed]
          by_cases here : place = number
          · subst here
            rw [if_pos rfl, if_pos (Or.inl ⟨same, rfl⟩)]
            by_cases inside : place < (func.getOp op).operands.length
            · simp [inside]
            · simp [inside]
          · rw [if_neg here, if_neg (by simp [listed, Ne.symm here])]
      · rw [if_neg same] at first
        refine ⟨kind.trans (by rw [first]), results.trans (by rw [first]), fun number => ?_⟩
        refine (operands number).trans ?_
        rw [first]
        have skipped : (op, number) ≠ use := fun equal => same (by rw [← equal])
        simp only [List.mem_cons, skipped, false_or]

theorem mem_uses (value : Value) (op : OpId) (number : Nat) :
    (op, number) ∈ func.uses value ↔ (func.getOp op).operands[number]? = some value := by
  simp only [uses, List.mem_flatMap, List.mem_range, List.mem_map, List.mem_filter, decide_eq_true_eq, Prod.mk.injEq]
  constructor
  · rintro ⟨user, _, place, ⟨_, reads⟩, rfl, rfl⟩
    exact reads
  · intro reads
    have inside : number < (func.getOp op).operands.length := (List.getElem?_eq_some_iff.mp reads).1
    refine ⟨op, ?_, number, ⟨inside, reads⟩, rfl, rfl⟩
    by_contra outside
    rw [getOp_outside func op (Nat.le_of_not_lt outside)] at inside
    exact Nat.not_lt_zero _ inside

theorem producer_inside (producer : OpId) (number : Nat) (layout : TTNNLayout)
    (typed : func.getLayout (.result producer number) = some layout) : producer < func.ops.length := by
  by_contra outside
  simp only [getLayout, getOp_outside func producer (Nat.le_of_not_lt outside)] at typed
  cases typed

end

/-- The function after a rewrite: ops were added behind the old ones, and
operands were replaced by results of added ops. -/
structure Rewrites (before after : Func) : Prop where
  arguments : after.arguments = before.arguments
  grows : before.ops.length ≤ after.ops.length
  kind : ∀ op < before.ops.length, (after.getOp op).kind = (before.getOp op).kind
  tensorResults : ∀ op < before.ops.length, (after.getOp op).tensorResults = (before.getOp op).tensorResults
  operands : ∀ op < before.ops.length, ∀ value ∈ (after.getOp op).operands,
    value ∈ (before.getOp op).operands ∨ ∃ new number, value = .result new number ∧ before.ops.length ≤ new
  added : ∀ op, before.ops.length ≤ op → op < after.ops.length → (after.getOp op).kind = .toMemoryConfig
  defined : before.Defined → after.Defined

namespace Rewrites

theorem refl (func : Func) : Rewrites func func := by
  constructor
  · rfl
  · exact Nat.le_refl _
  · exact fun op _ => rfl
  · exact fun op _ => rfl
  · exact fun op _ value member => Or.inl member
  · exact fun op outside inside => absurd inside (Nat.not_lt.mpr outside)
  · exact id

theorem trans {first second third : Func} (one : Rewrites first second) (two : Rewrites second third) :
    Rewrites first third := by
  constructor
  · exact two.arguments.trans one.arguments
  · exact Nat.le_trans one.grows two.grows
  · intro op inside
    exact (two.kind op (Nat.lt_of_lt_of_le inside one.grows)).trans (one.kind op inside)
  · intro op inside
    exact (two.tensorResults op (Nat.lt_of_lt_of_le inside one.grows)).trans (one.tensorResults op inside)
  · intro op inside value member
    rcases two.operands op (Nat.lt_of_lt_of_le inside one.grows) value member with old | ⟨new, number, same, added⟩
    · exact one.operands op inside value old
    · exact Or.inr ⟨new, number, same, Nat.le_trans one.grows added⟩
  · intro op outside inside
    by_cases middle : op < second.ops.length
    · exact (two.kind op middle).trans (one.added op outside middle)
    · exact two.added op (Nat.le_of_not_lt middle) inside
  · exact fun defined => two.defined (one.defined defined)

theorem reads {before after : Func} (rewritten : Rewrites before after) (reader producer : OpId)
    (oldReader : reader < before.ops.length) (oldProducer : producer < before.ops.length)
    (reading : after.Reads reader producer) : before.Reads reader producer := by
  obtain ⟨number, member⟩ := reading
  rcases rewritten.operands reader oldReader _ member with old | ⟨new, place, same, added⟩
  · exact ⟨number, old⟩
  · cases same
    exact absurd oldProducer (Nat.not_lt.mpr added)

end Rewrites

structure Spilled (before after : Func) (victim : Value) (layout : TTNNLayout) : Prop where
  arguments : after.arguments = before.arguments
  length : after.ops.length = before.ops.length + 1
  spill : after.getOp before.ops.length =
    { kind := .toMemoryConfig, operands := [victim], results := [some layout.toDram] }
  kind : ∀ op < before.ops.length, (after.getOp op).kind = (before.getOp op).kind
  results : ∀ op < before.ops.length, (after.getOp op).results = (before.getOp op).results
  operands : ∀ op < before.ops.length, ∀ number : Nat,
    (after.getOp op).operands[number]? = (before.getOp op).operands[number]? ∨
    (before.getOp op).operands[number]? = some victim ∧
      (after.getOp op).operands[number]? = some (Value.result before.ops.length 0)

theorem create_replaceUses (func : Func) (victim : Value) (layout : TTNNLayout) (body : List OpId)
    (uses : List (OpId × Nat)) (ofVictim : ∀ use ∈ uses, use ∈ func.uses victim) :
    Spilled func ((func.createToMemoryConfig layout.toDram victim body).replaceUses uses
      (.result func.ops.length 0)) victim layout := by
  have listed (op number : Nat) (member : (op, number) ∈ uses) :
      op < func.ops.length ∧ (func.getOp op).operands[number]? = some victim := by
    have reads := (func.mem_uses victim op number).mp (ofVictim _ member)
    refine ⟨?_, reads⟩
    by_contra outside
    rw [getOp_outside func op (Nat.le_of_not_lt outside)] at reads
    cases reads
  have changed (op : OpId) := getOp_replaceUses (func.createToMemoryConfig layout.toDram victim body) uses
    (.result func.ops.length 0) op
  have created (op : OpId) := getOp_create func layout.toDram victim body op
  constructor
  · exact arguments_replaceUses _ uses _
  · rw [length_replaceUses, length_create]
  · obtain ⟨kind, results, operands⟩ := changed func.ops.length
    rw [created, if_pos rfl] at kind results
    have same : ((((func.createToMemoryConfig layout.toDram victim body).replaceUses uses
        (.result func.ops.length 0)).getOp func.ops.length).operands) = [victim] := by
      apply List.ext_getElem?
      intro number
      rw [operands, created, if_pos rfl, if_neg fun member => Nat.lt_irrefl _ (listed _ _ member).1]
    exact Operation.ext kind same results
  · intro op old
    rw [(changed op).1, created, if_neg (Nat.ne_of_lt old)]
  · intro op old
    rw [(changed op).2.1, created, if_neg (Nat.ne_of_lt old)]
  · intro op old number
    rw [(changed op).2.2, created, if_neg (Nat.ne_of_lt old)]
    by_cases member : (op, number) ∈ uses
    · have reads := (listed op number member).2
      rw [if_pos member, reads]
      exact Or.inr ⟨rfl, rfl⟩
    · rw [if_neg member]
      exact Or.inl rfl

theorem spillToDramImpl_spilled (func : Func) (producer number : Nat) (trigger : Option OpId) (layout : TTNNLayout)
    (typed : func.getLayout (.result producer number) = some layout) (inL1 : layout.hasL1BufferType = true) :
    Spilled func (func.spillToDramImpl (.result producer number) trigger) (.result producer number) layout := by
  simp only [spillToDramImpl, Value.getDefiningOp, typed, inL1, ↓reduceIte]
  cases trigger with
  | none => exact create_replaceUses func _ layout _ _ fun use member => member
  | some trigger => exact create_replaceUses func _ layout _ _ fun use member => (List.mem_filter.mp member).1

theorem spillToDramImpl_cases (func : Func) (victim : Value) (trigger : Option OpId) :
    func.spillToDramImpl victim trigger = func ∨
    ∃ producer number layout, victim = .result producer number ∧ func.getLayout victim = some layout ∧
      Spilled func (func.spillToDramImpl victim trigger) victim layout := by
  cases victim with
  | argument index => exact Or.inl rfl
  | result producer number =>
      cases typed : func.getLayout (.result producer number) with
      | none =>
          left
          simp only [spillToDramImpl, Value.getDefiningOp, typed]
      | some layout =>
          cases inL1 : layout.hasL1BufferType with
          | false =>
              left
              simp only [spillToDramImpl, Value.getDefiningOp, typed, inL1, Bool.false_eq_true, ↓reduceIte]
          | true =>
              right
              have spilled := spillToDramImpl_spilled func producer number trigger layout typed inL1
              exact ⟨producer, number, layout, rfl, rfl, spilled⟩

namespace Spilled
variable {before after : Func} {victim : Value} {layout : TTNNLayout}

section
variable (spilled : Spilled before after victim layout)
include spilled

theorem mem_operands (op : OpId) (old : op < before.ops.length)
    (value : Value) (member : value ∈ (after.getOp op).operands) :
    value ∈ (before.getOp op).operands ∨
    victim ∈ (before.getOp op).operands ∧ value = .result before.ops.length 0 := by
  obtain ⟨number, found⟩ := List.mem_iff_getElem?.mp member
  rcases spilled.operands op old number with same | ⟨reads, replaced⟩
  · exact Or.inl (List.mem_iff_getElem?.mpr ⟨number, same.symm.trans found⟩)
  · exact Or.inr ⟨List.mem_iff_getElem?.mpr ⟨number, reads⟩, (Option.some.inj (replaced.symm.trans found)).symm⟩

theorem untouched (op : OpId) (old : op < before.ops.length)
    (noUse : victim ∉ (before.getOp op).operands) : after.getOp op = before.getOp op := by
  have operands : (after.getOp op).operands = (before.getOp op).operands := by
    apply List.ext_getElem?
    intro number
    rcases spilled.operands op old number with same | ⟨reads, _⟩
    · exact same
    · exact absurd (List.mem_iff_getElem?.mpr ⟨number, reads⟩) noUse
  exact Operation.ext (spilled.kind op old) operands (spilled.results op old)

theorem outside (op : OpId) (beyond : before.ops.length < op) :
    after.getOp op = default := getOp_outside after op (by rw [spilled.length]; exact beyond)

theorem rewrites (produced : ∀ producer number, victim = .result producer number → producer < before.ops.length) :
    Rewrites before after := by
  constructor
  · exact spilled.arguments
  · rw [spilled.length]
    exact Nat.le_succ _
  · exact spilled.kind
  · intro op old
    rw [Operation.tensorResults, Operation.tensorResults, spilled.results op old]
  · intro op old value member
    rcases spilled.mem_operands op old value member with kept | ⟨_, new⟩
    · exact Or.inl kept
    · exact Or.inr ⟨_, _, new, Nat.le_refl _⟩
  · intro op notOld inside
    have new : op = before.ops.length := by
      rw [spilled.length] at inside
      omega
    rw [new, spilled.spill]
  · intro defined op producer reading
    rw [spilled.length]
    obtain ⟨number, member⟩ := reading
    rcases Nat.lt_trichotomy op before.ops.length with old | new | beyond
    · rcases spilled.mem_operands op old _ member with kept | ⟨_, new⟩
      · exact Nat.lt_succ_of_lt (defined op producer ⟨number, kept⟩)
      · cases new
        exact Nat.lt_succ_self _
    · rw [new, spilled.spill] at member
      exact Nat.lt_succ_of_lt (produced producer number (List.mem_singleton.mp member).symm)
    · rw [spilled.outside op beyond] at member
      cases member

end

end Spilled

theorem spillToDramImpl_rewrites (func : Func) (victim : Value) (trigger : Option OpId) :
    Rewrites func (func.spillToDramImpl victim trigger) := by
  rcases spillToDramImpl_cases func victim trigger with same | ⟨producer, number, layout, rfl, typed, spilled⟩
  · rw [same]
    exact Rewrites.refl func
  · refine spilled.rewrites fun other place same => ?_
    cases same
    exact func.producer_inside producer number layout typed

theorem spillToDram_readers (func : Func) (producer number : Nat) (layout : TTNNLayout)
    (typed : func.getLayout (.result producer number) = some layout) (inL1 : layout.hasL1BufferType = true)
    (op : OpId) (reads : .result producer number ∈ ((func.spillToDram (.result producer number)).getOp op).operands) :
    op = func.ops.length := by
  have inside := func.producer_inside producer number layout typed
  by_contra notSpill
  obtain ⟨place, found⟩ := List.mem_iff_getElem?.mp reads
  simp only [spillToDram, spillToDramImpl, Value.getDefiningOp, typed, inL1, ↓reduceIte] at found
  rw [(getOp_replaceUses _ _ _ op).2.2, getOp_create, if_neg notSpill] at found
  by_cases member : (op, place) ∈ func.uses (.result producer number)
  · rw [if_pos member, (func.mem_uses _ op place).mp member] at found
    cases found
    exact Nat.lt_irrefl _ inside
  · rw [if_neg member] at found
    exact member ((func.mem_uses _ op place).mpr found)

section
variable (func : Func) (consumer : OpId) (operandIdx : Nat) (layout : TTNNLayout) (spillOutput : Value)
  (operand : (func.getOp consumer).operands[operandIdx]? = some spillOutput)
  (inDram : (func.getLayout spillOutput).any (·.hasL1BufferType) = false)
include spillOutput operand inDram

theorem insertReshard_getOp (op : OpId) :
    (func.insertReshardForConsumer consumer operandIdx layout).getOp op =
      if op = consumer then
        { func.getOp op with operands := (func.getOp op).operands.set operandIdx (.result func.ops.length 0) }
      else if op = func.ops.length then
        { kind := .toMemoryConfig, operands := [spillOutput], results := [some layout] }
      else func.getOp op := by
  have inside : consumer < func.ops.length := by
    by_contra outside
    rw [getOp_outside func consumer (Nat.le_of_not_lt outside)] at operand
    cases operand
  simp only [insertReshardForConsumer, operand, inDram, Bool.false_eq_true, ↓reduceIte]
  rw [getOp_setOperand, getOp_create]
  by_cases same : op = consumer
  · subst same
    rw [if_pos rfl, if_pos rfl, if_neg (Nat.ne_of_lt inside)]
  · rw [if_neg same, if_neg same]

theorem insertReshard_length :
    (func.insertReshardForConsumer consumer operandIdx layout).ops.length = func.ops.length + 1 := by
  simp only [insertReshardForConsumer, operand, inDram, Bool.false_eq_true, ↓reduceIte]
  rw [length_setOperand, length_create]

theorem insertReshard_rewrites :
    Rewrites func (func.insertReshardForConsumer consumer operandIdx layout) := by
  have getOp := insertReshard_getOp func consumer operandIdx layout spillOutput operand inDram
  have length := insertReshard_length func consumer operandIdx layout spillOutput operand inDram
  have known : consumer < func.ops.length := by
    by_contra outside
    rw [getOp_outside func consumer (Nat.le_of_not_lt outside)] at operand
    cases operand
  constructor
  · simp only [insertReshardForConsumer, operand, inDram, Bool.false_eq_true, ↓reduceIte]
    rfl
  · rw [length]
    exact Nat.le_succ _
  · intro op old
    rw [getOp]
    by_cases same : op = consumer
    · rw [if_pos same]
    · rw [if_neg same, if_neg (Nat.ne_of_lt old)]
  · intro op old
    rw [getOp]
    by_cases same : op = consumer
    · rw [if_pos same]
      rfl
    · rw [if_neg same, if_neg (Nat.ne_of_lt old)]
  · intro op old value member
    rw [getOp] at member
    by_cases same : op = consumer
    · rw [if_pos same] at member
      rcases List.mem_or_eq_of_mem_set member with kept | new
      · exact Or.inl kept
      · exact Or.inr ⟨_, _, new, Nat.le_refl _⟩
    · rw [if_neg same, if_neg (Nat.ne_of_lt old)] at member
      exact Or.inl member
  · intro op notOld inside
    rw [length] at inside
    have new : op = func.ops.length := Nat.le_antisymm (Nat.le_of_lt_succ inside) notOld
    rw [getOp, if_neg fun same => Nat.ne_of_lt known (same.symm.trans new), if_pos new]
  · -- the reshard reads what the consumer read, the consumer reads the reshard
    intro defined op producer reading
    rw [length]
    obtain ⟨number, member⟩ := reading
    rw [getOp] at member
    by_cases same : op = consumer
    · rw [if_pos same] at member
      rcases List.mem_or_eq_of_mem_set member with kept | new
      · exact Nat.lt_succ_of_lt (defined op producer ⟨number, kept⟩)
      · cases new
        exact Nat.lt_succ_self _
    · rw [if_neg same] at member
      by_cases new : op = func.ops.length
      · rw [if_pos new] at member
        have read := List.mem_iff_getElem?.mpr ⟨operandIdx, operand⟩
        rw [← List.mem_singleton.mp member] at read
        exact Nat.lt_succ_of_lt (defined consumer producer ⟨number, read⟩)
      · rw [if_neg new] at member
        exact Nat.lt_succ_of_lt (defined op producer ⟨number, member⟩)

end

theorem tensorResults_congr (one two : Operation)
    (same : one.results.map Option.isSome = two.results.map Option.isSome) : one.tensorResults = two.tensorResults := by
  have length : one.results.length = two.results.length := by
    have lengths := congrArg List.length same
    rwa [List.length_map, List.length_map] at lengths
  have typed (number : Nat) : (one.results[number]?).join.isSome = (two.results[number]?).join.isSome := by
    have entry := congrArg (fun results => results[number]?) same
    simp only [List.getElem?_map] at entry
    cases first : one.results[number]? <;> cases second : two.results[number]? <;>
      simp_all
  simp only [Operation.tensorResults, length, typed]

theorem setResults_rewrites (func : Func) (op : OpId) (results : List (Option TTNNLayout))
    (typed : results.map Option.isSome = (func.getOp op).results.map Option.isSome) :
    Rewrites func (func.setResults op results) := by
  have same (other : OpId) : ((func.setResults op results).getOp other).kind = (func.getOp other).kind ∧
      ((func.setResults op results).getOp other).operands = (func.getOp other).operands := by
    rw [getOp_setResults]
    split <;> exact ⟨rfl, rfl⟩
  have length := length_setResults func op results
  constructor
  · rfl
  · exact Nat.le_of_eq length.symm
  · exact fun other _ => (same other).1
  · intro other _
    rw [getOp_setResults]
    split
    · rename_i relaid
      exact tensorResults_congr _ _ (relaid.1 ▸ typed)
    · rfl
  · intro other _ value member
    rw [(same other).2] at member
    exact Or.inl member
  · intro other outside inside
    rw [length] at inside
    exact absurd inside (Nat.not_lt.mpr outside)
  · intro defined other producer reading
    obtain ⟨number, member⟩ := reading
    rw [(same other).2] at member
    rw [length]
    exact defined other producer ⟨number, member⟩

theorem demoteToDram_rewrites (func : Func) (op : OpId) : Rewrites func (func.demoteToDram op) := by
  refine func.setResults_rewrites op _ ?_
  rw [List.map_map]
  congr 1
  funext result
  exact Option.isSome_map

theorem applyOutputConfig_rewrites (func : Func) (op : OpId) (layouts : List TTNNLayout) :
    Rewrites func (func.applyOutputConfig op layouts) := by
  unfold applyOutputConfig
  split
  · exact Rewrites.refl func
  · refine func.setResults_rewrites op _ ?_
    apply List.ext_getElem?
    intro number
    rw [List.getElem?_map, List.getElem?_mapIdx, List.getElem?_map, Option.map_map]
    congr 1
    funext result
    exact Option.isSome_map

theorem aliasSource_toMemoryConfig (func : Func) (op number : Nat)
    (config : (func.getOp op).kind = .toMemoryConfig) : func.aliasSource (.result op number) = none := by
  simp only [aliasSource, Value.getDefiningOp, isAliasingViewOp, config, Bool.false_eq_true, ↓reduceIte]

theorem getLayout_kept {before after : Func} (rewrites : Rewrites before after) (op : OpId)
    (results : ∀ producer, before.Reads op producer → (after.getOp producer).results = (before.getOp producer).results)
    (value : Value) (member : value ∈ (before.getOp op).operands) : after.getLayout value = before.getLayout value := by
  cases value with
  | argument index => rw [getLayout, getLayout, rewrites.arguments]
  | result producer number => rw [getLayout, getLayout, results producer ⟨number, member⟩]

theorem aliasSource_congr (before after : Func) (op number : Nat) (sameOp : after.getOp op = before.getOp op)
    (sameLayout : ∀ value ∈ (before.getOp op).operands, after.getLayout value = before.getLayout value) :
    after.aliasSource (.result op number) = before.aliasSource (.result op number) := by
  have sameInput : (before.getOp op).operands.head?.bind after.getLayout =
      (before.getOp op).operands.head?.bind before.getLayout := by
    cases first : (before.getOp op).operands.head? with
    | none => rfl
    | some value => exact sameLayout value (List.mem_of_head? first)
  simp only [aliasSource, Value.getDefiningOp, isAliasingViewOp, sameOp, sameInput]
  rfl

theorem aliasSource_kept {before after : Func} (rewrites : Rewrites before after) (op number : Nat)
    (sameOp : after.getOp op = before.getOp op)
    (results : ∀ producer, before.Reads op producer →
      (after.getOp producer).results = (before.getOp producer).results) :
    after.aliasSource (.result op number) = before.aliasSource (.result op number) :=
  aliasSource_congr before after op number sameOp fun value member =>
    getLayout_kept rewrites op results value member

end Func

end TtMlir.Spill
