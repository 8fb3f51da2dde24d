import Mathlib.Data.List.Basic

/-!
Logs of events that rebuild a state. Replaying a log from its start gives the state; snapshots
taken before marked events let a replay start later. Events are also inserted into a log, hence
the lemmas on insertion.
-/

namespace TtMlir

section Insertion
variable {α : Type}

def insertAt (values : List α) (pos : Nat) (value : α) : List α := values.take pos ++ value :: values.drop pos

theorem getElem?_insertAt (values : List α) (pos idx : Nat) (value : α) (inside : pos ≤ values.length) :
    (insertAt values pos value)[idx]? =
      if idx < pos then values[idx]? else if idx = pos then some value else values[idx - 1]? := by
  have length : (values.take pos).length = pos := List.length_take_of_le inside
  unfold insertAt
  by_cases before : idx < pos
  · rw [if_pos before, List.getElem?_append_left (by omega), List.getElem?_take, if_pos before]
  · rw [if_neg before, List.getElem?_append_right (by omega), length]
    by_cases exact : idx = pos
    · rw [if_pos exact, exact, Nat.sub_self, List.getElem?_cons_zero]
    · obtain ⟨later, shifted⟩ : ∃ later, idx = pos + later + 1 := ⟨idx - pos - 1, by omega⟩
      rw [if_neg exact, shifted, show pos + later + 1 - pos = later + 1 by omega, List.getElem?_cons_succ,
        List.getElem?_drop, Nat.add_sub_cancel]

theorem take_insertAt (values : List α) (pos idx : Nat) (value : α) (before : idx ≤ pos)
    (inside : pos ≤ values.length) : (insertAt values pos value).take idx = values.take idx := by
  unfold insertAt
  rw [List.take_append_of_le_length (by rw [List.length_take_of_le inside]; exact before), List.take_take,
    Nat.min_eq_left before]

theorem length_insertAt (values : List α) (pos : Nat) (value : α) (inside : pos ≤ values.length) :
    (insertAt values pos value).length = values.length + 1 := by
  simp only [insertAt, List.length_append, List.length_take_of_le inside, List.length_cons, List.length_drop]
  omega

end Insertion

namespace EventLog

variable {Event State : Type}

/-- Replay a log; `none` when an event cannot be replayed. -/
def replay (apply : Event → State → Option State) : List Event → State → Option State
  | [], state => some state
  | event :: rest, state => (apply event state).bind (replay apply rest)

/-- Replay that renews the snapshot before every marked event. The flag says whether the end was
reached. -/
def rebuild (apply : Event → State → Option State) (marked : Event → Bool) :
    List Event → Nat → State → (Nat → Option State) → State × (Nat → Option State) × Bool
  | [], _, state, snapshots => (state, snapshots, true)
  | event :: rest, idx, state, snapshots =>
      let snapshots := if marked event then Function.update snapshots idx (some state) else snapshots
      match apply event state with
      | some state => rebuild apply marked rest (idx + 1) state snapshots
      | none => (state, snapshots, false)

section Replay
variable (apply : Event → State → Option State)

theorem replay_append (first second : List Event) (state : State) :
    replay apply (first ++ second) state = (replay apply first state).bind (replay apply second) := by
  induction first generalizing state with
  | nil => rfl
  | cons event rest ih =>
      simp only [List.cons_append, replay]
      cases apply event state with
      | none => rfl
      | some next => exact ih next

theorem replay_singleton (event : Event) (state : State) : replay apply [event] state = apply event state := by
  simp only [replay]
  cases apply event state <;> rfl

theorem replay_congr (other : Event → State → Option State) (log : List Event) (state : State)
    (same : ∀ event ∈ log, ∀ state, other event state = apply event state) :
    replay other log state = replay apply log state := by
  induction log generalizing state with
  | nil => rfl
  | cons event rest ih =>
      simp only [replay, same event List.mem_cons_self]
      cases apply event state with
      | none => rfl
      | some next => exact ih next fun later member => same later (List.mem_cons_of_mem _ member)

theorem replay_idle (log : List Event) (state : State) (idle : ∀ event ∈ log, ∀ state, apply event state = some state) :
    replay apply log state = some state := by
  induction log generalizing state with
  | nil => rfl
  | cons event rest ih =>
      simp only [replay, idle event List.mem_cons_self]
      exact ih state fun later member => idle later (List.mem_cons_of_mem _ member)

/-- Related states stay related under a log whose events take related states to related ones. -/
theorem replay_related (related : State → State → Prop) (log : List Event) (state other : State)
    (start : related state other) (keeps : ∀ event ∈ log, ∀ state other, related state other →
      Option.Rel related (apply event state) (apply event other)) :
    Option.Rel related (replay apply log state) (replay apply log other) := by
  induction log generalizing state other with
  | nil => exact .some start
  | cons event rest ih =>
      have step := keeps event List.mem_cons_self state other start
      simp only [replay]
      cases next : apply event state <;> cases otherNext : apply event other <;> rw [next, otherNext] at step
      · exact .none
      · cases step
      · cases step
      · cases step with
        | some kept => exact ih _ _ kept fun later member => keeps later (List.mem_cons_of_mem _ member)

theorem replay_induction (invariant : State → Prop) (log : List Event) (state final : State)
    (start : invariant state) (replayed : replay apply log state = some final)
    (keeps : ∀ event ∈ log, ∀ before after, invariant before → apply event before = some after → invariant after) :
    invariant final := by
  induction log generalizing state with
  | nil =>
      cases replayed
      exact start
  | cons event rest ih =>
      simp only [replay] at replayed
      cases applied : apply event state with
      | none =>
          rw [applied] at replayed
          cases replayed
      | some next =>
          rw [applied] at replayed
          have kept := keeps event List.mem_cons_self state next start applied
          exact ih next kept replayed fun later member => keeps later (List.mem_cons_of_mem _ member)

end Replay

section Rebuild
variable (apply : Event → State → Option State) (marked : Event → Bool)

section
variable (log : List Event) (idx : Nat) (state : State) (snapshots : Nat → Option State)

theorem rebuild_state (placedAll : (rebuild apply marked log idx state snapshots).2.2 = true) :
    replay apply log state = some (rebuild apply marked log idx state snapshots).1 := by
  induction log generalizing idx state snapshots with
  | nil => rfl
  | cons event rest ih =>
      simp only [rebuild, replay] at placedAll ⊢
      cases applied : apply event state with
      | none => simp only [applied, Bool.false_eq_true] at placedAll
      | some next =>
          rw [applied] at placedAll
          exact ih (idx + 1) next _ placedAll

theorem rebuild_before (other : Nat)
    (before : other < idx) : (rebuild apply marked log idx state snapshots).2.1 other = snapshots other := by
  induction log generalizing idx state snapshots with
  | nil => rfl
  | cons event rest ih =>
      have kept (renewed : Bool) :
          (if renewed then Function.update snapshots idx (some state) else snapshots) other = snapshots other := by
        cases renewed with
        | false => rfl
        | true => exact Function.update_of_ne (by omega) _ _
      simp only [rebuild]
      cases apply event state with
      | none => exact kept _
      | some next => exact (ih (idx + 1) next _ (by omega)).trans (kept _)

theorem rebuild_start (stored : snapshots idx = some state) :
    (rebuild apply marked log idx state snapshots).2.1 idx = some state := by
  cases log with
  | nil => exact stored
  | cons event rest =>
      have kept (renewed : Bool) :
          (if renewed then Function.update snapshots idx (some state) else snapshots) idx = some state := by
        cases renewed with
        | false => exact stored
        | true => exact Function.update_self _ _ _
      simp only [rebuild]
      cases apply event state with
      | none => exact kept _
      | some next => exact (rebuild_before apply marked rest (idx + 1) next _ idx (by omega)).trans (kept _)

theorem rebuild_marked (placedAll : (rebuild apply marked log idx state snapshots).2.2 = true) (number : Nat) (event : Event)
    (found : log[number]? = some event) (mark : marked event = true) :
    ∃ before, (rebuild apply marked log idx state snapshots).2.1 (idx + number) = some before ∧
      replay apply (log.take number) state = some before := by
  induction log generalizing idx state snapshots number with
  | nil => simp only [List.getElem?_nil, reduceCtorEq] at found
  | cons first rest ih =>
      simp only [rebuild] at placedAll ⊢
      cases applied : apply first state with
      | none => simp only [applied, Bool.false_eq_true] at placedAll
      | some next =>
          rw [applied] at placedAll
          cases number with
          | zero =>
              have same : first = event := Option.some.inj found
              subst same
              have untouched := rebuild_before apply marked rest (idx + 1) next
                (if marked first then Function.update snapshots idx (some state) else snapshots) idx (by omega)
              rw [if_pos mark, Function.update_self] at untouched
              rw [if_pos mark]
              exact ⟨state, untouched, rfl⟩
          | succ number =>
              obtain ⟨before, renewed, replayed⟩ := ih (idx + 1) next _ placedAll number found
              refine ⟨before, ?_, ?_⟩
              · rw [show idx + (number + 1) = idx + 1 + number by omega]
                exact renewed
              · simp only [List.take_succ_cons, replay, applied]
                exact replayed

end

end Rebuild

section Stored

def Stored (apply : Event → State → Option State) (empty : State) (log : List Event)
    (snapshots : Nat → Option State) (idx : Nat) : Prop :=
  ∃ state, snapshots idx = some state ∧ replay apply (log.take idx) empty = some state

theorem stored_prefix (apply other : Event → State → Option State) (empty : State) (log newLog : List Event)
    (snapshots newSnapshots : Nat → Option State) (idx : Nat) (stored : Stored apply empty log snapshots idx)
    (kept : newSnapshots idx = snapshots idx) (sameLog : newLog.take idx = log.take idx)
    (sameApply : ∀ event ∈ log.take idx, ∀ state, other event state = apply event state) :
    Stored other empty newLog newSnapshots idx := by
  obtain ⟨state, snapshot, replayed⟩ := stored
  refine ⟨state, kept.trans snapshot, ?_⟩
  rw [sameLog, replay_congr apply other _ _ sameApply]
  exact replayed

variable (apply : Event → State → Option State) (marked : Event → Bool)

/-- A rebuild from a right snapshot that reaches the end gives the state of the whole log. -/
theorem rebuild_complete (empty state : State) (log : List Event) (start : Nat) (snapshots : Nat → Option State)
    (replayed : replay apply (log.take start) empty = some state)
    (placedAll : (rebuild apply marked (log.drop start) start state snapshots).2.2 = true) :
    replay apply log empty = some (rebuild apply marked (log.drop start) start state snapshots).1 ∧
      ∀ idx event, start ≤ idx → log[idx]? = some event → marked event = true →
        Stored apply empty log (rebuild apply marked (log.drop start) start state snapshots).2.1 idx := by
  constructor
  · have whole := replay_append apply (log.take start) (log.drop start) empty
    rw [List.take_append_drop, replayed] at whole
    exact whole.trans (rebuild_state apply marked _ _ _ _ placedAll)
  · intro idx event after found mark
    have inSuffix : (log.drop start)[idx - start]? = some event := by
      rw [List.getElem?_drop, Nat.add_sub_cancel' after]
      exact found
    obtain ⟨before, renewed, suffix⟩ := rebuild_marked apply marked _ _ _ _ placedAll _ event inSuffix mark
    refine ⟨before, ?_, ?_⟩
    · rw [Nat.add_sub_cancel' after] at renewed
      exact renewed
    · have split : log.take idx = log.take start ++ (log.drop start).take (idx - start) := by
        rw [← List.take_add, Nat.add_sub_cancel' after]
      rw [split, replay_append, replayed]
      exact suffix

end Stored

end EventLog

end TtMlir
