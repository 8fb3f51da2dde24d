import Mathlib.Data.List.Forall2

/-!
Lists computed entry by entry by a function that may fail.
-/

namespace TtMlir

section Option
variable {α β : Type} (f : α → Option β)

theorem mapM_eq_some (keys : List α) (values : List β) :
    keys.mapM f = some values ↔ List.Forall₂ (fun key value => f key = some value) keys values := by
  induction keys generalizing values with
  | nil =>
      constructor
      · intro same
        cases same
        exact .nil
      · intro each
        cases each
        rfl
  | cons key keys ih =>
      rw [List.mapM_cons]
      constructor
      · intro same
        obtain ⟨value, first, same⟩ := Option.bind_eq_some_iff.mp same
        obtain ⟨others, rest, same⟩ := Option.bind_eq_some_iff.mp same
        cases same
        exact .cons first ((ih others).mp rest)
      · intro each
        cases each with
        | cons first rest =>
            rw [first, (ih _).mpr rest]
            rfl

theorem mapM_total (elements : List α) (defined : ∀ element ∈ elements, ∃ result, f element = some result) :
    ∃ results, elements.mapM f = some results := by
  induction elements with
  | nil => exact ⟨[], rfl⟩
  | cons element rest ih =>
      obtain ⟨result, here⟩ := defined element List.mem_cons_self
      obtain ⟨results, there⟩ := ih fun other member => defined other (List.mem_cons_of_mem _ member)
      exact ⟨result :: results, by simp [here, there]⟩

theorem mapM_range {f : Nat → Option β} {bound : Nat} {values : List β}
    (each : (List.range bound).mapM f = some values) :
    values.length = bound ∧ ∀ i < bound, values[i]? = f i := by
  rw [mapM_eq_some, List.forall₂_iff_get] at each
  simp only [List.length_range, List.get_eq_getElem, List.getElem_range] at each
  obtain ⟨length, each⟩ := each
  refine ⟨length.symm, fun i below => ?_⟩
  have inside : i < values.length := length ▸ below
  rw [List.getElem?_eq_getElem inside]
  exact (each i below inside).symm

end Option

section Except
variable {ε α β : Type} (f : α → Except ε β)

theorem bind_eq_ok {computed : Except ε α} {result : β} :
    computed >>= f = .ok result ↔ ∃ value, computed = .ok value ∧ f value = .ok result := by
  cases computed with
  | error failure => simp [bind, Except.bind]
  | ok value => simp [bind, Except.bind]

theorem mapM_cons_ok (key : α) (keys : List α) (values : List β) :
    (key :: keys).mapM f = .ok values ↔
      ∃ value others, f key = .ok value ∧ keys.mapM f = .ok others ∧ values = value :: others := by
  rw [List.mapM_cons]
  cases first : f key with
  | error failure => simp [bind, Except.bind]
  | ok value =>
    cases rest : keys.mapM f with
    | error failure => simp [bind, Except.bind]
    | ok others => simp [bind, Except.bind, pure, Except.pure, eq_comm]

theorem mapM_eq_ok (keys : List α) (values : List β) :
    keys.mapM f = .ok values ↔ List.Forall₂ (fun key value => f key = .ok value) keys values := by
  induction keys generalizing values with
  | nil =>
      constructor
      · intro same
        cases same
        exact .nil
      · intro each
        cases each
        rfl
  | cons key keys ih =>
      rw [mapM_cons_ok]
      constructor
      · rintro ⟨value, others, first, rest, rfl⟩
        exact .cons first ((ih others).mp rest)
      · intro each
        cases each with
        | cons first rest => exact ⟨_, _, first, (ih _).mpr rest, rfl⟩

theorem mapM_eq_error (keys : List α) (failure : ε) :
    keys.mapM f = .error failure ↔ ∃ before key after, keys = before ++ key :: after ∧
      f key = .error failure ∧ ∀ other ∈ before, ∃ value, f other = .ok value := by
  induction keys with
  | nil =>
      constructor
      · intro same
        cases same
      · rintro ⟨before, key, after, split, -⟩
        simp at split
  | cons key keys ih =>
      rw [List.mapM_cons]
      cases first : f key with
      | error reason =>
        constructor
        · intro same
          cases same
          exact ⟨[], key, keys, rfl, first, by simp⟩
        · rintro ⟨before, other, after, split, failed, passed⟩
          cases before with
          | nil =>
            cases split
            rw [first] at failed
            cases failed
            rfl
          | cons head before =>
            cases split
            obtain ⟨value, ok⟩ := passed _ List.mem_cons_self
            rw [first] at ok
            cases ok
      | ok value =>
        have later : ((do
            let others ← keys.mapM f
            pure (value :: others)) = Except.error failure) ↔ keys.mapM f = .error failure := by
          cases rest : keys.mapM f with
          | error reason => simp [bind, Except.bind]
          | ok others => simp [bind, Except.bind, pure, Except.pure]
        refine later.trans (ih.trans ?_)
        constructor
        · rintro ⟨before, other, after, rfl, failed, passed⟩
          refine ⟨key :: before, other, after, rfl, failed, fun member inBefore => ?_⟩
          rcases List.mem_cons.mp inBefore with rfl | old
          · exact ⟨value, first⟩
          · exact passed member old
        · rintro ⟨before, other, after, split, failed, passed⟩
          cases before with
          | nil =>
            cases split
            rw [first] at failed
            cases failed
          | cons head before =>
            cases split
            exact ⟨before, other, after, rfl, failed,
              fun member inBefore => passed member (List.mem_cons_of_mem _ inBefore)⟩

end Except

end TtMlir
