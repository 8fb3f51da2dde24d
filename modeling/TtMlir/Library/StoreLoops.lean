import Mathlib.Data.List.Nodup
import TtMlir.Library.MixedRadix

/-!
Loop nests that store into a buffer: the indices a nest visits over half-open
bounds, and what a buffer holds after stores to distinct indices.
-/

namespace TtMlir.StoreLoops

open MixedRadix

def forLoop (bounds : Int × Int) : List Int :=
  (List.range (bounds.2 - bounds.1).toNat).map fun count : Nat => bounds.1 + count

def planeNest (rows cols : Int × Int) : List Int → List (List Int)
  | [] => (forLoop rows).flatMap fun row => (forLoop cols).map fun col => [row, col]
  | extent :: dims => (forLoop (0, extent)).flatMap fun place => (planeNest rows cols dims).map (place :: ·)

theorem mem_forLoop (bounds : Int × Int) (place : Int) :
    place ∈ forLoop bounds ↔ bounds.1 ≤ place ∧ place < bounds.2 := by
  simp only [forLoop, List.mem_map, List.mem_range]
  constructor
  · rintro ⟨count, below, rfl⟩
    omega
  · intro bounded
    exact ⟨(place - bounds.1).toNat, by omega, by omega⟩

theorem forLoop_nodup (bounds : Int × Int) : (forLoop bounds).Nodup :=
  List.nodup_range.map fun left right same => by simpa using same

theorem mem_planeNest (rows cols : Int × Int) (leading index : List Int) :
    index ∈ planeNest rows cols leading ↔ ∃ outer row col, index = outer ++ [row, col] ∧ Within leading outer ∧
      (rows.1 ≤ row ∧ row < rows.2) ∧ cols.1 ≤ col ∧ col < cols.2 := by
  induction leading generalizing index with
  | nil =>
      simp only [planeNest, List.mem_flatMap, List.mem_map, mem_forLoop, Within, List.forall₂_nil_right_iff]
      constructor
      · rintro ⟨row, rowBounds, col, colBounds, rfl⟩
        exact ⟨[], row, col, rfl, rfl, rowBounds, colBounds⟩
      · rintro ⟨_, row, col, rfl, rfl, rowBounds, colBounds⟩
        exact ⟨row, rowBounds, col, colBounds, rfl⟩
  | cons extent dims ih =>
      simp only [planeNest, List.mem_flatMap, List.mem_map, mem_forLoop, ih]
      constructor
      · rintro ⟨place, placeBounds, inner, ⟨outer, row, col, rfl, within, bounds⟩, rfl⟩
        exact ⟨place :: outer, row, col, rfl, List.Forall₂.cons placeBounds within, bounds⟩
      · rintro ⟨outer, row, col, rfl, within, bounds⟩
        cases within with
        | cons placeBounds rest => exact ⟨_, placeBounds, _, ⟨_, row, col, rfl, rest, bounds⟩, rfl⟩

theorem planeNest_nodup (rows cols : Int × Int) (leading : List Int) : (planeNest rows cols leading).Nodup := by
  induction leading with
  | nil =>
      rw [planeNest, List.nodup_flatMap]
      refine ⟨fun row _ => (forLoop_nodup cols).map fun left right same => by simpa using same, ?_⟩
      refine (forLoop_nodup rows).imp fun {left right} different index atLeft atRight => ?_
      obtain ⟨_, _, rfl⟩ := List.mem_map.mp atLeft
      obtain ⟨_, _, same⟩ := List.mem_map.mp atRight
      exact different (List.cons.inj same).1.symm
  | cons extent dims ih =>
      rw [planeNest, List.nodup_flatMap]
      refine ⟨fun place _ => ih.map (List.cons_injective), ?_⟩
      refine (forLoop_nodup (0, extent)).imp fun {left right} different index atLeft atRight => ?_
      obtain ⟨_, _, rfl⟩ := List.mem_map.mp atLeft
      obtain ⟨_, _, same⟩ := List.mem_map.mp atRight
      exact different (List.cons.inj same).1.symm

section Buffer
variable {Index Value : Type} [DecidableEq Index]

def storeAll (stores : List (Index × Value)) (buffer : Index → Value) : Index → Value :=
  stores.foldl (fun current store => Function.update current store.1 store.2) buffer

theorem storeAll_untouched (stores : List (Index × Value)) (buffer : Index → Value) (index : Index)
    (untouched : index ∉ stores.map Prod.fst) : storeAll stores buffer index = buffer index := by
  induction stores generalizing buffer with
  | nil => rfl
  | cons store rest ih =>
      rw [List.map_cons, List.mem_cons, not_or] at untouched
      rw [storeAll, List.foldl_cons]
      exact (ih _ untouched.2).trans (Function.update_of_ne untouched.1 _ _)

theorem storeAll_stored (stores : List (Index × Value)) (buffer : Index → Value)
    (distinct : (stores.map Prod.fst).Nodup) (index : Index) (value : Value) (stored : (index, value) ∈ stores) :
    storeAll stores buffer index = value := by
  induction stores generalizing buffer with
  | nil => cases stored
  | cons store rest ih =>
      rw [List.map_cons, List.nodup_cons] at distinct
      rw [storeAll, List.foldl_cons]
      rcases List.mem_cons.mp stored with here | later
      · subst here
        exact (storeAll_untouched rest _ index distinct.1).trans (Function.update_self _ _ _)
      · exact ih _ distinct.2 later

end Buffer

end TtMlir.StoreLoops
