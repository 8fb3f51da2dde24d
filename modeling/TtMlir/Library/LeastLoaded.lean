import Mathlib.Data.List.Basic
import Mathlib.Algebra.Order.Group.Nat

/-!
Greedy balancing: weighted items go one after the other to the bin with the
least load, the first of several. Every item ends in one bin, and no bin stays
idle when there are at least as many items as bins.
-/

namespace TtMlir

structure Bin (α : Type) where
  items : List α
  load : Nat
  deriving DecidableEq, Repr

namespace Bin
variable {α : Type}

def empty (α : Type) : Bin α := ⟨[], 0⟩

def add (bin : Bin α) (item : α × Nat) : Bin α := ⟨item.1 :: bin.items, bin.load + item.2⟩

def leastFrom (best bestLoad index : Nat) : List (Bin α) → Nat
  | [] => best
  | bin :: rest =>
    if bin.load < bestLoad then leastFrom index bin.load (index + 1) rest
    else leastFrom best bestLoad (index + 1) rest

def least : List (Bin α) → Nat
  | [] => 0
  | bin :: rest => leastFrom 0 bin.load 1 rest

def place (bins : List (Bin α)) (item : α × Nat) : List (Bin α) :=
  bins.modify (least bins) (add · item)

def distribute (count : Nat) (items : List (α × Nat)) : List (Bin α) :=
  items.foldl place (List.replicate count (empty α))

structure Lightest (bins before : List (Bin α)) (chosen : Bin α) (after : List (Bin α)) : Prop where
  split : bins = before ++ chosen :: after
  least : ∀ bin ∈ bins, chosen.load ≤ bin.load

theorem leastFrom_spec (seen : List (Bin α)) (best : Bin α) (bestIndex : Nat) (rest : List (Bin α))
    (isBest : seen[bestIndex]? = some best) (lightest : ∀ bin ∈ seen, best.load ≤ bin.load) :
    ∃ chosen, (seen ++ rest)[leastFrom bestIndex best.load seen.length rest]? = some chosen ∧
      ∀ bin ∈ seen ++ rest, chosen.load ≤ bin.load := by
  induction rest generalizing seen best bestIndex with
  | nil => exact ⟨best, by simpa [leastFrom] using isBest, by simpa using lightest⟩
  | cons bin rest ih =>
    have regroup : seen ++ bin :: rest = (seen ++ [bin]) ++ rest := by simp
    have longer : seen.length + 1 = (seen ++ [bin]).length := by simp
    simp only [leastFrom, regroup, longer]
    split
    · rename_i lighter
      refine ih (seen ++ [bin]) bin seen.length (by simp) fun other member => ?_
      rcases List.mem_append.mp member with old | new
      · exact (Nat.le_of_lt lighter).trans (lightest other old)
      · exact (List.mem_singleton.mp new).symm ▸ le_rfl
    · rename_i heavier
      have inside : bestIndex < seen.length := (List.getElem?_eq_some_iff.mp isBest).1
      refine ih (seen ++ [bin]) best bestIndex (by rw [List.getElem?_append_left inside, isBest]) fun other member => ?_
      rcases List.mem_append.mp member with old | new
      · exact lightest other old
      · rw [List.mem_singleton.mp new]
        exact not_lt.mp heavier

theorem place_spec (bins : List (Bin α)) (item : α × Nat) (nonempty : bins ≠ []) :
    ∃ before chosen after, Lightest bins before chosen after ∧
      place bins item = before ++ chosen.add item :: after := by
  obtain ⟨first, rest, rfl⟩ := List.exists_cons_of_ne_nil nonempty
  obtain ⟨chosen, found, lightest⟩ := leastFrom_spec [first] first 0 rest rfl (by simp)
  change (first :: rest)[least (first :: rest)]? = some chosen at found
  obtain ⟨inside, atIndex⟩ := List.getElem?_eq_some_iff.mp found
  have split := List.take_append_drop (least (first :: rest)) (first :: rest)
  rw [List.drop_eq_getElem_cons inside] at split
  rw [atIndex] at split
  refine ⟨_, chosen, _, ⟨split.symm, lightest⟩, ?_⟩
  rw [place, List.modify_eq_take_cons_drop inside, atIndex]

def holders [DecidableEq α] (item : α) (bins : List (Bin α)) : Nat :=
  bins.countP fun bin => decide (item ∈ bin.items)

def idle (bins : List (Bin α)) : Nat := bins.countP fun bin => decide (bin.load = 0)

theorem length_place (bins : List (Bin α)) (item : α × Nat) : (place bins item).length = bins.length := by
  simp [place]

theorem place_ne_nil (bins : List (Bin α)) (item : α × Nat) (nonempty : bins ≠ []) : place bins item ≠ [] := by
  rw [← List.length_pos_iff, length_place, List.length_pos_iff]
  exact nonempty

theorem length_distribute (count : Nat) (items : List (α × Nat)) : (distribute count items).length = count := by
  have run (bins : List (Bin α)) : (items.foldl place bins).length = bins.length := by
    induction items generalizing bins with
    | nil => rfl
    | cons item rest ih => rw [List.foldl_cons, ih, length_place]
  rw [distribute, run, List.length_replicate]

theorem forall_distribute (holds : Bin α → Prop) (count : Nat) (items : List (α × Nat)) (start : holds (empty α))
    (grows : ∀ item ∈ items, ∀ bin, holds bin → holds (bin.add item)) :
    ∀ bin ∈ distribute count items, holds bin := by
  have run (bins : List (Bin α)) (all : ∀ bin ∈ bins, holds bin) : ∀ bin ∈ items.foldl place bins, holds bin := by
    induction items generalizing bins with
    | nil => exact all
    | cons item rest ih =>
      refine ih (fun other member => grows other (List.mem_cons_of_mem _ member)) (place bins item) fun bin member => ?_
      rcases eq_or_ne bins [] with rfl | nonempty
      · simp [place] at member
      obtain ⟨before, chosen, after, lightest, placed⟩ := place_spec bins item nonempty
      rw [placed, List.mem_append, List.mem_cons] at member
      rw [lightest.split] at all
      rcases member with old | rfl | old
      · exact all bin (by simp [old])
      · exact grows item List.mem_cons_self chosen (all chosen (by simp))
      · exact all bin (by simp [old])
  refine run _ fun bin member => ?_
  rw [List.eq_of_mem_replicate member]
  exact start

theorem mem_distribute (count : Nat) (items : List (α × Nat)) (bin : Bin α) (member : bin ∈ distribute count items)
    (item : α) (held : item ∈ bin.items) : item ∈ items.map Prod.fst := by
  refine forall_distribute (fun bin => ∀ item ∈ bin.items, item ∈ items.map Prod.fst) count items (by simp [empty])
    (fun next listed bin all other held => ?_) bin member item held
  rcases List.mem_cons.mp held with rfl | old
  · exact List.mem_map_of_mem listed
  · exact all other old

theorem holds_of_load (count : Nat) (items : List (α × Nat)) (bin : Bin α) (member : bin ∈ distribute count items)
    (loaded : 0 < bin.load) : bin.items ≠ [] := by
  refine forall_distribute (fun bin => 0 < bin.load → bin.items ≠ []) count items (by simp [empty])
    (fun next _ bin _ _ => ?_) bin member loaded
  simp [add]

section Holders
variable [DecidableEq α]

theorem holders_place_self (bins : List (Bin α)) (item : α × Nat) (nonempty : bins ≠ [])
    (absent : holders item.1 bins = 0) : holders item.1 (place bins item) = 1 := by
  obtain ⟨before, chosen, after, lightest, placed⟩ := place_spec bins item nonempty
  rw [placed]
  rw [lightest.split] at absent
  simp only [holders, List.countP_append, List.countP_cons, add, List.mem_cons, true_or, decide_true, if_true] at absent ⊢
  omega

theorem holders_place_other (bins : List (Bin α)) (item : α × Nat) (other : α) (differ : other ≠ item.1) :
    holders other (place bins item) = holders other bins := by
  rcases eq_or_ne bins [] with rfl | nonempty
  · rfl
  obtain ⟨before, chosen, after, lightest, placed⟩ := place_spec bins item nonempty
  rw [placed, lightest.split]
  simp [holders, List.countP_append, List.countP_cons, add, differ]

theorem holders_run_other (items : List (α × Nat)) (bins : List (Bin α)) (other : α)
    (apart : other ∉ items.map Prod.fst) : holders other (items.foldl place bins) = holders other bins := by
  induction items generalizing bins with
  | nil => rfl
  | cons item rest ih =>
    rw [List.map_cons, List.mem_cons, not_or] at apart
    rw [List.foldl_cons, ih (place bins item) apart.2, holders_place_other bins item other apart.1]

theorem holders_distribute (count : Nat) (items : List (α × Nat)) (some : 0 < count)
    (distinct : (items.map Prod.fst).Nodup) (item : α) (listed : item ∈ items.map Prod.fst) :
    holders item (distribute count items) = 1 := by
  have run (bins : List (Bin α)) (nonempty : bins ≠ []) (fresh : ∀ other ∈ items.map Prod.fst, holders other bins = 0) :
      holders item (items.foldl place bins) = 1 := by
    induction items generalizing bins with
    | nil => simp at listed
    | cons next rest ih =>
      rw [List.map_cons, List.nodup_cons] at distinct
      rw [List.foldl_cons]
      rcases List.mem_cons.mp listed with rfl | later
      · have once := holders_place_self bins next nonempty (fresh _ (by simp))
        rw [holders_run_other rest _ next.1 distinct.1, once]
      · refine ih distinct.2 later (place bins next) (place_ne_nil bins next nonempty) fun other member => ?_
        have apart : other ≠ next.1 := fun same => distinct.1 (same ▸ member)
        rw [holders_place_other bins next other apart]
        exact fresh other (by simp [member])
  refine run _ (by simp; omega) fun other _ => ?_
  simp [holders, empty]

end Holders

theorem idle_place (bins : List (Bin α)) (item : α × Nat) (nonempty : bins ≠ []) (heavy : 0 < item.2) :
    idle (place bins item) = idle bins - 1 := by
  obtain ⟨before, chosen, after, lightest, placed⟩ := place_spec bins item nonempty
  have loaded : chosen.load + item.2 ≠ 0 := by omega
  rw [placed]
  by_cases free : chosen.load = 0
  · rw [lightest.split]
    simp [idle, List.countP_append, List.countP_cons, add, free]
    omega
  · have busy : idle bins = 0 := by
      refine List.countP_eq_zero.mpr fun bin member => ?_
      have above := lightest.least bin member
      simp
      omega
    rw [lightest.split] at busy
    rw [lightest.split, busy]
    simp only [idle, List.countP_append, List.countP_cons, add, loaded, decide_false, Bool.false_eq_true, if_false]
      at busy ⊢
    omega

theorem load_distribute (count : Nat) (items : List (α × Nat)) (enough : count ≤ items.length)
    (heavy : ∀ item ∈ items, 0 < item.2) : ∀ bin ∈ distribute count items, 0 < bin.load := by
  have run (bins : List (Bin α)) (nonempty : bins ≠ []) :
      idle (items.foldl place bins) = idle bins - items.length := by
    clear enough
    induction items generalizing bins with
    | nil => rfl
    | cons item rest ih =>
      have step := idle_place bins item nonempty (heavy item List.mem_cons_self)
      have later := ih (fun other member => heavy other (List.mem_cons_of_mem _ member)) (place bins item)
        (place_ne_nil bins item nonempty)
      rw [List.foldl_cons, List.length_cons, later, step]
      omega
  intro bin member
  have positive : 0 < count := length_distribute count items ▸ List.length_pos_of_mem member
  have initial : idle (List.replicate count (empty α)) ≤ count := by
    have bound := List.countP_le_length (p := fun bin : Bin α => decide (bin.load = 0))
        (l := List.replicate count (empty α))
    rwa [List.length_replicate] at bound
  have none : idle (distribute count items) = 0 := by
    rw [distribute, run _ (by simp; omega)]
    omega
  have busy := List.countP_eq_zero.mp none bin member
  simp only [decide_eq_true_eq] at busy
  omega

end Bin

end TtMlir
