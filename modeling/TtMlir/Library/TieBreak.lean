import Mathlib.Data.List.Sort

/-!
Standard-library algorithms that leave the order of equivalent elements open: draining a
`std::priority_queue` and `std::sort`. A result proved for every `TieBreak` holds however the
implementation breaks ties.
-/

namespace TtMlir

/-- `arranged` is a rearrangement of `elements` in which no element stands
before one that `later` says it must follow. -/
def Arranged {α : Type} (later : α → α → Prop) (elements arranged : List α) : Prop :=
  arranged.Perm elements ∧ arranged.Pairwise fun a b => ¬ later a b

structure TieBreak (α : Type) where
  arrange : (later : α → α → Prop) → [DecidableRel later] → List α → List α
  arranged : ∀ (later : α → α → Prop) [DecidableRel later] [IsStrictWeakOrder α later]
    (elements : List α), Arranged later elements (arrange later elements)

namespace TieBreak
variable {α : Type} (ties : TieBreak α) (less : α → α → Prop) [DecidableRel less]

/-- Pop order of a max-heap over `less` into which `elements` were pushed. -/
def drain (elements : List α) : List α := ties.arrange less elements

def sort (elements : List α) : List α := ties.arrange (Function.swap less) elements

variable [IsStrictWeakOrder α less]

theorem drain_perm (elements : List α) : (ties.drain less elements).Perm elements :=
  (ties.arranged less elements).1

theorem drain_pairwise (elements : List α) :
    (ties.drain less elements).Pairwise fun a b => ¬ less a b :=
  (ties.arranged less elements).2

theorem mem_drain (elements : List α) (a : α) : a ∈ ties.drain less elements ↔ a ∈ elements :=
  (ties.drain_perm less elements).mem_iff

theorem sort_perm (elements : List α) : (ties.sort less elements).Perm elements :=
  (ties.arranged (Function.swap less) elements).1

end TieBreak

section Stable
variable {α : Type} (later : α → α → Prop) [DecidableRel later] [order : IsStrictWeakOrder α later]

theorem not_later_trans {a b c : α} (ab : ¬ later a b) (bc : ¬ later b c) : ¬ later a c := by
  intro ac
  by_cases ba : later b a
  · exact bc (order.trans b a c ba ac)
  by_cases cb : later c b
  · exact ab (order.trans a c b ac cb)
  exact (order.incomp_trans a b c ⟨ab, ba⟩ ⟨bc, cb⟩).1 ac

theorem not_later_total (a b : α) : ¬ later a b ∨ ¬ later b a := by
  by_cases ab : later a b
  · exact Or.inr fun ba => order.irrefl a (order.trans a b a ab ba)
  · exact Or.inl ab

end Stable

def TieBreak.stable (α : Type) : TieBreak α where
  arrange later _ elements := elements.mergeSort fun a b => decide (¬ later a b)
  arranged later _ _ elements := by
    refine ⟨List.mergeSort_perm _ _, ?_⟩
    have transitive : ∀ a b c : _, decide (¬ later a b) = true →
        decide (¬ later b c) = true → decide (¬ later a c) = true := by
      intro a b c ab bc
      simp only [decide_eq_true_eq] at ab bc ⊢
      exact not_later_trans later ab bc
    have total : ∀ a b : _, (decide (¬ later a b) || decide (¬ later b a)) = true := by
      intro a b
      simp only [Bool.or_eq_true, decide_eq_true_eq]
      exact not_later_total later a b
    have sorted := List.pairwise_mergeSort transitive total elements
    exact sorted.imp fun ordered => by simpa using ordered

/-- Insertion sort is the same resolution and evaluates by recursion on the list. -/
def TieBreak.insertion (α : Type) : TieBreak α where
  arrange later _ elements := elements.insertionSort fun a b => ¬ later a b
  arranged later _ _ elements := by
    have total : Std.Total fun a b : α => ¬ later a b := ⟨not_later_total later⟩
    have transitive : IsTrans α fun a b => ¬ later a b := ⟨fun _ _ _ => not_later_trans later⟩
    exact ⟨List.perm_insertionSort _ elements, List.pairwise_insertionSort _ elements⟩

section Preferring
variable {α : Type} (prefers : α → α → Prop)

/-- Elements in the order of `later`, equivalent ones in the order of `prefers`. -/
def Refined (later : α → α → Prop) (a b : α) : Prop := ¬ later a b ∧ (¬ later b a → prefers a b)

instance (later : α → α → Prop) [DecidableRel later] [DecidableRel prefers] : DecidableRel (Refined prefers later) :=
  fun a b => inferInstanceAs (Decidable (¬ later a b ∧ (¬ later b a → prefers a b)))

theorem refined_total [Std.Total prefers] (later : α → α → Prop) [DecidableRel later] [IsStrictWeakOrder α later] :
    Std.Total (Refined prefers later) := by
  constructor
  intro a b
  by_cases ab : later a b
  · refine Or.inr ⟨fun ba => ?_, fun notLater => absurd ab notLater⟩
    rcases not_later_total later a b with notAb | notBa
    · exact notAb ab
    · exact notBa ba
  by_cases ba : later b a
  · exact Or.inl ⟨ab, fun notLater => absurd ba notLater⟩
  rcases Std.Total.total (r := prefers) a b with first | first
  · exact Or.inl ⟨ab, fun _ => first⟩
  · exact Or.inr ⟨ba, fun _ => first⟩

theorem refined_trans [IsTrans α prefers] (later : α → α → Prop) [DecidableRel later] [IsStrictWeakOrder α later] :
    IsTrans α (Refined prefers later) := by
  constructor
  intro a b c ab bc
  refine ⟨not_later_trans later ab.1 bc.1, fun ca => ?_⟩
  have ba : ¬ later b a := not_later_trans later bc.1 ca
  have cb : ¬ later c b := not_later_trans later ca ab.1
  exact IsTrans.trans a b c (ab.2 ba) (bc.2 cb)

/-- The resolution that puts preferred elements first among equivalent ones. -/
def TieBreak.preferring [DecidableRel prefers] [Std.Total prefers] [IsTrans α prefers] : TieBreak α where
  arrange later _ elements := elements.insertionSort (Refined prefers later)
  arranged later _ _ elements := by
    have total := refined_total prefers later
    have transitive := refined_trans prefers later
    exact ⟨List.perm_insertionSort _ elements,
      (List.pairwise_insertionSort (Refined prefers later) elements).imp fun refined => refined.1⟩

theorem TieBreak.preferring_sort [DecidableRel prefers] [Std.Total prefers] [IsTrans α prefers] (less : α → α → Prop)
    [DecidableRel less] [IsStrictWeakOrder α less] (elements : List α) :
    ((TieBreak.preferring prefers).sort less elements).Pairwise fun a b => ¬ less a b → prefers a b := by
  have total := refined_total prefers (Function.swap less)
  have transitive := refined_trans prefers (Function.swap less)
  exact (List.pairwise_insertionSort (Refined prefers (Function.swap less)) elements).imp fun refined => refined.2

end Preferring

end TtMlir
