import Mathlib.Algebra.Order.Ring.Nat
import Mathlib.Data.Finset.Card

/-!
# Covers by finite sets

A list of parts that has as many elements as the whole covers the whole exactly when no two
of its parts overlap.
-/

namespace Vtm.Std

variable {α : Type*} [DecidableEq α]

/-- The elements of the parts. -/
def cover (parts : List (Finset α)) : Finset α := parts.foldr (· ∪ ·) ∅

@[simp] theorem cover_nil : cover ([] : List (Finset α)) = ∅ := rfl

@[simp] theorem cover_cons (part : Finset α) (parts : List (Finset α)) :
    cover (part :: parts) = part ∪ cover parts := rfl

theorem mem_cover {parts : List (Finset α)} {x : α} :
    x ∈ cover parts ↔ ∃ part ∈ parts, x ∈ part := by
  induction parts with
  | nil => simp
  | cons part parts ih => simp [ih]

theorem disjoint_cover {part : Finset α} {parts : List (Finset α)} :
    Disjoint part (cover parts) ↔ ∀ other ∈ parts, Disjoint part other := by
  induction parts with
  | nil => simp
  | cons other parts ih => simp [Finset.disjoint_union_right, ih]

theorem card_cover_le (parts : List (Finset α)) :
    (cover parts).card ≤ (parts.map Finset.card).sum := by
  induction parts with
  | nil => simp
  | cons part parts ih =>
      calc (part ∪ cover parts).card
          ≤ part.card + (cover parts).card := Finset.card_union_le part (cover parts)
        _ ≤ part.card + (parts.map Finset.card).sum := Nat.add_le_add_left ih _

/-- Nothing is counted twice exactly when no two parts overlap. -/
theorem card_cover_eq_iff {parts : List (Finset α)} :
    (cover parts).card = (parts.map Finset.card).sum ↔ parts.Pairwise Disjoint := by
  induction parts with
  | nil => simp
  | cons part parts ih =>
      rw [List.pairwise_cons, ← disjoint_cover, ← ih, ← Finset.card_union_eq_card_add_card]
      have most := card_cover_le parts
      have both := Finset.card_union_le part (cover parts)
      simp only [cover_cons, List.map_cons, List.sum_cons]
      omega

/-- Parts of a whole with as many elements cover it exactly when no two of them overlap. -/
theorem cover_eq_iff {parts : List (Finset α)} {whole : Finset α}
    (inside : ∀ part ∈ parts, part ⊆ whole) (count : (parts.map Finset.card).sum = whole.card) :
    cover parts = whole ↔ parts.Pairwise Disjoint := by
  have within : cover parts ⊆ whole := by
    intro x here
    obtain ⟨part, member, inPart⟩ := mem_cover.mp here
    exact inside part member inPart
  rw [← card_cover_eq_iff, count]
  constructor
  · intro same
    rw [same]
  · intro same
    exact Finset.eq_of_subset_of_card_le within same.ge

end Vtm.Std
