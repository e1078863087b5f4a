import Mathlib.Data.List.Sort

/-!
# Sorting by a key

Insertion sort from the front of a list: each element goes before the first one whose key
is not smaller.
-/

namespace Vtm.Std

variable {α : Type*} (key : α → Int) (l : List α)

/-- Sorting by insertion, element by element. -/
def sortBy : List α :=
  l.foldl (fun sorted a => sorted.orderedInsert (fun a b => key a ≤ key b) a) []

theorem sortBy_eq_insertionSort :
    sortBy key l = l.reverse.insertionSort fun a b => key a ≤ key b :=
  List.foldr_reverse.symm

theorem sortBy_perm : (sortBy key l).Perm l := by
  rw [sortBy_eq_insertionSort]
  exact (List.perm_insertionSort _ _).trans l.reverse_perm

theorem sortBy_sorted : (sortBy key l).Pairwise fun a b => key a ≤ key b := by
  have total : Std.Total fun a b : α => key a ≤ key b := ⟨fun a b => le_total (key a) (key b)⟩
  have trans : IsTrans α fun a b => key a ≤ key b := ⟨fun _ _ _ first second => first.trans second⟩
  rw [sortBy_eq_insertionSort]
  exact List.pairwise_insertionSort _ _

theorem sortBy_map {β : Type*} (f : β → α) (l : List β) :
    sortBy key (l.map f) = (sortBy (fun b => key (f b)) l).map f := by
  rw [sortBy_eq_insertionSort, sortBy_eq_insertionSort, ← List.map_reverse]
  exact (List.map_insertionSort _ _ f _ fun _ _ _ _ => Iff.rfl).symm

end Vtm.Std
