import Mathlib.Data.List.Basic

/-!
# The places of a list where a predicate holds

A search takes the first of them. A change that ends the predicate there leaves the
others as they were, so repeated searches take them one after the other.
-/

namespace Vtm.Std

variable {α : Type*}

/-- The places of a list where a predicate holds, in their order. -/
@[grind =] def places (p : α → Bool) : List α → List Nat
  | [] => []
  | a :: l => if p a then 0 :: (places p l).map (· + 1) else (places p l).map (· + 1)

theorem findIdx?_eq_head?_places (p : α → Bool) (l : List α) :
    l.findIdx? p = (places p l).head? := by
  induction l with
  | nil => rfl
  | cons a l ih =>
      rw [List.findIdx?_cons, places]
      cases p a with
      | true => rfl
      | false => simp [ih]

theorem length_places_le (p : α → Bool) (l : List α) : (places p l).length ≤ l.length := by
  induction l with
  | nil => exact Nat.le_refl 0
  | cons a l ih =>
      rw [places]
      split <;> simp <;> omega

/-- The places depend on the predicate's values only. -/
theorem places_congr {p : α → Bool} {l l' : List α} (alike : l.map p = l'.map p) :
    places p l = places p l' := by
  induction l generalizing l' with
  | nil => rw [List.map_eq_nil_iff.mp alike.symm]
  | cons a l ih =>
      cases l' with
      | nil => cases alike
      | cons a' l' =>
          obtain ⟨here, behind⟩ := List.cons_eq_cons.mp alike
          rw [places, places, here, ih behind]

/-- The predicate holds at its places. -/
theorem exists_of_mem_places {p : α → Bool} {l : List α} {i : Nat} (here : i ∈ places p l) :
    ∃ a, l[i]? = some a ∧ p a := by
  induction l generalizing i with
  | nil => cases here
  | cons a l ih =>
      rw [places] at here
      cases holds : p a with
      | true =>
          rw [holds, if_pos rfl, List.mem_cons, List.mem_map] at here
          rcases here with rfl | ⟨j, here, rfl⟩
          · exact ⟨a, rfl, holds⟩
          · simpa using ih here
      | false =>
          rw [holds, if_neg Bool.false_ne_true, List.mem_map] at here
          obtain ⟨j, here, rfl⟩ := here
          simpa using ih here

/-- A change that ends the predicate at its first place leaves the other places. -/
theorem places_modify_first {p : α → Bool} {l : List α} {i : Nat} {rest : List Nat}
    {f : α → α} (first : places p l = i :: rest) (ends : ∀ a, p (f a) = false) :
    places p (l.modify i f) = rest := by
  induction l generalizing i rest with
  | nil => cases first
  | cons a l ih =>
      rw [places] at first
      cases holds : p a with
      | true =>
          rw [holds, if_pos rfl] at first
          obtain ⟨rfl, rfl⟩ := List.cons_eq_cons.mp first
          rw [List.modify_zero_cons, places, ends, if_neg Bool.false_ne_true]
      | false =>
          rw [holds, if_neg Bool.false_ne_true, List.map_eq_cons_iff] at first
          obtain ⟨j, behind, first, rfl, rfl⟩ := first
          rw [List.modify_succ_cons, places, holds, if_neg Bool.false_ne_true, ih first]

/-- A change depends on what it does to the one element it is of. -/
theorem modify_congr {l : List α} {i : Nat} {f g : α → α}
    (alike : ∀ a, l[i]? = some a → f a = g a) : l.modify i f = l.modify i g := by
  apply List.ext_getElem?
  intro j
  by_cases same : i = j
  · subst same
    rw [List.getElem?_modify_eq, List.getElem?_modify_eq]
    cases here : l[i]? with
    | none => rfl
    | some a => exact congrArg some (alike a here)
  · rw [List.getElem?_modify_ne _ _ same, List.getElem?_modify_ne _ _ same]

end Vtm.Std
