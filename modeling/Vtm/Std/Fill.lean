import Mathlib.Data.List.Infix

/-!
# Filling a list up from another one

`fill` appends the elements of a source that a test admits, until as many as needed were
appended. The test sees the list as it is at that point.
-/

namespace Vtm.Std

/-- Append admitted elements of `source` to `dest`, at most `need` of them. -/
@[grind =] def fill {α : Type} (admits : List α → α → Bool) : List α → List α → Nat → List α
  | [], dest, _ => dest
  | _ :: _, dest, 0 => dest
  | e :: rest, dest, need + 1 =>
      if admits dest e then fill admits rest (dest ++ [e]) need else fill admits rest dest (need + 1)

section

variable {α : Type} {admits : List α → α → Bool}

theorem fill_zero (source dest : List α) : fill admits source dest 0 = dest := by
  cases source <;> rfl

/-- What is there stays in front. -/
theorem fill_prefix (source dest : List α) (need : Nat) : dest <+: fill admits source dest need := by
  induction source generalizing dest need with
  | nil => exact List.prefix_refl dest
  | cons e rest ih =>
      cases need with
      | zero => exact List.prefix_refl dest
      | succ need =>
          rw [fill]
          split
          · exact (List.prefix_append dest [e]).trans (ih (dest ++ [e]) need)
          · exact ih dest (need + 1)

theorem mem_fill {source dest : List α} {need : Nat} {e : α}
    (member : e ∈ fill admits source dest need) : e ∈ dest ∨ e ∈ source := by
  induction source generalizing dest need with
  | nil => exact Or.inl member
  | cons first rest ih =>
      cases need with
      | zero => exact Or.inl member
      | succ need =>
          rw [fill] at member
          split at member
          · rcases ih member with before | later
            · rcases List.mem_append.mp before with old | new
              · exact Or.inl old
              · exact Or.inr (List.mem_cons.mpr (Or.inl (List.mem_singleton.mp new)))
            · exact Or.inr (List.mem_cons_of_mem first later)
          · exact (ih member).imp id (List.mem_cons_of_mem first)

/-- An appended element was admitted by the list in front of it. -/
theorem admits_of_fill {source dest : List α} {need : Nat} {front behind : List α} {e : α}
    (split : fill admits source dest need = front ++ e :: behind)
    (new : dest.length ≤ front.length) : admits front e = true := by
  induction source generalizing dest need with
  | nil =>
      rw [fill] at split
      have lengths := congrArg List.length split
      simp only [List.length_append, List.length_cons] at lengths
      omega
  | cons first rest ih =>
      cases need with
      | zero =>
          rw [fill_zero] at split
          have lengths := congrArg List.length split
          simp only [List.length_append, List.length_cons] at lengths
          omega
      | succ need =>
          rw [fill] at split
          split at split
          · rename_i admitted
            by_cases here : dest.length = front.length
            · -- the element right behind the old list is the first one
              have kept : dest ++ [first] <+: fill admits rest (dest ++ [first]) need :=
                fill_prefix rest (dest ++ [first]) need
              rw [split] at kept
              obtain ⟨more, joined⟩ := kept
              rw [List.append_assoc] at joined
              obtain ⟨rfl, tails⟩ := List.append_inj joined here
              cases tails
              exact admitted
            · refine ih split ?_
              simp only [List.length_append, List.length_cons, List.length_nil]
              omega
          · exact ih split new

/-- If elements are missing at the end, each element of the source was appended or refused. -/
theorem mem_or_refused {source dest : List α} {need : Nat}
    (short : (fill admits source dest need).length < dest.length + need) {e : α}
    (member : e ∈ source) :
    e ∈ fill admits source dest need ∨
      ∃ front, dest <+: front ∧ front <+: fill admits source dest need ∧ admits front e = false := by
  induction source generalizing dest need with
  | nil => cases member
  | cons first rest ih =>
      cases need with
      | zero =>
          rw [fill_zero] at short
          omega
      | succ need =>
          rw [fill] at short ⊢
          split
          · rename_i admitted
            rw [if_pos admitted] at short
            have kept : dest ++ [first] <+: fill admits rest (dest ++ [first]) need :=
              fill_prefix rest (dest ++ [first]) need
            rcases List.mem_cons.mp member with rfl | later
            · exact Or.inl (kept.subset (by simp))
            · have short' : (fill admits rest (dest ++ [first]) need).length <
                  (dest ++ [first]).length + need := by
                simp only [List.length_append, List.length_cons, List.length_nil]
                omega
              refine (ih short' later).imp id ?_
              rintro ⟨front, longer, within, refused⟩
              exact ⟨front, (List.prefix_append dest [first]).trans longer, within, refused⟩
          · rename_i admitted
            rw [if_neg admitted] at short
            rcases List.mem_cons.mp member with rfl | later
            · refine Or.inr ⟨dest, List.prefix_refl dest, fill_prefix rest dest (need + 1), ?_⟩
              exact Bool.eq_false_iff.mpr admitted
            · exact ih short later

end

end Vtm.Std
