import Mathlib.Data.List.Nodup

/-!
# Assignments to arrays

A loop that rewrites one element of an array in each round. If no element is written twice,
each element holds what its own round made of it, and the others are left.
-/

namespace Vtm.Std

variable {σ κ α : Type} [DecidableEq κ]

/-- The loop over `steps`: the round of `s` rewrites the element `key s`. -/
def assign (key : σ → κ) (write : σ → α → α) (steps : List σ) (array : κ → α) : κ → α :=
  steps.foldl (fun array s => Function.update array (key s) (write s (array (key s)))) array

section

variable {key : σ → κ} {write : σ → α → α} {steps : List σ} {array : κ → α}

theorem assign_cons (s : σ) :
    assign key write (s :: steps) array =
      assign key write steps (Function.update array (key s) (write s (array (key s)))) := rfl

theorem assign_append (more : List σ) :
    assign key write (steps ++ more) array =
      assign key write more (assign key write steps array) :=
  List.foldl_append

/-- An element without a round is left. -/
theorem assign_of_notMem {k : κ} (apart : ∀ s ∈ steps, key s ≠ k) :
    assign key write steps array k = array k := by
  induction steps generalizing array with
  | nil => rfl
  | cons s steps ih =>
      obtain ⟨head, tail⟩ := List.forall_mem_cons.mp apart
      rw [assign_cons, ih tail, Function.update_of_ne head.symm]

/-- An element with one round. -/
theorem assign_of_mem (distinct : (steps.map key).Nodup) {s : σ} (member : s ∈ steps) :
    assign key write steps array (key s) = write s (array (key s)) := by
  induction steps generalizing array with
  | nil => cases member
  | cons t steps ih =>
      rw [List.map_cons, List.nodup_cons] at distinct
      rw [assign_cons]
      rcases List.mem_cons.mp member with rfl | later
      · have apart : ∀ t ∈ steps, key t ≠ key s := fun t later same =>
          distinct.1 (same ▸ List.mem_map_of_mem later)
        rw [assign_of_notMem apart, Function.update_self]
      · have other : key s ≠ key t := fun same =>
          distinct.1 (same ▸ List.mem_map_of_mem later)
        rw [ih distinct.2 later, Function.update_of_ne other]

/-- An element whose rounds all write the same, whatever was there. -/
theorem assign_eq {k : κ} {v : α} (agree : ∀ s ∈ steps, key s = k → ∀ old, write s old = v)
    (written : ∃ s ∈ steps, key s = k) : assign key write steps array k = v := by
  induction steps generalizing array with
  | nil =>
      obtain ⟨_, member, _⟩ := written
      cases member
  | cons s steps ih =>
      obtain ⟨head, tail⟩ := List.forall_mem_cons.mp agree
      rw [assign_cons]
      by_cases again : ∃ t ∈ steps, key t = k
      · exact ih tail again
      · have apart : ∀ t ∈ steps, key t ≠ k := fun t member same => again ⟨t, member, same⟩
        obtain ⟨t, member, here⟩ := written
        rcases List.mem_cons.mp member with rfl | later
        · rw [assign_of_notMem apart, here, Function.update_self]
          exact head here _
        · exact absurd ⟨t, later, here⟩ again

end

/-- The loop over `steps` if a round may fail. -/
def assignM {ε : Type} (key : σ → κ) (write : σ → α → Except ε α) (steps : List σ)
    (array : κ → α) : Except ε (κ → α) :=
  steps.foldlM (fun array s => do
    let value ← write s (array (key s))
    pure (Function.update array (key s) value)) array

section

variable {ε : Type} {key : σ → κ} {writeM : σ → α → Except ε α} {steps : List σ}

/-- Rounds that do not fail assign what they write. -/
theorem assignM_eq {write : σ → α → α}
    (each : ∀ s ∈ steps, ∀ old, writeM s old = .ok (write s old)) (array : κ → α) :
    assignM key writeM steps array = .ok (assign key write steps array) := by
  induction steps generalizing array with
  | nil => rfl
  | cons s steps ih =>
      obtain ⟨head, tail⟩ := List.forall_mem_cons.mp each
      rw [assignM, List.foldlM_cons, head]
      exact ih tail _

/-- A round that fails whatever it finds stops the loop. -/
theorem assignM_fails {s : σ} (member : s ∈ steps) (fails : ∀ old, ∃ e, writeM s old = .error e)
    (array : κ → α) : ∃ e, assignM key writeM steps array = .error e := by
  induction steps generalizing array with
  | nil => cases member
  | cons t steps ih =>
      rw [assignM, List.foldlM_cons]
      cases run : writeM t (array (key t)) with
      | error e => exact ⟨e, rfl⟩
      | ok value =>
          rcases List.mem_cons.mp member with rfl | later
          · obtain ⟨e, failed⟩ := fails (array (key s))
            rw [run] at failed
            cases failed
          · exact ih later _

end

end Vtm.Std

/-!
## Sweeps over an array

A loop that combines elements of an array with others in place. If it goes through the array
such that no element is combined with one that it has rewritten before, the order of the rounds
does not show.
-/

namespace Vtm.Std

variable {κ α : Type} [DecidableEq κ]

/-- The loop over `steps`: the round of `k` combines the element `k` with the element
`source k`. -/
def sweep (source : κ → κ) (op : α → α → α) (steps : List κ) (array : κ → α) : κ → α :=
  steps.foldl (fun array k => Function.update array k (op (array k) (array (source k)))) array

/-- No round rewrites or reads what an earlier one has rewritten. -/
def Forwards (source : κ → κ) (steps : List κ) : Prop :=
  steps.Pairwise fun earlier later => earlier ≠ later ∧ earlier ≠ source later

/-- Each round finds the elements as they were before the loop. -/
theorem sweep_eq {source : κ → κ} {op : α → α → α} {steps : List κ}
    (forwards : Forwards source steps) (array : κ → α) (k : κ) :
    sweep source op steps array k =
      if k ∈ steps then op (array k) (array (source k)) else array k := by
  induction steps generalizing array with
  | nil => rfl
  | cons s steps ih =>
      obtain ⟨head, tail⟩ := List.pairwise_cons.mp forwards
      have step : sweep source op (s :: steps) array =
          sweep source op steps (Function.update array s (op (array s) (array (source s)))) := rfl
      rw [step, ih tail]
      by_cases later : k ∈ steps
      · obtain ⟨apart, unread⟩ := head k later
        rw [if_pos later, if_pos (List.mem_cons_of_mem s later),
          Function.update_of_ne apart.symm, Function.update_of_ne unread.symm]
      · rw [if_neg later]
        by_cases here : k = s
        · rw [here, Function.update_self, if_pos List.mem_cons_self]
        · rw [Function.update_of_ne here, if_neg]
          rintro member
          rcases List.mem_cons.mp member with same | member'
          · exact here same
          · exact later member'

end Vtm.Std
