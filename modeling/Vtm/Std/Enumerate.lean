import Mathlib.Data.Finset.Card

/-!
# Walks through a finite ordered set

A step function that always goes to the next larger element visits the elements
of a finite set in their order: the `n`-th position has exactly `n` smaller ones.
-/

namespace Vtm.Std

/-- A walk from the least element of a finite set to its next larger ones, in a
strict total order on the set. -/
structure Walk {α : Type} [DecidableEq α] (s : Finset α) (before : α → α → Prop) (start : α)
    (next : α → α) : Prop where
  irrefl : ∀ p, ¬ before p p
  trans : ∀ p q r, before p q → before q r → before p r
  total : ∀ p ∈ s, ∀ q ∈ s, before p q ∨ p = q ∨ before q p
  start_mem : start ∈ s
  start_least : ∀ q ∈ s, ¬ before q start
  step : ∀ p ∈ s, (∃ q ∈ s, before p q) →
    next p ∈ s ∧ ∀ q ∈ s, before q (next p) ↔ before q p ∨ q = p

namespace Walk

variable {α : Type} [DecidableEq α] {s : Finset α} {before : α → α → Prop} {start : α}
  {next : α → α}

open Classical in
/-- The number of smaller elements. -/
noncomputable def rank (s : Finset α) (before : α → α → Prop) (p : α) : Nat :=
  (s.filter fun q => before q p).card

theorem rank_next (walk : Walk s before start next) {p : α} (mem : p ∈ s)
    (more : ∃ q ∈ s, before p q) : rank s before (next p) = rank s before p + 1 := by
  classical
  have smaller : (s.filter fun q => before q (next p)) =
      insert p (s.filter fun q => before q p) := by
    ext q
    simp only [Finset.mem_filter, Finset.mem_insert]
    constructor
    · rintro ⟨inside, earlier⟩
      rcases ((walk.step p mem more).2 q inside).mp earlier with below | same
      · exact Or.inr ⟨inside, below⟩
      · exact Or.inl same
    · rintro (rfl | ⟨inside, below⟩)
      · exact ⟨mem, ((walk.step q mem more).2 q mem).mpr (Or.inr rfl)⟩
      · exact ⟨inside, ((walk.step p mem more).2 q inside).mpr (Or.inl below)⟩
  unfold rank
  rw [smaller, Finset.card_insert_of_notMem]
  simp [walk.irrefl p]

/-- An element with fewer smaller ones than there are others is not the last. -/
theorem exists_larger (walk : Walk s before start next) {p : α} (mem : p ∈ s)
    (room : rank s before p + 1 < s.card) : ∃ q ∈ s, before p q := by
  classical
  by_contra none
  push Not at none
  have all : s ⊆ insert p (s.filter fun q => before q p) := by
    intro q inside
    rcases walk.total p mem q inside with above | rfl | below
    · exact absurd above (none q inside)
    · exact Finset.mem_insert_self _ _
    · exact Finset.mem_insert_of_mem (Finset.mem_filter.mpr ⟨inside, below⟩)
  have most := (Finset.card_le_card all).trans (Finset.card_insert_le _ _)
  unfold rank at room
  omega

/-- The `n`-th position has exactly `n` smaller elements. -/
theorem rank_iterate (walk : Walk s before start next) {n : Nat} (inside : n < s.card) :
    next^[n] start ∈ s ∧ rank s before (next^[n] start) = n := by
  classical
  induction n with
  | zero =>
      refine ⟨walk.start_mem, ?_⟩
      unfold rank
      rw [Finset.card_eq_zero, Finset.filter_eq_empty_iff]
      exact fun q mem => walk.start_least q mem
  | succ n ih =>
      obtain ⟨mem, rank⟩ := ih (by omega)
      have more := walk.exists_larger mem (by omega)
      rw [Function.iterate_succ_apply']
      exact ⟨(walk.step _ mem more).1, by rw [walk.rank_next mem more, rank]⟩

theorem rank_lt (walk : Walk s before start next) {p q : α} (mem : p ∈ s) (less : before p q) :
    rank s before p < rank s before q := by
  classical
  unfold rank
  refine Finset.card_lt_card (Finset.ssubset_iff_subset_ne.mpr ⟨?_, ?_⟩)
  · intro r member
    obtain ⟨inside, below⟩ := Finset.mem_filter.mp member
    exact Finset.mem_filter.mpr ⟨inside, walk.trans r p q below less⟩
  · intro same
    have member : p ∈ s.filter fun r => before r q := Finset.mem_filter.mpr ⟨mem, less⟩
    rw [← same] at member
    exact walk.irrefl p (Finset.mem_filter.mp member).2

/-- Later positions are larger. -/
theorem iterate_before (walk : Walk s before start next) {m n : Nat} (earlier : m < n)
    (inside : n < s.card) : before (next^[m] start) (next^[n] start) := by
  obtain ⟨memM, rankM⟩ := walk.rank_iterate (by omega : m < s.card)
  obtain ⟨memN, rankN⟩ := walk.rank_iterate inside
  rcases walk.total _ memM _ memN with less | same | more
  · exact less
  · rw [same, rankN] at rankM
    omega
  · have less := walk.rank_lt memN more
    omega

theorem exists_iterate (walk : Walk s before start next) {p : α} (mem : p ∈ s) :
    ∃ n < s.card, next^[n] start = p := by
  classical
  have small : rank s before p < s.card := by
    unfold rank
    refine Finset.card_lt_card (Finset.filter_ssubset.mpr ⟨p, mem, walk.irrefl p⟩)
  obtain ⟨member, rank⟩ := walk.rank_iterate small
  refine ⟨_, small, ?_⟩
  rcases walk.total _ member _ mem with less | same | more
  · have lower := walk.rank_lt member less
    omega
  · exact same
  · have lower := walk.rank_lt mem more
    omega

end Walk
end Vtm.Std
