import Mathlib.Data.List.DropRight

/-!
# Tables of the most recent entries

A table that keeps the last uses of the most recent entries of a history. Entries are
compared by a relation that need not be equality; the table keeps the last of those
that are the same.
-/

namespace Vtm.Std

variable {α : Type} (same : α → α → Bool)

/-- The last use of each entry of a history, the oldest first. -/
@[grind =] def lastUses : List α → List α
  | [] => []
  | a :: later => if later.any (same a) then lastUses later else a :: lastUses later

/-- The entries that a table with room for `most` keeps of a history. -/
@[grind =] def recent (most : Nat) (history : List α) : List α := (lastUses same history).rtake most

/-- No entry is the same as a later one. -/
def Distinct (table : List α) : Prop := table.Pairwise fun a b => same a b = false

variable {same}

theorem mem_of_mem_lastUses {history : List α} {a : α} (used : a ∈ lastUses same history) :
    a ∈ history := by
  induction history with
  | nil => exact used
  | cons b later ih =>
      unfold lastUses at used
      split at used
      · exact List.mem_cons_of_mem b (ih used)
      · rcases List.mem_cons.mp used with rfl | used
        · exact List.mem_cons_self
        · exact List.mem_cons_of_mem b (ih used)

variable (same) in
theorem lastUses_distinct (history : List α) : Distinct same (lastUses same history) := by
  induction history with
  | nil => exact List.Pairwise.nil
  | cons a later ih =>
      unfold lastUses
      split
      · exact ih
      · rename_i last
        refine List.pairwise_cons.mpr ⟨fun b used => ?_, ih⟩
        by_contra again
        exact last (List.any_eq_true.mpr ⟨b, mem_of_mem_lastUses used, eq_true_of_ne_false again⟩)

variable (same) in
theorem recent_distinct (most : Nat) (history : List α) : Distinct same (recent same most history) :=
  (lastUses_distinct same history).sublist (List.drop_sublist _ _)

variable (same) in
theorem recent_length_le (most : Nat) (history : List α) :
    (recent same most history).length ≤ most := by
  unfold recent List.rtake
  rw [List.length_drop]
  omega

/-- A use ends the earlier ones of the same entry. -/
theorem lastUses_concat (history : List α) (a : α) :
    lastUses same (history ++ [a]) = (lastUses same history).filter (fun b => !same b a) ++ [a] := by
  induction history with
  | nil => rfl
  | cons b later ih =>
      have uses : (later ++ [a]).any (same b) = (later.any (same b) || same b a) := by
        rw [List.any_append, List.any_cons, List.any_nil, Bool.or_false]
      rw [List.cons_append]
      unfold lastUses
      rw [uses, ih]
      cases again : later.any (same b) with
      | true => simp
      | false => cases here : same b a <;> simp [here]

/-- In a table of distinct entries, removing the one that is found removes all that are the same. -/
theorem Distinct.filter_eq (equiv : Equivalence fun a b => same a b = true) {table : List α}
    (distinct : Distinct same table) {a : α} {i : Nat}
    (found : table.findIdx? (fun b => same b a) = some i) :
    table.filter (fun b => !same b a) = table.eraseIdx i := by
  induction table generalizing i with
  | nil => simp at found
  | cons b table ih =>
      obtain ⟨head, tail⟩ := List.pairwise_cons.mp distinct
      rw [List.findIdx?_cons] at found
      cases here : same b a with
      | true =>
          rw [here, if_pos rfl] at found
          have others : ∀ c ∈ table, (!same c a) = true := by
            intro c member
            have apart := head c member
            by_contra again
            have twice : same c a = true := by simpa using again
            have joined := equiv.trans here (equiv.symm twice)
            rw [apart] at joined
            exact Bool.false_ne_true joined
          rw [← Option.some.inj found, List.eraseIdx_cons_zero,
            List.filter_cons_of_neg (by simp [here]), List.filter_eq_self.mpr others]
      | false =>
          rw [here, if_neg Bool.false_ne_true] at found
          obtain ⟨j, later, rfl⟩ := Option.map_eq_some_iff.mp found
          rw [List.filter_cons_of_pos (by simp [here]), ih tail later, List.eraseIdx_cons_succ]

variable (same) in
/-- The entries of a history that the table does not keep, and those it keeps. -/
theorem exists_append_recent (most : Nat) (history : List α) :
    ∃ older, lastUses same history = older ++ recent same most history ∧
      ((recent same most history).length < most → older = []) := by
  refine ⟨(lastUses same history).take ((lastUses same history).length - most),
    (List.take_append_drop _ _).symm, fun room => ?_⟩
  unfold recent List.rtake at room
  rw [List.length_drop] at room
  have all : (lastUses same history).length - most = 0 := by omega
  rw [all, List.take_zero]

theorem rtake_append_of_length_eq {older table : List α} {most : Nat} (full : table.length = most) :
    (older ++ table).rtake most = table := by
  have cut : (older ++ table).length - most = older.length := by
    rw [List.length_append]
    omega
  unfold List.rtake
  rw [cut, List.drop_left]

theorem rtake_of_length_le {table : List α} {most : Nat} (room : table.length ≤ most) :
    table.rtake most = table := by
  unfold List.rtake
  rw [Nat.sub_eq_zero_of_le room, List.drop_zero]

/-- An entry that the table has moves to its end. -/
theorem recent_concat_of_found (equiv : Equivalence fun a b => same a b = true) (most : Nat)
    (history : List α) {a : α} {i : Nat}
    (found : (recent same most history).findIdx? (fun b => same b a) = some i) :
    recent same most (history ++ [a]) = (recent same most history).eraseIdx i ++ [a] := by
  obtain ⟨older, split, all⟩ := exists_append_recent same most history
  have distinct := lastUses_distinct same history
  rw [split] at distinct
  have apart := (List.pairwise_append.mp distinct).2.2
  obtain ⟨inside, here, -⟩ := List.findIdx?_eq_some_iff_getElem.mp found
  have others : ∀ b ∈ older, (!same b a) = true := by
    intro b member
    by_contra again
    have twice : same b a = true := by simpa using again
    have joined := equiv.trans twice (equiv.symm here)
    rw [apart b member _ (List.getElem_mem inside)] at joined
    exact Bool.false_ne_true joined
  have kept : recent same most (history ++ [a]) =
      (older ++ ((recent same most history).eraseIdx i ++ [a])).rtake most := by
    have erased := (recent_distinct same most history).filter_eq equiv found
    conv_lhs => unfold recent
    rw [lastUses_concat, split, List.filter_append, List.filter_eq_self.mpr others, erased,
      List.append_assoc]
  have length : ((recent same most history).eraseIdx i ++ [a]).length =
      (recent same most history).length := by
    rw [List.length_append, List.length_eraseIdx_of_lt inside, List.length_singleton]
    omega
  rw [kept]
  rcases Nat.lt_or_eq_of_le (recent_length_le same most history) with room | full
  · rw [all room, List.nil_append]
    exact rtake_of_length_le (by omega)
  · exact rtake_append_of_length_eq (length.trans full)

/-- A new entry goes to the end, and if the table is full the oldest one makes room. -/
theorem recent_concat_of_not_found {most : Nat} (some : 0 < most) (history : List α) {a : α}
    (new : (recent same most history).findIdx? (fun b => same b a) = none) :
    recent same most (history ++ [a]) =
      (if (recent same most history).length = most then (recent same most history).eraseIdx 0
        else recent same most history) ++ [a] := by
  obtain ⟨older, split, all⟩ := exists_append_recent same most history
  have others : ∀ b ∈ recent same most history, (!same b a) = true := by
    intro b member
    have apart := List.findIdx?_eq_none_iff.mp new b member
    rw [apart]
    rfl
  have kept : recent same most (history ++ [a]) =
      (older.filter (fun b => !same b a) ++ (recent same most history ++ [a])).rtake most := by
    conv_lhs => unfold recent
    rw [lastUses_concat, split, List.filter_append, List.filter_eq_self.mpr others,
      List.append_assoc]
  rw [kept]
  split
  · rename_i full
    cases table : recent same most history with
    | nil =>
        rw [table] at full
        exact absurd full.symm (Nat.ne_of_gt some)
    | cons b rest =>
        rw [table] at full
        have length : (rest ++ [a]).length = most := by
          rw [List.length_append, List.length_singleton, ← full, List.length_cons]
        rw [List.cons_append, ← List.singleton_append, ← List.append_assoc, List.eraseIdx_cons_zero]
        exact rtake_append_of_length_eq length
  · rename_i short
    have room := Nat.lt_of_le_of_ne (recent_length_le same most history) short
    rw [all room, List.filter_nil, List.nil_append]
    refine rtake_of_length_le ?_
    rw [List.length_append, List.length_singleton]
    omega

end Vtm.Std
