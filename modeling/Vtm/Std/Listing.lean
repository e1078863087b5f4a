import Mathlib.Logic.Function.Basic
import Mathlib.Data.Int.Init

/-!
# Lists that are filled in stages

A list in a buffer that one stage after the other appends to. A stage may fail, it may
return from the whole derivation, or the next one goes on. A derivation that is asked for a
single entry returns as soon as it has stored it: `StopsEarly` says that this entry is then the one
of the whole list.
-/

namespace Vtm.Std

variable {α : Type}

/-- A buffer, and how many of its entries belong to the list. -/
structure Listing (α : Type) where
  entry : Nat → α
  count : Nat

/-- How a stage ends. -/
inductive Outcome (α : Type) where
  | failed (message : String)
  | returned (list : Listing α)
  | running (list : Listing α)

/-- A stage of a derivation. -/
abbrev Stage (α : Type) := Listing α → Outcome α

namespace Listing

/-- Store to the entry behind the list. -/
def store (list : Listing α) (a : α) : Listing α :=
  { list with entry := Function.update list.entry list.count a }

/-- Append an entry. -/
def push (list : Listing α) (a : α) : Listing α :=
  { list.store a with count := list.count + 1 }

variable (list : Listing α) (a : α)

@[simp] theorem store_count : (list.store a).count = list.count := rfl

@[simp] theorem push_count : (list.push a).count = list.count + 1 := rfl

@[simp] theorem store_entry_count : (list.store a).entry list.count = a := Function.update_self _ _ _

@[simp] theorem push_entry_count : (list.push a).entry list.count = a := Function.update_self _ _ _

variable {list a}

theorem store_entry_of_ne {n : Nat} (other : n ≠ list.count) :
    (list.store a).entry n = list.entry n := Function.update_of_ne other _ _

theorem push_entry_of_ne {n : Nat} (other : n ≠ list.count) :
    (list.push a).entry n = list.entry n := Function.update_of_ne other _ _

end Listing

namespace Outcome

/-- The next stage goes on. -/
def andThen (outcome : Outcome α) (next : Stage α) : Outcome α :=
  match outcome with
  | failed message => failed message
  | returned list => returned list
  | running list => next list

/-- The result of a derivation. -/
def finish {β : Type} (onReturn onEnd : Listing α → β) : Outcome α → Except String β
  | failed message => .error message
  | returned list => .ok (onReturn list)
  | running list => .ok (onEnd list)

/-- An entry of the list holds a value, and no later stage reaches it. -/
def Holds (i : Nat) (a : α) : Outcome α → Prop
  | failed _ => True
  | returned list => list.entry i = a
  | running list => i < list.count ∧ list.entry i = a

/-- A stage that fails, or ends with one of two properties. -/
def MayEnd (Q R : Listing α → Prop) : Outcome α → Prop
  | failed _ => True
  | returned list => Q list
  | running list => R list

/-- A stage that does not fail ends with one of two properties. -/
def Ends (Q R : Listing α → Prop) : Outcome α → Prop
  | failed _ => False
  | returned list => Q list
  | running list => R list

section

variable {Q R R' : Listing α → Prop} {outcome : Outcome α} {next : Stage α} {i : Nat} {a : α}

theorem Ends.andThen (ends : outcome.Ends Q R) (later : ∀ list, R list → (next list).Ends Q R') :
    (outcome.andThen next).Ends Q R' := by
  cases outcome with
  | failed => exact ends
  | returned => exact ends
  | running list => exact later list ends

theorem MayEnd.andThen (ends : outcome.MayEnd Q R)
    (later : ∀ list, R list → (next list).MayEnd Q R') : (outcome.andThen next).MayEnd Q R' := by
  cases outcome with
  | failed => exact ends
  | returned => exact ends
  | running list => exact later list ends

theorem Ends.weaken (ends : outcome.Ends Q R) (post : ∀ list, R list → R' list) :
    outcome.Ends Q R' := by
  cases outcome with
  | failed => exact ends
  | returned => exact ends
  | running list => exact post list ends

theorem Ends.exits {Q' : Listing α → Prop} (ends : outcome.Ends Q R)
    (post : ∀ list, Q list → Q' list) : outcome.Ends Q' R := by
  cases outcome with
  | failed => exact ends
  | returned list => exact post list ends
  | running => exact ends

theorem Holds.andThen (holds : outcome.Holds i a)
    (keeps : ∀ list, i < list.count → (next list).Holds i (list.entry i)) :
    (outcome.andThen next).Holds i a := by
  cases outcome with
  | failed => exact holds
  | returned => exact holds
  | running list =>
      obtain ⟨inside, here⟩ := holds
      exact here ▸ keeps list inside

end

end Outcome

namespace Stage

/-- One stage after the other. -/
def followedBy (first second : Stage α) : Stage α := fun list => (first list).andThen second

/-- All stages in their order. -/
def inOrder : List (Stage α) → Stage α
  | [] => .running
  | first :: rest => first.followedBy (inOrder rest)

/-- One stage or another. -/
def choose (c : Listing α → Prop) [DecidablePred c] (yes no : Stage α) : Stage α :=
  fun list => if c list then yes list else no list

/-- A stage under a condition. -/
def when (c : Listing α → Prop) [DecidablePred c] (stage : Stage α) : Stage α :=
  choose c stage .running

/-- Return as soon as the list is full. -/
def limit (most : Nat) : Stage α :=
  fun list => if list.count = most then .returned list else .running list

/-- Append an entry, and return if it is the one that is asked for. -/
@[grind =] def append (stop : Int) (edit : Listing α → Except String α) : Stage α := fun list =>
  match edit list with
  | .error message => .failed message
  | .ok a => if stop = list.count then .returned (list.store a) else .running (list.push a)

/-! ## Rules of pre- and postconditions -/

/-- From a list with `P` the stage does not fail, returns with `Q` and goes on with `R`. -/
def Ensures (P : Listing α → Prop) (stage : Stage α) (Q R : Listing α → Prop) : Prop :=
  ∀ list, P list → (stage list).Ends Q R

section Rules

variable {P P' Q R R' : Listing α → Prop} {stage first second : Stage α}

theorem Ensures.weaken (ensures : Ensures P stage Q R) (pre : ∀ list, P' list → P list)
    (post : ∀ list, R list → R' list) : Ensures P' stage Q R' :=
  fun list start => (ensures list (pre list start)).weaken post

theorem Ensures.followedBy (head : Ensures P first Q R) (tail : Ensures R second Q R') :
    Ensures P (first.followedBy second) Q R' :=
  fun list start => (head list start).andThen tail

theorem Ensures.done : Ensures P (inOrder []) Q P := fun _ start => start

theorem Ensures.next {rest : List (Stage α)} (head : Ensures P first Q R)
    (tail : Ensures R (inOrder rest) Q R') : Ensures P (inOrder (first :: rest)) Q R' :=
  head.followedBy tail

/-- What each stage of a range passes on to the next one. -/
theorem Ensures.range {I : Nat → Listing α → Prop} {stages : Nat → Stage α} (start count : Nat)
    (each : ∀ i, start ≤ i → i < start + count → Ensures (I i) (stages i) Q (I (i + 1))) :
    Ensures (I start) (inOrder ((List.range' start count).map stages)) Q (I (start + count)) := by
  induction count generalizing start with
  | zero => exact Ensures.done
  | succ count ih =>
      rw [List.range'_succ, List.map_cons]
      refine (each start (Nat.le_refl _) (by omega)).next ?_
      have rest := ih (start + 1) fun i first last => each i (by omega) (by omega)
      rwa [Nat.add_right_comm] at rest

theorem Ensures.choose {c : Listing α → Prop} [DecidablePred c]
    (yes : Ensures (fun list => P list ∧ c list) first Q R)
    (no : Ensures (fun list => P list ∧ ¬ c list) second Q R) :
    Ensures P (choose c first second) Q R := by
  intro list start
  unfold Stage.choose
  by_cases here : c list
  · rw [if_pos here]
    exact yes list ⟨start, here⟩
  · rw [if_neg here]
    exact no list ⟨start, here⟩

theorem Ensures.when {c : Listing α → Prop} [DecidablePred c]
    (inner : Ensures (fun list => P list ∧ c list) stage Q R)
    (skip : ∀ list, P list → ¬ c list → R list) : Ensures P (when c stage) Q R :=
  inner.choose fun list start => skip list start.1 start.2

theorem Ensures.limit {most : Nat} (full : ∀ list, P list → list.count = most → Q list) :
    Ensures P (limit most) Q fun list => P list ∧ list.count ≠ most := by
  intro list start
  unfold Stage.limit
  by_cases reached : list.count = most
  · rw [if_pos reached]
    exact full list start reached
  · rw [if_neg reached]
    exact ⟨start, reached⟩

/-- Without a stop an entry is appended. -/
theorem Ensures.append {edit : Listing α → Except String α}
    (stored : ∀ list, P list → ∃ a, edit list = .ok a ∧ R (list.push a)) :
    Ensures P (append (-1) edit) Q R := by
  intro list start
  obtain ⟨a, edited, done⟩ := stored list start
  have off : ¬ (-1 : Int) = list.count := by omega
  unfold Stage.append
  rw [edited]
  dsimp only
  rw [if_neg off]
  exact done

end Rules

/-! ## Stages that may fail -/

/-- From a list with `P` the stage fails, returns with `Q` or goes on with `R`. -/
def Permits (P : Listing α → Prop) (stage : Stage α) (Q R : Listing α → Prop) : Prop :=
  ∀ list, P list → (stage list).MayEnd Q R

section Permits

variable {P Q R R' : Listing α → Prop} {stage first second : Stage α}

theorem Permits.followedBy (head : Permits P first Q R) (tail : Permits R second Q R') :
    Permits P (first.followedBy second) Q R' :=
  fun list start => (head list start).andThen tail

theorem Permits.done : Permits P (inOrder []) Q P := fun _ start => start

theorem Permits.next {rest : List (Stage α)} (head : Permits P first Q R)
    (tail : Permits R (inOrder rest) Q R') : Permits P (inOrder (first :: rest)) Q R' :=
  head.followedBy tail

theorem Permits.limit {most : Nat} (full : ∀ list, P list → list.count = most → Q list) :
    Permits P (limit most) Q fun list => P list ∧ list.count ≠ most := by
  intro list start
  unfold Stage.limit
  split
  · rename_i reached
    exact full list start reached
  · rename_i room
    exact ⟨start, room⟩

theorem Permits.append {edit : Listing α → Except String α}
    (stored : ∀ list a, P list → edit list = .ok a → R (list.push a)) :
    Permits P (append (-1) edit) Q R := by
  intro list start
  have off : ¬ (-1 : Int) = list.count := by omega
  unfold Stage.append
  cases edited : edit list with
  | error => trivial
  | ok a =>
      dsimp only
      rw [if_neg off]
      exact stored list a start edited

end Permits

/-! ## Stopping early -/

/-- The entries of the list are left. -/
def Keeps (stage : Stage α) : Prop :=
  ∀ list i, i < list.count → (stage list).Holds i (list.entry i)

/-- A stage that is asked for an entry: it does what it does without being asked, or it returns
with the entry that the whole derivation keeps. -/
structure StopsEarly (stage : Int → Stage α) : Prop where
  keeps : Keeps (stage (-1))
  agrees : ∀ list (i : Nat), stage i list = stage (-1) list ∨
    ∃ early, stage i list = .returned early ∧ (stage (-1) list).Holds i (early.entry i)

section Early

variable {stage : Stage α} {first second : Int → Stage α}

theorem Keeps.stopsEarly (keeps : Keeps stage) : StopsEarly fun _ => stage where
  keeps := keeps
  agrees _ _ := Or.inl rfl

theorem Keeps.running : Keeps (α := α) .running := fun _ _ inside => ⟨inside, rfl⟩

theorem Keeps.followedBy {first second : Stage α} (head : Keeps first) (tail : Keeps second) :
    Keeps (first.followedBy second) :=
  fun list i inside => (head list i inside).andThen fun after => tail after i

theorem Keeps.limit (most : Nat) : Keeps (Stage.limit (α := α) most) := by
  intro list i inside
  unfold Stage.limit
  split
  · rfl
  · exact ⟨inside, rfl⟩

theorem StopsEarly.followedBy (head : StopsEarly first) (tail : StopsEarly second) :
    StopsEarly fun stop => (first stop).followedBy (second stop) where
  keeps := head.keeps.followedBy tail.keeps
  agrees list i := by
    unfold Stage.followedBy
    rcases head.agrees list i with same | ⟨early, stopped, held⟩
    · rw [same]
      cases first (-1) list with
      | failed => exact Or.inl rfl
      | returned => exact Or.inl rfl
      | running after => exact tail.agrees after i
    · rw [stopped]
      exact Or.inr ⟨early, rfl, held.andThen fun after => tail.keeps after i⟩

theorem StopsEarly.done : StopsEarly fun _ => inOrder (α := α) [] := Keeps.running.stopsEarly

theorem StopsEarly.next {rest : Int → List (Stage α)} (head : StopsEarly first)
    (tail : StopsEarly fun stop => inOrder (rest stop)) :
    StopsEarly fun stop => inOrder (first stop :: rest stop) := head.followedBy tail

/-- All stages of a list. -/
theorem StopsEarly.all {ι : Type} (items : List ι) {stage : Int → ι → Stage α}
    (each : ∀ item, StopsEarly fun stop => stage stop item) :
    StopsEarly fun stop => inOrder (items.map (stage stop)) := by
  induction items with
  | nil => exact StopsEarly.done
  | cons item items ih => exact (each item).next ih

/-- A stage that depends on the list that it finds. -/
theorem StopsEarly.dependent {ι : Type} {stage : Int → ι → Stage α} (f : Listing α → ι)
    (each : ∀ item, StopsEarly fun stop => stage stop item) :
    StopsEarly fun stop list => stage stop (f list) list where
  keeps list i inside := (each (f list)).keeps list i inside
  agrees list i := (each (f list)).agrees list i

theorem StopsEarly.choose {c : Listing α → Prop} [DecidablePred c] (yes : StopsEarly first)
    (no : StopsEarly second) : StopsEarly fun stop => choose c (first stop) (second stop) where
  keeps list i inside := by
    unfold Stage.choose
    by_cases here : c list
    · rw [if_pos here]
      exact yes.keeps list i inside
    · rw [if_neg here]
      exact no.keeps list i inside
  agrees list i := by
    unfold Stage.choose
    by_cases here : c list
    · simp only [if_pos here]
      exact yes.agrees list i
    · simp only [if_neg here]
      exact no.agrees list i

theorem StopsEarly.when {c : Listing α → Prop} [DecidablePred c] (inner : StopsEarly first) :
    StopsEarly fun stop => when c (first stop) := inner.choose Keeps.running.stopsEarly

theorem StopsEarly.append (edit : Listing α → Except String α) :
    StopsEarly fun stop => append stop edit where
  keeps list i inside := by
    unfold Stage.append
    cases edit list with
    | error => trivial
    | ok a =>
        have off : ¬ (-1 : Int) = list.count := by omega
        dsimp only
        rw [if_neg off]
        exact ⟨Nat.lt_succ_of_lt inside, Listing.push_entry_of_ne (Nat.ne_of_lt inside)⟩
  agrees list i := by
    unfold Stage.append
    cases edit list with
    | error => exact Or.inl rfl
    | ok a =>
        have off : ¬ (-1 : Int) = list.count := by omega
        dsimp only
        rw [if_neg off]
        by_cases here : (i : Int) = list.count
        · have same : i = list.count := by omega
          rw [if_pos here]
          refine Or.inr ⟨_, rfl, Nat.lt_succ_of_le (Nat.le_of_eq same), ?_⟩
          rw [same, Listing.push_entry_count, Listing.store_entry_count]
        · exact Or.inl (if_neg here)

/-- Asked for an entry, a derivation that ends gives the one of its whole list. -/
theorem StopsEarly.same_entry {stage : Int → Stage α} (early : StopsEarly stage) {list : Listing α}
    (i : Nat) {full : Listing α}
    (ended : stage (-1) list = .returned full ∨ stage (-1) list = .running full) :
    ∃ part, (stage i list = .returned part ∨ stage i list = .running part) ∧
      part.entry i = full.entry i := by
  rcases early.agrees list i with same | ⟨part, stopped, held⟩
  · exact ⟨full, same ▸ ended, rfl⟩
  · refine ⟨part, Or.inl stopped, ?_⟩
    rcases ended with returned | running
    · rw [returned] at held
      exact held.symm
    · rw [running] at held
      exact held.2.symm

/-- The result of a derivation that is asked for an entry. -/
theorem StopsEarly.finish {β : Type} {stage : Int → Stage α} (early : StopsEarly stage)
    (entries : β → Nat → α) {onReturn onEnd : Listing α → β}
    (returns : ∀ list, entries (onReturn list) = list.entry)
    (ends : ∀ list, entries (onEnd list) = list.entry) {list : Listing α} (i : Nat) {full : β}
    (run : (stage (-1) list).finish onReturn onEnd = .ok full) :
    ∃ part, (stage i list).finish onReturn onEnd = .ok part ∧ entries part i = entries full i := by
  obtain ⟨whole, ended, same⟩ : ∃ whole, (stage (-1) list = .returned whole ∨
      stage (-1) list = .running whole) ∧ entries full = whole.entry := by
    cases outcome : stage (-1) list with
    | failed =>
        rw [outcome] at run
        cases run
    | returned whole =>
        rw [outcome] at run
        exact ⟨whole, Or.inl rfl, Except.ok.inj run ▸ returns whole⟩
    | running whole =>
        rw [outcome] at run
        exact ⟨whole, Or.inr rfl, Except.ok.inj run ▸ ends whole⟩
  obtain ⟨part, stopped | running, entry⟩ := early.same_entry i ended
  · rw [stopped]
    exact ⟨_, rfl, by rw [returns, entry, same]⟩
  · rw [running]
    exact ⟨_, rfl, by rw [ends, entry, same]⟩

end Early

end Stage

end Vtm.Std
