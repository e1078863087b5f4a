import Mathlib.Algebra.Order.Ring.Nat

/-!
# Writers and readers in lock step

A writer appends tokens to its state and a reader takes tokens from the front
of its state. `Codes` relates a writer and a reader that agree on every token:
whatever the writer appends, the reader accepts, and the two results are
related. The rules below follow the two programs side by side, so a proof about
a syntax structure has one step for each syntax element.
-/

namespace Vtm.Std

/-- How the states of a writer or a reader carry a token string. -/
structure View (σ τ : Type) where
  inv : σ → Prop
  tokens : σ → List τ

/-- A token list is its own view. -/
def View.list (τ : Type) : View (List τ) τ := ⟨fun _ => True, id⟩

/-- Stop with `e` when `c` holds. -/
def check {σ ε : Type} (c : Prop) [Decidable c] (e : ε) : StateT σ (Except ε) Unit :=
  fun s => if c then .error e else .ok ((), s)

section

variable {σ ρ τ δ ε α β : Type}

/-- In front of `tokens`, the reader returns `value` and stops right behind them. -/
def Accepts (R : View ρ τ) (r : StateT ρ (Except ε) β) (tokens : List τ) (value : β) : Prop :=
  ∀ s rest, R.inv s → R.tokens s = tokens ++ rest →
    ∃ s', r s = .ok (value, s') ∧ R.inv s' ∧ R.tokens s' = rest

/-- Whatever the writer appends, the reader accepts, with related results. A
failure of the writer is excluded unless `mayFail` holds. -/
def Codes (mayFail : Prop) (W : View σ τ) (R : View ρ τ) (w : StateT σ (Except δ) α)
    (r : StateT ρ (Except ε) β) (post : α → β → Prop) : Prop :=
  ∀ s, W.inv s →
    (mayFail ∧ ∃ e, w s = .error e) ∨
    ∃ a s' tokens b, w s = .ok (a, s') ∧ W.inv s' ∧ W.tokens s' = W.tokens s ++ tokens ∧
      post a b ∧ Accepts R r tokens b

variable {mayFail : Prop} {W : View σ τ} {R : View ρ τ}

theorem bind_run {first : StateT σ (Except ε) α} {next : α → StateT σ (Except ε) β} {s t : σ}
    {a : α} (run : first s = .ok (a, t)) : (first >>= next) s = next a t := by
  show (first s >>= fun p => next p.1 p.2) = next a t
  rw [run]
  rfl

theorem bind_run_error {first : StateT σ (Except ε) α} {next : α → StateT σ (Except ε) β} {s : σ}
    {e : ε} (run : first s = .error e) : (first >>= next) s = .error e := by
  show (first s >>= fun p => next p.1 p.2) = .error e
  rw [run]
  rfl

/-- A sequence succeeds when its first part does and its second part does from there. -/
theorem bind_run_ok_iff {first : StateT σ (Except ε) α} {next : α → StateT σ (Except ε) β} {s : σ}
    {result : β × σ} :
    (first >>= next) s = .ok result ↔ ∃ a t, first s = .ok (a, t) ∧ next a t = .ok result := by
  constructor
  · intro run
    cases step : first s with
    | error e =>
        rw [bind_run_error step] at run
        cases run
    | ok pair =>
        rw [bind_run (a := pair.1) (t := pair.2) step] at run
        exact ⟨pair.1, pair.2, rfl, run⟩
  · rintro ⟨a, t, step, run⟩
    rw [bind_run step, run]

theorem check_run {c : Prop} [Decidable c] {e : ε} {s : σ} (passes : ¬ c) :
    check c e s = .ok ((), s) := if_neg passes

theorem Accepts.pure (b : β) : Accepts R (Pure.pure b : StateT ρ (Except ε) β) [] b := by
  intro s rest inv view
  exact ⟨s, rfl, inv, view⟩

theorem Accepts.bind {r : StateT ρ (Except ε) α} {next : α → StateT ρ (Except ε) β}
    {front back : List τ} {a : α} {b : β} (first : Accepts R r front a)
    (second : Accepts R (next a) back b) : Accepts R (r >>= next) (front ++ back) b := by
  intro s rest inv view
  rw [List.append_assoc] at view
  obtain ⟨s', run, inv', view'⟩ := first s (back ++ rest) inv view
  obtain ⟨t, run', inv₂, view₂⟩ := second s' rest inv' view'
  exact ⟨t, by rw [bind_run run, run'], inv₂, view₂⟩

/-- A first part that takes no token. -/
theorem Accepts.step {r : StateT ρ (Except ε) α} {next : α → StateT ρ (Except ε) β}
    {tokens : List τ} {a : α} {b : β} (first : Accepts R r [] a)
    (second : Accepts R (next a) tokens b) : Accepts R (r >>= next) tokens b :=
  first.bind second

/-- A second part that takes no token. -/
theorem Accepts.last {r : StateT ρ (Except ε) α} {next : α → StateT ρ (Except ε) β}
    {tokens : List τ} {a : α} {b : β} (first : Accepts R r tokens a)
    (second : Accepts R (next a) [] b) : Accepts R (r >>= next) tokens b := by
  have whole := first.bind second
  rwa [List.append_nil] at whole

theorem Accepts.check {c : Prop} [Decidable c] (e : ε) (passes : ¬ c) :
    Accepts R (Vtm.Std.check c e) [] () := by
  intro s rest inv view
  exact ⟨s, check_run passes, inv, view⟩

theorem Codes.pure {post : α → β → Prop} {a : α} {b : β} (related : post a b) :
    Codes mayFail W R (Pure.pure a : StateT σ (Except δ) α) (Pure.pure b : StateT ρ (Except ε) β)
      post := by
  intro s inv
  exact Or.inr ⟨a, s, [], b, rfl, inv, by simp, related, Accepts.pure b⟩

theorem Codes.weaken {w : StateT σ (Except δ) α} {r : StateT ρ (Except ε) β}
    {post post' : α → β → Prop} (codes : Codes mayFail W R w r post)
    (weaker : ∀ a b, post a b → post' a b) : Codes mayFail W R w r post' := by
  intro s inv
  rcases codes s inv with failed | ⟨a, s', tokens, b, run, inv', appended, related, accepts⟩
  · exact Or.inl failed
  · exact Or.inr ⟨a, s', tokens, b, run, inv', appended, weaker a b related, accepts⟩

/-- Sequencing: the second parts only have to agree on related results of the
first parts. -/
theorem Codes.bind {α' β' : Type} {w : StateT σ (Except δ) α} {r : StateT ρ (Except ε) β}
    {w' : α → StateT σ (Except δ) α'} {r' : β → StateT ρ (Except ε) β'}
    {mid : α → β → Prop} {post : α' → β' → Prop} (first : Codes mayFail W R w r mid)
    (second : ∀ a b, mid a b → Codes mayFail W R (w' a) (r' b) post) :
    Codes mayFail W R (w >>= w') (r >>= r') post := by
  intro s inv
  rcases first s inv with ⟨may, e, failed⟩ | ⟨a, s', front, b, run, inv', appended, related, accepts⟩
  · exact Or.inl ⟨may, e, bind_run_error failed⟩
  · rw [bind_run run]
    rcases second a b related s' inv' with
      failed | ⟨a', t, back, b', run', inv₂, appended', related', accepts'⟩
    · exact Or.inl failed
    · refine Or.inr ⟨a', t, front ++ back, b', run', inv₂, ?_, related', accepts.bind accepts'⟩
      rw [appended', appended, List.append_assoc]

theorem Codes.writerCheck {c : Prop} [Decidable c] {e : δ} {w : StateT σ (Except δ) α}
    {r : StateT ρ (Except ε) β} {post : α → β → Prop} (allowed : mayFail ∨ ¬ c)
    (rest : ¬ c → Codes mayFail W R w r post) :
    Codes mayFail W R (Vtm.Std.check c e >>= fun _ => w) r post := by
  intro s inv
  by_cases stops : c
  · have may : mayFail := allowed.resolve_right fun passes => passes stops
    have failed : (Vtm.Std.check c e : StateT σ (Except δ) Unit) s = .error e := if_pos stops
    exact Or.inl ⟨may, e, bind_run_error failed⟩
  · rw [bind_run (check_run stops)]
    exact rest stops s inv

/-- A check of the writer at its end. -/
theorem Codes.writerGuard {c : Prop} [Decidable c] {e : δ} {b : β} {post : Unit → β → Prop}
    (allowed : mayFail ∨ ¬ c) (related : ¬ c → post () b) :
    Codes mayFail W R (Vtm.Std.check c e : StateT σ (Except δ) Unit)
      (Pure.pure b : StateT ρ (Except ε) β) post := by
  intro s inv
  by_cases stops : c
  · exact Or.inl ⟨allowed.resolve_right fun passes => passes stops, e, if_pos stops⟩
  · exact Or.inr ⟨(), s, [], b, check_run stops, inv, by simp, related stops, Accepts.pure b⟩

/-- A step of the reader alone that takes no token. -/
theorem Codes.readerStep {β' : Type} {w : StateT σ (Except δ) α} {r : StateT ρ (Except ε) β}
    {next : β → StateT ρ (Except ε) β'} {b : β} {post : α → β' → Prop} (step : Accepts R r [] b)
    (rest : Codes mayFail W R w (next b) post) :
    Codes mayFail W R w (r >>= next) post := by
  intro s inv
  rcases rest s inv with failed | ⟨a, s', tokens, b', run, inv', appended, related, accepts⟩
  · exact Or.inl failed
  · exact Or.inr ⟨a, s', tokens, b', run, inv', appended, related, step.bind accepts⟩

/-- The reader may go on without taking a token. -/
theorem Codes.readerAfter {β' : Type} {w : StateT σ (Except δ) α} {r : StateT ρ (Except ε) β}
    {next : β → StateT ρ (Except ε) β'} {post : α → β → Prop} {post' : α → β' → Prop}
    (codes : Codes mayFail W R w r post)
    (after : ∀ a b, post a b → ∃ b', Accepts R (next b) [] b' ∧ post' a b') :
    Codes mayFail W R w (r >>= next) post' := by
  intro s inv
  rcases codes s inv with failed | ⟨a, s', tokens, b, run, inv', appended, before, accepts⟩
  · exact Or.inl failed
  · obtain ⟨b', ends, related⟩ := after a b before
    refine Or.inr ⟨a, s', tokens, b', run, inv', appended, related, ?_⟩
    have whole : Accepts R (r >>= next) (tokens ++ []) b' := accepts.bind ends
    rwa [List.append_nil] at whole

/-- The reader may convert its result. -/
theorem Codes.readerMap {β' : Type} {w : StateT σ (Except δ) α} {r : StateT ρ (Except ε) β}
    {post : α → β → Prop} {post' : α → β' → Prop} (f : β → β') (codes : Codes mayFail W R w r post)
    (related : ∀ a b, post a b → post' a (f b)) :
    Codes mayFail W R w (r >>= fun b => Pure.pure (f b)) post' :=
  codes.readerAfter fun a b before => ⟨f b, Accepts.pure (f b), related a b before⟩

/-- Neither program touches the tokens. -/
theorem Codes.silent {w : StateT σ (Except δ) α} {r : StateT ρ (Except ε) β} {a : α} {b : β}
    {post : α → β → Prop} (wrote : ∀ s, w s = .ok (a, s)) (parsed : ∀ t, r t = .ok (b, t))
    (related : post a b) : Codes mayFail W R w r post := by
  intro s inv
  refine Or.inr ⟨a, s, [], b, wrote s, inv, by simp, related, ?_⟩
  intro t rest ready next
  exact ⟨t, parsed t, ready, next⟩

/-- A step of the writer alone that appends nothing. -/
theorem Codes.writerStep {α' : Type} {w : StateT σ (Except δ) α} {next : α → StateT σ (Except δ) α'}
    {r : StateT ρ (Except ε) β} {post : α' → β → Prop} (result : α → Prop)
    (step : ∀ s, (mayFail ∧ ∃ e, w s = .error e) ∨ ∃ a, w s = .ok (a, s) ∧ result a)
    (rest : ∀ a, result a → Codes mayFail W R (next a) r post) :
    Codes mayFail W R (w >>= next) r post := by
  intro s inv
  rcases step s with ⟨may, e, failed⟩ | ⟨a, run, holds⟩
  · exact Or.inl ⟨may, e, bind_run_error failed⟩
  · rw [bind_run run]
    exact rest a holds s inv

/-- Two loops of as many rounds, related by an invariant of the items left. -/
theorem Codes.foldlM {ι κ : Type} {f : α → ι → StateT σ (Except δ) α}
    {g : β → κ → StateT ρ (Except ε) β} (loopInv : List ι → List κ → α → β → Prop)
    (step : ∀ item rest item' rest' a b, loopInv (item :: rest) (item' :: rest') a b →
      Codes mayFail W R (f a item) (g b item') (loopInv rest rest'))
    (items : List ι) (items' : List κ) (rounds : items.length = items'.length) {a : α} {b : β}
    (start : loopInv items items' a b) :
    Codes mayFail W R (items.foldlM f a) (items'.foldlM g b) (loopInv [] []) := by
  induction items generalizing items' a b with
  | nil =>
      cases items' with
      | nil => exact Codes.pure start
      | cons item' rest' => simp at rounds
  | cons item rest ih =>
      cases items' with
      | nil => simp at rounds
      | cons item' rest' =>
          rw [List.foldlM_cons, List.foldlM_cons]
          exact (step item rest item' rest' a b start).bind fun a' b' related =>
            ih rest' (by simpa using rounds) related

/-- Two loops over the same positions, with an invariant of the position. -/
theorem Codes.range' {f : α → Nat → StateT σ (Except δ) α} {g : β → Nat → StateT ρ (Except ε) β}
    (loopInv : Nat → α → β → Prop) {start count : Nat}
    (step : ∀ i a b, start ≤ i → i < start + count → loopInv i a b →
      Codes mayFail W R (f a i) (g b i) (loopInv (i + 1)))
    {a : α} {b : β} (begin : loopInv start a b) :
    Codes mayFail W R ((List.range' start count).foldlM f a) ((List.range' start count).foldlM g b)
      (loopInv (start + count)) := by
  induction count generalizing start a b with
  | zero => exact Codes.pure begin
  | succ count ih =>
      rw [List.range'_succ, List.foldlM_cons, List.foldlM_cons]
      refine (step start a b (Nat.le_refl start) (by omega) begin).bind fun a' b' related => ?_
      have next := ih (fun i a b low high => step i a b (by omega) (by omega)) related
      rwa [Nat.add_assoc, Nat.add_comm 1 count] at next

/-- A loop over items against a loop that collects a value for each of them. -/
theorem Codes.collect {ι : Type} {w : ι → StateT σ (Except δ) Unit}
    {r : ι → StateT ρ (Except ε) β} (f : ι → β) (items : List ι)
    (each : ∀ i ∈ items, Codes mayFail W R (w i) (r i) (fun _ value => value = f i)) :
    Codes mayFail W R (items.foldlM (fun _ i => w i) ())
      (items.foldlM (fun values i => do return values ++ [← r i]) [])
      (fun _ values => values = items.map f) := by
  -- what has been collected, followed by what is left to read, is the whole list
  refine (Codes.foldlM (fun left left' _ values =>
    left = left' ∧ (∀ i ∈ left, i ∈ items) ∧ values ++ left.map f = items.map f) ?_ items items rfl
    ⟨rfl, fun _ member => member, rfl⟩).weaken ?_
  · rintro i rest i' rest' _ values ⟨same, members, joined⟩
    obtain ⟨rfl, rfl⟩ := List.cons.inj same
    refine Codes.readerMap (fun value => values ++ [value]) (each i (members i (by simp))) ?_
    rintro _ _ rfl
    exact ⟨rfl, fun j member => members j (by simp [member]), by simpa using joined⟩
  · rintro _ values ⟨_, _, joined⟩
    simpa using joined

/-- A reader that only takes allowed tokens from the front. -/
def Takes (allowed : τ → Prop) (r : StateT (List τ) (Except ε) β) : Prop :=
  ∀ s b s', r s = .ok (b, s') → ∃ taken, s = taken ++ s' ∧ ∀ token ∈ taken, allowed token

variable {allowed : τ → Prop}

theorem Takes.pure (b : β) : Takes allowed (Pure.pure b : StateT (List τ) (Except ε) β) := by
  rintro s _ _ ⟨⟩
  exact ⟨[], rfl, by simp⟩

theorem Takes.error (e : ε) : Takes allowed (fun _ => .error e : StateT (List τ) (Except ε) β) := by
  rintro s _ _ ⟨⟩

theorem Takes.check (c : Prop) [Decidable c] (e : ε) :
    Takes allowed (Vtm.Std.check c e : StateT (List τ) (Except ε) Unit) := by
  intro s b s' run
  unfold Vtm.Std.check at run
  split at run
  · cases run
  · cases run
    exact ⟨[], rfl, by simp⟩

theorem Takes.bind {r : StateT (List τ) (Except ε) α} {next : α → StateT (List τ) (Except ε) β}
    (first : Takes allowed r) (second : ∀ a, Takes allowed (next a)) :
    Takes allowed (r >>= next) := by
  intro s b s' run
  rcases ran : r s with e | ⟨a, middle⟩
  · rw [bind_run_error ran] at run
    cases run
  · rw [bind_run ran] at run
    obtain ⟨front, split, front_allowed⟩ := first s a middle ran
    obtain ⟨back, split', back_allowed⟩ := second a middle b s' run
    refine ⟨front ++ back, by rw [split, split', List.append_assoc], ?_⟩
    intro token member
    rcases List.mem_append.mp member with inFront | inBack
    · exact front_allowed token inFront
    · exact back_allowed token inBack

theorem Takes.ite {c : Prop} [Decidable c] {r r' : StateT (List τ) (Except ε) β}
    (yes : Takes allowed r) (no : Takes allowed r') : Takes allowed (if c then r else r') := by
  split
  · exact yes
  · exact no

theorem Takes.foldlM {ι : Type} {f : β → ι → StateT (List τ) (Except ε) β}
    (step : ∀ b i, Takes allowed (f b i)) (items : List ι) (b : β) :
    Takes allowed (items.foldlM f b) := by
  induction items generalizing b with
  | nil => exact Takes.pure b
  | cons i rest ih =>
      rw [List.foldlM_cons]
      exact (step b i).bind ih

/-- A program whose results have a property. -/
def Yields (r : StateT σ (Except ε) β) (post : β → Prop) : Prop :=
  ∀ s b s', r s = .ok (b, s') → post b

theorem Yields.trivial (r : StateT σ (Except ε) β) : Yields r fun _ => True :=
  fun _ _ _ _ => True.intro

theorem Yields.pure {post : β → Prop} {b : β} (holds : post b) :
    Yields (Pure.pure b : StateT σ (Except ε) β) post := by
  rintro s _ _ ⟨⟩
  exact holds

theorem Yields.bind {r : StateT σ (Except ε) α} {next : α → StateT σ (Except ε) β}
    {mid : α → Prop} {post : β → Prop} (first : Yields r mid)
    (second : ∀ a, mid a → Yields (next a) post) : Yields (r >>= next) post := by
  intro s b s' run
  rcases ran : r s with e | ⟨a, middle⟩
  · rw [bind_run_error ran] at run
    cases run
  · rw [bind_run ran] at run
    exact second a (first s a middle ran) middle b s' run

theorem Yields.weaken {r : StateT σ (Except ε) β} {post post' : β → Prop} (yields : Yields r post)
    (weaker : ∀ b, post b → post' b) : Yields r post' :=
  fun s b s' run => weaker b (yields s b s' run)

/-- A loop over positions, with an invariant of the position. -/
theorem Yields.foldlM_range {f : β → Nat → StateT σ (Except ε) β} (loopInv : Nat → β → Prop)
    {count : Nat} (step : ∀ i b, i < count → loopInv i b → Yields (f b i) (loopInv (i + 1)))
    {b : β} (begin : loopInv 0 b) : Yields ((List.range count).foldlM f b) (loopInv count) := by
  induction count with
  | zero => exact Yields.pure begin
  | succ count ih =>
      rw [List.range_succ, List.foldlM_append]
      refine (ih fun i b below => step i b (by omega)).bind fun b' reached => ?_
      rw [List.foldlM_cons]
      exact (step count b' (Nat.lt_succ_self count) reached).bind fun _ => Yields.pure

/-- A run of the writer that succeeds. -/
theorem Codes.of_run {w : StateT σ (Except δ) α} {r : StateT ρ (Except ε) β}
    {post : α → β → Prop} (codes : Codes mayFail W R w r post) {s s' : σ} {a : α}
    (inv : W.inv s) (run : w s = .ok (a, s')) :
    ∃ tokens b, W.inv s' ∧ W.tokens s' = W.tokens s ++ tokens ∧ post a b ∧
      Accepts R r tokens b := by
  rcases codes s inv with ⟨_, e, failed⟩ | ⟨a', s₂, tokens, b, run', inv', appended, related, accepts⟩
  · rw [failed] at run
    cases run
  · rw [run'] at run
    cases run
    exact ⟨tokens, b, inv', appended, related, accepts⟩

/-- A reader returns one value on a code and on whatever it leads. -/
theorem Accepts.eq_of_commonStart {r : StateT (List τ) (Except ε) β} {tokens tokens' : List τ} {a b : β}
    (first : Accepts (View.list τ) r tokens a) (second : Accepts (View.list τ) r tokens' b)
    (lead : tokens <+: tokens') : a = b := by
  obtain ⟨rest, rfl⟩ := lead
  obtain ⟨_, run, -⟩ := first (tokens ++ rest) rest trivial rfl
  obtain ⟨_, run', -⟩ := second (tokens ++ rest) [] trivial (List.append_nil _).symm
  cases run.symm.trans run'
  rfl

end

end Vtm.Std

/-!
## Counting tokens

How many tokens a writer appends, and how many a reader takes for the result it
returns. A reader that has lost its place is refuted by counting: where its
result could only have cost more tokens than were written, it did not stop right
behind them.
-/

namespace Vtm.Std

section

variable {σ ρ τ δ ε α β : Type} {W : View σ τ} {R : View ρ τ}

/-- The writer returns `a` and appends `n` tokens. -/
def Appends (W : View σ τ) (w : StateT σ (Except δ) α) (a : α) (n : Nat) : Prop :=
  ∀ s, W.inv s → ∃ s', w s = .ok (a, s') ∧ W.inv s' ∧
    (W.tokens s').length = (W.tokens s).length + n

/-- Whenever the reader returns, `post` relates its result to the number of tokens
it took. -/
def Spends (R : View ρ τ) (r : StateT ρ (Except ε) β) (post : β → Nat → Prop) : Prop :=
  ∀ s b s', R.inv s → r s = .ok (b, s') →
    R.inv s' ∧ ∃ n, (R.tokens s).length = n + (R.tokens s').length ∧ post b n

theorem Appends.pure (a : α) : Appends W (Pure.pure a : StateT σ (Except δ) α) a 0 := by
  intro s inv
  exact ⟨s, rfl, inv, rfl⟩

theorem Appends.bind {w : StateT σ (Except δ) α} {next : α → StateT σ (Except δ) β} {a : α} {b : β}
    {n m : Nat} (first : Appends W w a n) (second : Appends W (next a) b m) :
    Appends W (w >>= next) b (n + m) := by
  intro s inv
  obtain ⟨t, run, inv', more⟩ := first s inv
  obtain ⟨u, run', inv₂, more'⟩ := second t inv'
  exact ⟨u, by rw [bind_run run, run'], inv₂, by omega⟩

/-- A loop over positions that returns nothing. -/
theorem Appends.range' {w : Nat → StateT σ (Except δ) Unit} {size : Nat → Nat} {start count : Nat}
    (each : ∀ i, start ≤ i → i < start + count → Appends W (w i) () (size i)) :
    Appends W ((List.range' start count).foldlM (fun _ i => w i) ()) ()
      ((List.range' start count).map size).sum := by
  induction count generalizing start with
  | zero => exact Appends.pure ()
  | succ count ih =>
      rw [List.range'_succ, List.foldlM_cons, List.map_cons, List.sum_cons]
      refine (each start (Nat.le_refl _) (by omega)).bind ?_
      exact ih fun i low high => each i (by omega) (by omega)

theorem Spends.pure {post : β → Nat → Prop} {b : β} (holds : post b 0) :
    Spends R (Pure.pure b : StateT ρ (Except ε) β) post := by
  rintro s _ _ inv ⟨⟩
  exact ⟨inv, 0, by simp, holds⟩

theorem Spends.bind {r : StateT ρ (Except ε) α} {next : α → StateT ρ (Except ε) β}
    {mid : α → Nat → Prop} {post : β → Nat → Prop} (first : Spends R r mid)
    (second : ∀ a n, mid a n → Spends R (next a) (fun b m => post b (n + m))) :
    Spends R (r >>= next) post := by
  intro s b s' inv run
  obtain ⟨a, t, ran, rest⟩ := bind_run_ok_iff.mp run
  obtain ⟨inv', n, taken, middle⟩ := first s a t inv ran
  obtain ⟨inv₂, m, taken', holds⟩ := second a n middle t b s' inv' rest
  exact ⟨inv₂, n + m, by omega, holds⟩

theorem Spends.weaken {r : StateT ρ (Except ε) β} {post post' : β → Nat → Prop}
    (spends : Spends R r post) (weaker : ∀ b n, post b n → post' b n) : Spends R r post' := by
  intro s b s' inv run
  obtain ⟨inv', n, taken, holds⟩ := spends s b s' inv run
  exact ⟨inv', n, taken, weaker b n holds⟩

/-- A loop over positions, with an invariant of the position and the tokens so far. -/
theorem Spends.range' {f : β → Nat → StateT ρ (Except ε) β} (loopInv : Nat → β → Nat → Prop)
    {start count : Nat}
    (step : ∀ i b n, start ≤ i → i < start + count → loopInv i b n →
      Spends R (f b i) (fun b' m => loopInv (i + 1) b' (n + m)))
    {b : β} {n : Nat} (begin : loopInv start b n) :
    Spends R ((List.range' start count).foldlM f b)
      (fun b' m => loopInv (start + count) b' (n + m)) := by
  induction count generalizing start b n with
  | zero => exact Spends.pure begin
  | succ count ih =>
      rw [List.range'_succ, List.foldlM_cons]
      refine (step start b n (Nat.le_refl _) (by omega) begin).bind fun b' m held => ?_
      have next := ih (fun i b n low high => step i b n (by omega) (by omega)) held
      refine next.weaken fun b₂ k holds => ?_
      rwa [Nat.add_assoc start 1 count, Nat.add_comm 1 count, Nat.add_assoc] at holds

end

end Vtm.Std
