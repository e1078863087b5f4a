import Vtm.Std.Codec

/-!
# Readers that stop at a check

`Guards` says when a reader follows a writer and how it stops otherwise: if a
condition on the input holds, the reader accepts what the writer appends, with
related results; if not, it stops with one error on every input that starts with
what was written.
-/

namespace Vtm.Std

section

variable {σ ρ τ δ ε α α' β β' : Type} {W : View σ τ} {R : View ρ τ}

/-- What the writer appends has a related result, which is what the reader returns
if `c` holds. If not, the reader stops with `e`. -/
def Guards (W : View σ τ) (R : View ρ τ) (w : StateT σ (Except δ) α)
    (r : StateT ρ (Except ε) β) (c : Prop) (e : ε) (post : α → β → Prop) : Prop :=
  ∀ s, W.inv s →
    ∃ a s' tokens b, w s = .ok (a, s') ∧ W.inv s' ∧ W.tokens s' = W.tokens s ++ tokens ∧
      post a b ∧ (c → Accepts R r tokens b) ∧
      (¬ c → ∀ t rest, R.inv t → R.tokens t = tokens ++ rest → r t = .error e)

theorem Codes.guards {w : StateT σ (Except δ) α} {r : StateT ρ (Except ε) β} {e : ε}
    {post : α → β → Prop} (codes : Codes False W R w r post) : Guards W R w r True e post := by
  intro s inv
  rcases codes s inv with
    ⟨fails, _⟩ | ⟨a, s', tokens, b, run, inv', appended, related, accepts⟩
  · exact absurd fails not_false
  · exact ⟨a, s', tokens, b, run, inv', appended, related, fun _ => accepts,
      fun no => absurd True.intro no⟩

theorem Guards.codes {w : StateT σ (Except δ) α} {r : StateT ρ (Except ε) β} {c : Prop} {e : ε}
    {post : α → β → Prop} (guards : Guards W R w r c e post) (met : c) :
    Codes False W R w r post := by
  intro s inv
  obtain ⟨a, s', tokens, b, run, inv', appended, related, accepts, _⟩ := guards s inv
  exact Or.inr ⟨a, s', tokens, b, run, inv', appended, related, accepts met⟩

theorem Guards.congr {w : StateT σ (Except δ) α} {r : StateT ρ (Except ε) β} {c c' : Prop} {e : ε}
    {post : α → β → Prop} (guards : Guards W R w r c e post) (same : c' ↔ c) :
    Guards W R w r c' e post := by
  rwa [propext same]

theorem Guards.weaken {w : StateT σ (Except δ) α} {r : StateT ρ (Except ε) β} {c : Prop} {e : ε}
    {post post' : α → β → Prop} (guards : Guards W R w r c e post)
    (weaker : ∀ a b, post a b → post' a b) : Guards W R w r c e post' := by
  intro s inv
  obtain ⟨a, s', tokens, b, run, inv', appended, related, ends⟩ := guards s inv
  exact ⟨a, s', tokens, b, run, inv', appended, weaker a b related, ends⟩

theorem Guards.bind {w : StateT σ (Except δ) α} {r : StateT ρ (Except ε) β}
    {w' : α → StateT σ (Except δ) α'} {r' : β → StateT ρ (Except ε) β'} {mid : α → β → Prop}
    {c c' : Prop} {e : ε} {post : α' → β' → Prop} (first : Guards W R w r c e mid)
    (second : ∀ a b, mid a b → Guards W R (w' a) (r' b) c' e post) :
    Guards W R (w >>= w') (r >>= r') (c ∧ c') e post := by
  intro s inv
  obtain ⟨a, middle, front, b, run, inv', appended, related, accepts, stops⟩ := first s inv
  obtain ⟨a', s', back, b', run', inv₂, appended', related', accepts', stops'⟩ :=
    second a b related middle inv'
  refine ⟨a', s', front ++ back, b', by rw [bind_run run, run'], inv₂, ?_, related', ?_, ?_⟩
  · rw [appended', appended, List.append_assoc]
  · rintro ⟨met, met'⟩
    exact (accepts met).bind (accepts' met')
  · intro unmet t rest ready next
    rw [List.append_assoc] at next
    by_cases met : c
    · obtain ⟨t₁, ran, ready', next'⟩ := accepts met t (back ++ rest) ready next
      rw [bind_run ran]
      exact stops' (fun met' => unmet ⟨met, met'⟩) t₁ rest ready' next'
    · exact bind_run_error (stops met t (back ++ rest) ready next)

/-- A part that is always read back, in front of a guarded one. -/
theorem Guards.after {w : StateT σ (Except δ) α} {r : StateT ρ (Except ε) β}
    {w' : α → StateT σ (Except δ) α'} {r' : β → StateT ρ (Except ε) β'} {mid : α → β → Prop}
    {c : Prop} {e : ε} {post : α' → β' → Prop} (first : Codes False W R w r mid)
    (second : ∀ a b, mid a b → Guards W R (w' a) (r' b) c e post) :
    Guards W R (w >>= w') (r >>= r') c e post :=
  (first.guards.bind second).congr (by simp)

/-- A guarded part in front of one that is always read back. -/
theorem Guards.before {w : StateT σ (Except δ) α} {r : StateT ρ (Except ε) β}
    {w' : α → StateT σ (Except δ) α'} {r' : β → StateT ρ (Except ε) β'} {mid : α → β → Prop}
    {c : Prop} {e : ε} {post : α' → β' → Prop} (first : Guards W R w r c e mid)
    (second : ∀ a b, mid a b → Codes False W R (w' a) (r' b) post) :
    Guards W R (w >>= w') (r >>= r') c e post :=
  (first.bind fun a b related => (second a b related).guards).congr (by simp)

/-- A part that is always read back, at the end of the writer. -/
theorem Guards.last {w : StateT σ (Except δ) α} {r : StateT ρ (Except ε) β}
    {r' : β → StateT ρ (Except ε) β'} {mid : α → β → Prop} {c : Prop} {e : ε}
    {post : α → β' → Prop} (first : Codes False W R w r mid)
    (second : ∀ a b, mid a b → Guards W R (Pure.pure a : StateT σ (Except δ) α) (r' b) c e post) :
    Guards W R w (r >>= r') c e post := by
  have whole : Guards W R (w >>= Pure.pure) (r >>= r') c e post := Guards.after first second
  rwa [bind_pure] at whole

/-- The reader may convert its result. -/
theorem Guards.readerMap {w : StateT σ (Except δ) α} {r : StateT ρ (Except ε) β} {c : Prop} {e : ε}
    {post : α → β → Prop} {post' : α → β' → Prop} (g : β → β') (guards : Guards W R w r c e post)
    (related : ∀ a b, post a b → post' a (g b)) :
    Guards W R w (r >>= fun b => Pure.pure (g b)) c e post' := by
  have whole : Guards W R (w >>= Pure.pure) (r >>= fun b => Pure.pure (g b)) c e post' :=
    guards.before fun a b before => Codes.pure (related a b before)
  rwa [bind_pure] at whole

/-- A step of the reader alone that takes no token. -/
theorem Guards.readerStep {w : StateT σ (Except δ) α} {r : StateT ρ (Except ε) β}
    {next : β → StateT ρ (Except ε) β'} {b : β} {c : Prop} {e : ε} {post : α → β' → Prop}
    (step : Accepts R r [] b) (rest : Guards W R w (next b) c e post) :
    Guards W R w (r >>= next) c e post := by
  intro s inv
  obtain ⟨a, s', tokens, b', run, inv', appended, related, accepts, stops⟩ := rest s inv
  refine ⟨a, s', tokens, b', run, inv', appended, related, fun met => step.bind (accepts met), ?_⟩
  intro unmet t rest ready next'
  obtain ⟨t₁, ran, ready', next₁⟩ := step t (tokens ++ rest) ready next'
  rw [bind_run ran]
  exact stops unmet t₁ rest ready' next₁

/-- A check of the writer alone, which passes. -/
theorem Guards.writerCheck {c c' : Prop} [Decidable c] {e : ε} {message : δ}
    {w : StateT σ (Except δ) α} {r : StateT ρ (Except ε) β} {post : α → β → Prop} (passes : ¬ c)
    (rest : Guards W R w r c' e post) :
    Guards W R (Vtm.Std.check c message >>= fun _ => w) r c' e post := by
  intro s inv
  rw [bind_run (check_run passes)]
  exact rest s inv

/-- A check of the reader alone. -/
theorem Guards.readerCheck {c c' : Prop} [Decidable c] {e : ε} {w : StateT σ (Except δ) α}
    {r : StateT ρ (Except ε) β} {post : α → β → Prop} (rest : Guards W R w r c' e post) :
    Guards W R w (Vtm.Std.check c e >>= fun _ => r) (¬ c ∧ c') e post := by
  intro s inv
  obtain ⟨a, s', tokens, b, run, inv', appended, related, accepts, stops⟩ := rest s inv
  refine ⟨a, s', tokens, b, run, inv', appended, related, ?_, ?_⟩
  · rintro ⟨passes, met⟩
    exact (Accepts.check e passes).bind (accepts met)
  · intro unmet t rest ready next
    by_cases fails : c
    · exact bind_run_error (if_pos fails)
    · rw [bind_run (check_run fails)]
      exact stops (fun met => unmet ⟨fails, met⟩) t rest ready next

/-- Two loops over the same positions, with an invariant of the position. -/
theorem Guards.range' {f : α → Nat → StateT σ (Except δ) α} {g : β → Nat → StateT ρ (Except ε) β}
    (loopInv : Nat → α → β → Prop) (c : Nat → Prop) {e : ε} {start count : Nat}
    (step : ∀ i a b, start ≤ i → i < start + count → loopInv i a b →
      Guards W R (f a i) (g b i) (c i) e (loopInv (i + 1)))
    {a : α} {b : β} (begin : loopInv start a b) :
    Guards W R ((List.range' start count).foldlM f a) ((List.range' start count).foldlM g b)
      (∀ i, start ≤ i → i < start + count → c i) e (loopInv (start + count)) := by
  induction count generalizing start a b with
  | zero =>
      refine (Codes.guards (Codes.pure begin)).congr (iff_of_true ?_ True.intro)
      intro i low high
      omega
  | succ count ih =>
      rw [List.range'_succ, List.foldlM_cons, List.foldlM_cons]
      have next : ∀ a' b', loopInv (start + 1) a' b' →
          Guards W R ((List.range' (start + 1) count).foldlM f a')
            ((List.range' (start + 1) count).foldlM g b')
            (∀ i, start + 1 ≤ i → i < start + 1 + count → c i) e
            (loopInv (start + (count + 1))) := by
        intro a' b' related
        have later := ih (fun i a b low high => step i a b (by omega) (by omega)) related
        rwa [Nat.add_assoc start 1 count, Nat.add_comm 1 count] at later ⊢
      refine ((step start a b (Nat.le_refl _) (by omega) begin).bind next).congr
        ⟨fun all => ⟨?_, ?_⟩, ?_⟩
      · exact all start (Nat.le_refl _) (by omega)
      · exact fun i low high => all i (by omega) (by omega)
      · rintro ⟨here, later⟩ i low high
        by_cases first : i = start
        · rw [first]
          exact here
        · exact later i (by omega) (by omega)

end

end Vtm.Std
