import Vtm.Std.Codec

/-!
# When a reader gives back what was written

`Codes` says that a reader always gives back what was written. `Settles` says
when it does: if a condition on the input holds, the reader accepts what the
writer appends, with related results; if it does not hold, no run of the reader
on it ends in a related result, whether the reader has lost its place or not.
-/

namespace Vtm.Std

section

variable {σ ρ τ δ ε α α' β β' : Type} {W : View σ τ} {R : View ρ τ}

/-- The writer succeeds and only appends. -/
def Writes (W : View σ τ) (w : StateT σ (Except δ) α) : Prop :=
  ∀ s, W.inv s →
    ∃ a s' tokens, w s = .ok (a, s') ∧ W.inv s' ∧ W.tokens s' = W.tokens s ++ tokens

/-- No result of the writer is related to a result of the reader, whatever is read. -/
def Refutes (w : StateT σ (Except δ) α) (r : StateT ρ (Except ε) β) (post : α → β → Prop) : Prop :=
  ∀ s a s' t b t', w s = .ok (a, s') → r t = .ok (b, t') → ¬ post a b

/-- What the writer appends is read back with related results exactly when `c` holds. -/
def Settles (W : View σ τ) (R : View ρ τ) (w : StateT σ (Except δ) α)
    (r : StateT ρ (Except ε) β) (c : Prop) (post : α → β → Prop) : Prop :=
  ∀ s, W.inv s →
    ∃ a s' tokens, w s = .ok (a, s') ∧ W.inv s' ∧ W.tokens s' = W.tokens s ++ tokens ∧
      (c → ∃ b, post a b ∧ Accepts R r tokens b) ∧
      (¬ c → ∀ t rest b t', R.inv t → R.tokens t = tokens ++ rest → r t = .ok (b, t') →
        ¬ post a b)

/-- The writer may convert its result. -/
theorem Codes.writerMap {mayFail : Prop} {w : StateT σ (Except δ) α} {r : StateT ρ (Except ε) β}
    {post : α → β → Prop} {post' : α' → β → Prop} (f : α → α')
    (codes : Codes mayFail W R w r post) (related : ∀ a b, post a b → post' (f a) b) :
    Codes mayFail W R (w >>= fun a => Pure.pure (f a)) r post' := by
  intro s inv
  rcases codes s inv with ⟨may, e, failed⟩ | ⟨a, s', tokens, b, run, inv', appended, before, accepts⟩
  · exact Or.inl ⟨may, e, bind_run_error failed⟩
  · exact Or.inr ⟨f a, s', tokens, b, bind_run run, inv', appended, related a b before, accepts⟩

/-! ## Writers that succeed -/

theorem Writes.pure (a : α) : Writes W (Pure.pure a : StateT σ (Except δ) α) := by
  intro s inv
  exact ⟨a, s, [], rfl, inv, by simp⟩

theorem Writes.bind {w : StateT σ (Except δ) α} {next : α → StateT σ (Except δ) α'}
    (first : Writes W w) (second : ∀ a, Writes W (next a)) : Writes W (w >>= next) := by
  intro s inv
  obtain ⟨a, middle, front, run, inv', appended⟩ := first s inv
  obtain ⟨a', s', back, run', inv₂, appended'⟩ := second a middle inv'
  refine ⟨a', s', front ++ back, by rw [bind_run run, run'], inv₂, ?_⟩
  rw [appended', appended, List.append_assoc]

theorem Codes.writes {w : StateT σ (Except δ) α} {r : StateT ρ (Except ε) β} {post : α → β → Prop}
    (codes : Codes False W R w r post) : Writes W w := by
  intro s inv
  rcases codes s inv with ⟨fails, _⟩ | ⟨a, s', tokens, _, run, inv', appended, _⟩
  · exact absurd fails not_false
  · exact ⟨a, s', tokens, run, inv', appended⟩

theorem Settles.writes {w : StateT σ (Except δ) α} {r : StateT ρ (Except ε) β} {c : Prop}
    {post : α → β → Prop} (settles : Settles W R w r c post) : Writes W w := by
  intro s inv
  obtain ⟨a, s', tokens, run, inv', appended, _⟩ := settles s inv
  exact ⟨a, s', tokens, run, inv', appended⟩

/-! ## Results that are never related -/

theorem Refutes.pure {a : α} {b : β} {post : α → β → Prop} (unrelated : ¬ post a b) :
    Refutes (Pure.pure a : StateT σ (Except δ) α) (Pure.pure b : StateT ρ (Except ε) β) post := by
  rintro s _ _ t _ _ ⟨⟩ ⟨⟩
  exact unrelated

theorem Refutes.readerPure {w : StateT σ (Except δ) α} {b : β} {post : α → β → Prop}
    (unrelated : ∀ a, ¬ post a b) : Refutes w (Pure.pure b : StateT ρ (Except ε) β) post := by
  rintro s a s' t _ _ _ ⟨⟩
  exact unrelated a

theorem Refutes.writer {w : StateT σ (Except δ) α} {w' : α → StateT σ (Except δ) α'}
    {r : StateT ρ (Except ε) β} {post : α' → β → Prop} (rest : ∀ a, Refutes (w' a) r post) :
    Refutes (w >>= w') r post := by
  intro s a' s' t b t' wrote parsed
  rcases ran : w s with e | ⟨a, middle⟩
  · rw [bind_run_error ran] at wrote
    cases wrote
  · rw [bind_run ran] at wrote
    exact rest a middle a' s' t b t' wrote parsed

theorem Refutes.reader {w : StateT σ (Except δ) α} {r : StateT ρ (Except ε) β}
    {r' : β → StateT ρ (Except ε) β'} {post : α → β' → Prop} (rest : ∀ b, Refutes w (r' b) post) :
    Refutes w (r >>= r') post := by
  intro s a s' t b' t' wrote parsed
  rcases ran : r t with e | ⟨b, middle⟩
  · rw [bind_run_error ran] at parsed
    cases parsed
  · rw [bind_run ran] at parsed
    exact rest b s a s' middle b' t' wrote parsed

theorem Refutes.bind {w : StateT σ (Except δ) α} {w' : α → StateT σ (Except δ) α'}
    {r : StateT ρ (Except ε) β} {r' : β → StateT ρ (Except ε) β'} {post : α' → β' → Prop}
    (rest : ∀ a b, Refutes (w' a) (r' b) post) : Refutes (w >>= w') (r >>= r') post :=
  Refutes.writer fun a => Refutes.reader fun b => rest a b

theorem Refutes.of_yields {w : StateT σ (Except δ) α} {r : StateT ρ (Except ε) β}
    {left : α → Prop} {right : β → Prop} {post : α → β → Prop} (written : Yields w left)
    (parsed : Yields r right) (unrelated : ∀ a b, left a → right b → ¬ post a b) :
    Refutes w r post :=
  fun s a s' t b t' wrote read =>
    unrelated a b (written s a s' wrote) (parsed t b t' read)

/-! ## Settling -/

/-- A reader that keeps in step may still come to unrelated results. -/
theorem Codes.settles {w : StateT σ (Except δ) α} {r : StateT ρ (Except ε) β} {c : Prop}
    {post : α → β → Prop} (codes : Codes False W R w r fun a b => (post a b ↔ c)) :
    Settles W R w r c post := by
  intro s inv
  rcases codes s inv with
    ⟨fails, _⟩ | ⟨a, s', tokens, b, run, inv', appended, related, accepts⟩
  · exact absurd fails not_false
  · refine ⟨a, s', tokens, run, inv', appended, fun holds => ⟨b, related.mpr holds, accepts⟩, ?_⟩
    intro fails t rest b' t' ready next parsed
    obtain ⟨_, run', _⟩ := accepts t rest ready next
    rw [run'] at parsed
    cases parsed
    exact mt related.mp fails

theorem Codes.settled {w : StateT σ (Except δ) α} {r : StateT ρ (Except ε) β} {post : α → β → Prop}
    (codes : Codes False W R w r post) : Settles W R w r True post :=
  Codes.settles (codes.weaken fun _ _ related => iff_of_true related True.intro)

theorem Settles.refuted {w : StateT σ (Except δ) α} {r : StateT ρ (Except ε) β} {c : Prop}
    {post : α → β → Prop} (fails : ¬ c) (writes : Writes W w) (refutes : Refutes w r post) :
    Settles W R w r c post := by
  intro s inv
  obtain ⟨a, s', tokens, run, inv', appended⟩ := writes s inv
  refine ⟨a, s', tokens, run, inv', appended, fun holds => absurd holds fails, ?_⟩
  intro _ t rest b t' _ _ parsed
  exact refutes s a s' t b t' run parsed

theorem Settles.congr {w : StateT σ (Except δ) α} {r : StateT ρ (Except ε) β} {c c' : Prop}
    {post : α → β → Prop} (settles : Settles W R w r c post) (same : c' ↔ c) :
    Settles W R w r c' post := by
  rwa [propext same]

/-- The writer may convert its result. -/
theorem Settles.writerMap {w : StateT σ (Except δ) α} {r : StateT ρ (Except ε) β} {c : Prop}
    {post : α → β → Prop} {post' : α' → β → Prop} (f : α → α') (settles : Settles W R w r c post)
    (related : ∀ a b, post' (f a) b ↔ post a b) :
    Settles W R (w >>= fun a => Pure.pure (f a)) r c post' := by
  intro s inv
  obtain ⟨a, s', tokens, run, inv', appended, holds, fails⟩ := settles s inv
  refine ⟨f a, s', tokens, bind_run run, inv', appended, ?_, ?_⟩
  · intro met
    obtain ⟨b, before, accepts⟩ := holds met
    exact ⟨b, (related a b).mpr before, accepts⟩
  · intro unmet t rest b t' ready next parsed
    exact mt (related a b).mp (fails unmet t rest b t' ready next parsed)

/-- The reader may convert its result. -/
theorem Settles.readerMap {w : StateT σ (Except δ) α} {r : StateT ρ (Except ε) β} {c : Prop}
    {post : α → β → Prop} {post' : α → β' → Prop} (g : β → β') (settles : Settles W R w r c post)
    (related : ∀ a b, post' a (g b) ↔ post a b) :
    Settles W R w (r >>= fun b => Pure.pure (g b)) c post' := by
  intro s inv
  obtain ⟨a, s', tokens, run, inv', appended, holds, fails⟩ := settles s inv
  refine ⟨a, s', tokens, run, inv', appended, ?_, ?_⟩
  · intro met
    obtain ⟨b, before, accepts⟩ := holds met
    have whole : Accepts R (r >>= fun b => Pure.pure (g b)) (tokens ++ []) (g b) :=
      accepts.bind (Accepts.pure (g b))
    rw [List.append_nil] at whole
    exact ⟨g b, (related a b).mpr before, whole⟩
  · intro unmet t rest b' t' ready next parsed
    rcases ran : r t with e | ⟨b, t₁⟩
    · rw [bind_run_error ran] at parsed
      cases parsed
    · rw [bind_run ran] at parsed
      cases parsed
      exact mt (related a b).mp (fails unmet t rest b _ ready next ran)

/-- Both may convert their results. -/
theorem Settles.map {w : StateT σ (Except δ) α} {r : StateT ρ (Except ε) β} {c : Prop}
    {post : α → β → Prop} {post' : α' → β' → Prop} (f : α → α') (g : β → β')
    (settles : Settles W R w r c post) (related : ∀ a b, post' (f a) (g b) ↔ post a b) :
    Settles W R (w >>= fun a => Pure.pure (f a)) (r >>= fun b => Pure.pure (g b)) c post' := by
  have converted : Settles W R w (r >>= fun b => Pure.pure (g b)) c fun a b => post' (f a) b :=
    settles.readerMap g related
  exact converted.writerMap f fun _ _ => Iff.rfl

/-- A part that is always read back, in front of one that is settled. -/
theorem Settles.after {w : StateT σ (Except δ) α} {r : StateT ρ (Except ε) β}
    {w' : α → StateT σ (Except δ) α'} {r' : β → StateT ρ (Except ε) β'} {mid : α → β → Prop}
    {c : Prop} {post : α' → β' → Prop} (first : Codes False W R w r mid)
    (second : ∀ a b, mid a b → Settles W R (w' a) (r' b) c post) :
    Settles W R (w >>= w') (r >>= r') c post := by
  intro s inv
  rcases first s inv with
    ⟨fails, _⟩ | ⟨a, middle, front, b, run, inv', appended, related, accepts⟩
  · exact absurd fails not_false
  · obtain ⟨a', s', back, run', inv₂, appended', holds, fails⟩ := second a b related middle inv'
    refine ⟨a', s', front ++ back, by rw [bind_run run, run'], inv₂, ?_, ?_, ?_⟩
    · rw [appended', appended, List.append_assoc]
    · intro met
      obtain ⟨b', related', accepts'⟩ := holds met
      exact ⟨b', related', accepts.bind accepts'⟩
    · intro unmet t rest b' t' ready next parsed
      rw [List.append_assoc] at next
      obtain ⟨t₁, ran, ready', next'⟩ := accepts t (back ++ rest) ready next
      rw [bind_run ran] at parsed
      exact fails unmet t₁ rest b' t' ready' next' parsed

/-- A part that is always read back, at the end of the writer. -/
theorem Settles.last {w : StateT σ (Except δ) α} {r : StateT ρ (Except ε) β}
    {r' : β → StateT ρ (Except ε) β'} {mid : α → β → Prop} {c : Prop} {post : α → β' → Prop}
    (first : Codes False W R w r mid)
    (second : ∀ a b, mid a b → Settles W R (Pure.pure a : StateT σ (Except δ) α) (r' b) c post) :
    Settles W R w (r >>= r') c post := by
  have whole : Settles W R (w >>= Pure.pure) (r >>= r') c post := Settles.after first second
  rwa [bind_pure] at whole

/-- Two settled parts in a row, where the results of the first writer are known to be among
`result`. Where the first part is not read back, nothing that follows may make up for it. -/
theorem Settles.bind {w : StateT σ (Except δ) α} {r : StateT ρ (Except ε) β}
    {w' : α → StateT σ (Except δ) α'} {r' : β → StateT ρ (Except ε) β'} {mid : α → β → Prop}
    {result : α → Prop} {c c' : Prop} {post : α' → β' → Prop} (first : Settles W R w r c mid)
    (results : Yields w result) (possible : ∀ a, ∃ b, mid a b)
    (second : ∀ a b, result a → mid a b → Settles W R (w' a) (r' b) c' post)
    (otherwise : ∀ a b, ¬ mid a b → Refutes (w' a) (r' b) post) :
    Settles W R (w >>= w') (r >>= r') (c ∧ c') post := by
  intro s inv
  obtain ⟨a, middle, front, run, inv', appended, holds, fails⟩ := first s inv
  have known := results s a middle run
  obtain ⟨b₀, related₀⟩ := possible a
  obtain ⟨a', s', back, run', inv₂, appended', _⟩ := second a b₀ known related₀ middle inv'
  refine ⟨a', s', front ++ back, by rw [bind_run run, run'], inv₂, ?_, ?_, ?_⟩
  · rw [appended', appended, List.append_assoc]
  · rintro ⟨met, met'⟩
    obtain ⟨b, related, accepts⟩ := holds met
    obtain ⟨_, _, back', ran, _, appended₂, holds', _⟩ := second a b known related middle inv'
    rw [run'] at ran
    cases ran
    obtain rfl : back = back' := List.append_cancel_left (appended'.symm.trans appended₂)
    obtain ⟨b', related', accepts'⟩ := holds' met'
    exact ⟨b', related', accepts.bind accepts'⟩
  · intro unmet t rest b' t' ready next parsed
    rw [List.append_assoc] at next
    rcases ran : r t with e | ⟨b, t₁⟩
    · rw [bind_run_error ran] at parsed
      cases parsed
    rw [bind_run ran] at parsed
    by_cases related : mid a b
    · -- the first part was read back, so it is the second one that fails
      have met : c := by
        by_contra not
        exact fails not t (back ++ rest) b t₁ ready next ran related
      obtain ⟨b₁, related₁, accepts⟩ := holds met
      obtain ⟨t₂, ran', ready', next'⟩ := accepts t (back ++ rest) ready next
      rw [ran] at ran'
      cases ran'
      obtain ⟨_, _, back', ran₂, _, appended₂, _, fails'⟩ := second a b known related middle inv'
      rw [run'] at ran₂
      cases ran₂
      obtain rfl : back = back' := List.append_cancel_left (appended'.symm.trans appended₂)
      exact fails' (fun met' => unmet ⟨met, met'⟩) t₁ rest b' t' ready' next' parsed
    · exact otherwise a b related middle a' s' t₁ b' t' run' parsed

/-- A step of the reader alone that takes no token. -/
theorem Settles.readerStep {w : StateT σ (Except δ) α} {r : StateT ρ (Except ε) β}
    {next : β → StateT ρ (Except ε) β'} {b : β} {c : Prop} {post : α → β' → Prop}
    (step : Accepts R r [] b) (rest : Settles W R w (next b) c post) :
    Settles W R w (r >>= next) c post := by
  intro s inv
  obtain ⟨a, s', tokens, run, inv', appended, holds, fails⟩ := rest s inv
  refine ⟨a, s', tokens, run, inv', appended, ?_, ?_⟩
  · intro met
    obtain ⟨b', related, accepts⟩ := holds met
    exact ⟨b', related, step.bind accepts⟩
  · intro unmet t rest b' t' ready next' parsed
    obtain ⟨t₁, ran, ready', next₁⟩ := step t (tokens ++ rest) ready next'
    rw [bind_run ran] at parsed
    exact fails unmet t₁ rest b' t' ready' next₁ parsed

/-- A check of the writer alone, which passes. -/
theorem Settles.writerCheck {c c' : Prop} [Decidable c] {e : δ} {w : StateT σ (Except δ) α}
    {r : StateT ρ (Except ε) β} {post : α → β → Prop} (passes : ¬ c)
    (rest : Settles W R w r c' post) :
    Settles W R (Vtm.Std.check c e >>= fun _ => w) r c' post := by
  intro s inv
  rw [bind_run (check_run passes)]
  exact rest s inv

/-- A check of the reader alone. -/
theorem Settles.readerCheck {c c' : Prop} [Decidable c] {e : ε} {w : StateT σ (Except δ) α}
    {r : StateT ρ (Except ε) β} {post : α → β → Prop} (rest : Settles W R w r c' post) :
    Settles W R w (Vtm.Std.check c e >>= fun _ => r) (¬ c ∧ c') post := by
  by_cases stops : c
  · refine Settles.refuted (fun both => both.1 stops) rest.writes ?_
    intro s a s' t b t' _ parsed
    have failed : (Vtm.Std.check c e : StateT ρ (Except ε) Unit) t = .error e := if_pos stops
    rw [bind_run_error failed] at parsed
    cases parsed
  · refine Settles.readerStep (Accepts.check e stops) (rest.congr ?_)
    exact and_iff_right stops

end

end Vtm.Std
