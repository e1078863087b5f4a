import Vtm.Common.PalettePredictor

/-!
# The update of the palette predictor

Behind `reorderPrevPLT` the predictor holds the current palette, and then the entries of the old
predictor that the palette does not reuse, as many as fit: `reorderPrevPLT_correct`.
-/

namespace Vtm.PLT

open Function

open Vtm.Std (CheckedArray memcpy memcpy_ok foldlM_each)

/-- A predictor within its arrays. -/
structure PLTBuf.Valid (prevPLT : PLTBuf) : Prop where
  arrays : ∀ comp, (prevPLT.curPLT comp).size = MAXPLTPREDSIZE
  sizes : ∀ comID, prevPLT.curPLTSize comID ≤ MAXPLTPREDSIZE

/-- A palette within its arrays. -/
structure Palette.Valid (cu : Palette) : Prop where
  arrays : ∀ comp, (cu.curPLT comp).size = MAXPLTSIZE
  flags : ∀ comID, (cu.reuseflag comID).size = MAXPLTPREDSIZE
  sizes : ∀ comID, cu.curPLTSize comID ≤ MAXPLTSIZE

/-- The local arrays have the size of the predictor. -/
def Stuffing.Sized (s : Stuffing) : Prop := ∀ comp, (s.stuffedPLT comp).size = MAXPLTPREDSIZE

section

variable (prevPLT : PLTBuf) (cu : Palette) (comps : Components)

/-- The entries of the old predictor that are not reused, from `i` on. -/
def unusedFrom (comID i left : Nat) : List Nat :=
  (List.range' i left).filter fun i => !(cu.reuseflag comID).entry i

/-- The entries of the old predictor that are not reused. -/
def unused (comID : Nat) : List Nat := unusedFrom cu comID 0 (prevPLT.curPLTSize comID)

/-- The new predictor of a component. -/
def newPredictor (comp : Nat) : List Int :=
  ((cu.curPLT comp).first (cu.curPLTSize (comps.comID comp)) ++
    (unused prevPLT cu (comps.comID comp)).map (prevPLT.curPLT comp).entry).take MAXPLTPREDSIZE

/-- The number of entries that are stuffed. -/
@[grind =] def stuffed (comID : Nat) : Nat :=
  min (MAXPLTPREDSIZE - cu.curPLTSize comID) (unused prevPLT cu comID).length

end

section

variable {prevPLT : PLTBuf} {cu : Palette} {comps : Components}

/-! ## The current palette -/

/-- A component holds the current palette. -/
structure Loaded (cu : Palette) (comps : Components) (s : Stuffing) (comp : Nat) : Prop where
  first : (s.stuffedPLT comp).first (cu.curPLTSize (comps.comID comp)) =
    (cu.curPLT comp).first (cu.curPLTSize (comps.comID comp))
  tempCurPLTsize : s.tempCurPLTsize (comps.comID comp) = cu.curPLTSize (comps.comID comp)
  stuffPLTsize : s.stuffPLTsize comp = 0

theorem loadPLT_spec (valid : cu.Valid) {s : Stuffing} (sized : s.Sized) (comp : Nat) :
    ∃ after, loadPLT cu comps s comp = .ok after ∧ after.Sized ∧ Loaded cu comps after comp ∧
      ∀ other, Loaded cu comps s other → Loaded cu comps after other := by
  have room : cu.curPLTSize (comps.comID comp) ≤ MAXPLTSIZE := valid.sizes _
  have smaller : MAXPLTSIZE ≤ MAXPLTPREDSIZE := by decide
  obtain ⟨copy, run, size, first⟩ := @memcpy_ok _ (s.stuffedPLT comp) (cu.curPLT comp)
    (cu.curPLTSize (comps.comID comp)) (by rw [sized comp]; omega) (by rw [valid.arrays comp]; omega)
  have here : Loaded cu comps
      { stuffedPLT := update s.stuffedPLT comp copy
        tempCurPLTsize := update s.tempCurPLTsize (comps.comID comp)
          (cu.curPLTSize (comps.comID comp))
        stuffPLTsize := update s.stuffPLTsize comp 0 } comp := by
    refine ⟨?_, update_self _ _ _, update_self _ _ _⟩
    dsimp only
    rw [update_self]
    exact first
  refine ⟨_, ?_, fun other => ?_, here, fun other loaded => ?_⟩
  · unfold loadPLT
    dsimp only
    rw [run]
    rfl
  · dsimp only
    by_cases same : other = comp
    · rw [same, update_self, size, sized]
    · rw [update_of_ne same, sized]
  · by_cases same : other = comp
    · exact same ▸ here
    · refine ⟨?_, ?_, ?_⟩
      · dsimp only
        rw [update_of_ne same]
        exact loaded.first
      · by_cases shared : comps.comID other = comps.comID comp
        · rw [shared]
          exact update_self _ _ _
        · exact (update_of_ne shared _ _).trans loaded.tempCurPLTsize
      · exact (update_of_ne same _ _).trans loaded.stuffPLTsize

/-! ## The old predictor -/

theorem stuffEntry_eq (valid : prevPLT.Valid) {stuffedPLT : Nat → CheckedArray Int} {comp pos i : Nat}
    (size : (stuffedPLT comp).size = MAXPLTPREDSIZE) (place : pos < MAXPLTPREDSIZE)
    (inside : i < MAXPLTPREDSIZE) :
    stuffEntry prevPLT pos i stuffedPLT comp =
      .ok (update stuffedPLT comp
        ((stuffedPLT comp).put pos ((prevPLT.curPLT comp).entry i))) := by
  unfold stuffEntry
  rw [CheckedArray.get_of_lt (by rw [valid.arrays]; exact inside)]
  simp only [bind, Except.bind]
  rw [CheckedArray.set_of_lt (by rw [size]; exact place)]
  rfl

/-- One entry is stuffed to the components that belong together. -/
theorem stuffEntries_spec (valid : prevPLT.Valid) {s : Stuffing} (sized : s.Sized) (ch : Nat)
    {pos i : Nat} (place : pos < MAXPLTPREDSIZE) (inside : i < MAXPLTPREDSIZE) :
    ∃ after, (stuffedComponents ch).foldlM (stuffEntry prevPLT pos i) s.stuffedPLT = .ok after ∧
      (∀ comp ∈ stuffedComponents ch,
        after comp = (s.stuffedPLT comp).put pos ((prevPLT.curPLT comp).entry i)) ∧
      ∀ comp ∉ stuffedComponents ch, after comp = s.stuffedPLT comp := by
  unfold stuffedComponents
  split
  · rw [List.foldlM_cons, stuffEntry_eq valid (sized 0) place inside]
    refine ⟨_, rfl, fun comp member => ?_, fun comp other => ?_⟩
    · rw [List.mem_singleton.mp member, update_self]
    · exact update_of_ne (fun same => other (List.mem_singleton.mpr same)) _ _
  · have second : (update s.stuffedPLT 1
        ((s.stuffedPLT 1).put pos ((prevPLT.curPLT 1).entry i)) 2).size = MAXPLTPREDSIZE := by
      rw [update_of_ne (by decide), sized]
    rw [List.foldlM_cons, stuffEntry_eq valid (sized 1) place inside]
    simp only [bind, Except.bind]
    rw [List.foldlM_cons, stuffEntry_eq valid second place inside]
    refine ⟨_, rfl, fun comp member => ?_, fun comp other => ?_⟩
    · rcases List.mem_cons.mp member with rfl | last
      · rw [update_of_ne (by decide), update_self]
      · rw [List.mem_singleton.mp last, update_self, update_of_ne (by decide)]
    · have not1 : comp ≠ 1 := fun same => other (by simp [same])
      have not2 : comp ≠ 2 := fun same => other (by simp [same])
      rw [update_of_ne not2, update_of_ne not1]

/-- What the loop leaves. -/
structure Left (ch : Nat) (s after : Stuffing) : Prop where
  tempCurPLTsize : after.tempCurPLTsize = s.tempCurPLTsize
  stuffPLTsize : ∀ other ≠ ch, after.stuffPLTsize other = s.stuffPLTsize other
  others : ∀ comp ∉ stuffedComponents ch, after.stuffedPLT comp = s.stuffedPLT comp

theorem Left.trans {ch : Nat} {s t u : Stuffing} (first : Left ch s t) (second : Left ch t u) :
    Left ch s u :=
  ⟨second.tempCurPLTsize.trans first.tempCurPLTsize,
    fun other apart => (second.stuffPLTsize other apart).trans (first.stuffPLTsize other apart),
    fun comp apart => (second.others comp apart).trans (first.others comp apart)⟩

theorem unusedFrom_succ (comID i left : Nat) :
    unusedFrom cu comID i (left + 1) =
      if (cu.reuseflag comID).entry i then unusedFrom cu comID (i + 1) left
      else i :: unusedFrom cu comID (i + 1) left := by
  unfold unusedFrom
  rw [List.range'_succ, List.filter_cons]
  cases (cu.reuseflag comID).entry i <;> rfl

/-- The loop from an entry of the predictor on. -/
theorem stuffLoop_spec (valid : prevPLT.Valid) (palette : cu.Valid) (ch left i : Nat)
    (within : i + left ≤ MAXPLTPREDSIZE) {s : Stuffing} (sized : s.Sized)
    (room : s.tempCurPLTsize (comps.comID ch) + s.stuffPLTsize ch ≤ MAXPLTPREDSIZE) :
    let taken := (unusedFrom cu (comps.comID ch) i left).take
      (MAXPLTPREDSIZE - (s.tempCurPLTsize (comps.comID ch) + s.stuffPLTsize ch))
    ∃ after, stuffLoop prevPLT cu comps ch left i s = .ok after ∧ after.Sized ∧
      after.stuffPLTsize ch = s.stuffPLTsize ch + taken.length ∧
      (∀ comp ∈ stuffedComponents ch,
        (after.stuffedPLT comp).first
            (s.tempCurPLTsize (comps.comID ch) + s.stuffPLTsize ch + taken.length) =
          (s.stuffedPLT comp).first (s.tempCurPLTsize (comps.comID ch) + s.stuffPLTsize ch) ++
            taken.map (prevPLT.curPLT comp).entry) ∧
      Left ch s after := by
  induction left generalizing i s with
  | zero =>
      refine ⟨s, rfl, sized, ?_, fun comp _ => ?_, ⟨rfl, fun _ _ => rfl, fun _ _ => rfl⟩⟩
      · simp [unusedFrom]
      · simp [unusedFrom]
  | succ left ih =>
      intro taken
      unfold stuffLoop
      dsimp only
      by_cases full : s.tempCurPLTsize (comps.comID ch) + s.stuffPLTsize ch ≥ MAXPLTPREDSIZE
      · have none : taken = [] := by
          have rest : MAXPLTPREDSIZE - (s.tempCurPLTsize (comps.comID ch) + s.stuffPLTsize ch) = 0 := by
            omega
          simp only [taken, rest, List.take_zero]
        rw [if_pos full, none]
        refine ⟨s, rfl, sized, rfl, fun comp _ => ?_, ⟨rfl, fun _ _ => rfl, fun _ _ => rfl⟩⟩
        simp
      · rw [if_neg full, CheckedArray.get_of_lt (by rw [palette.flags]; omega)]
        simp only [bind, Except.bind]
        cases reused : (cu.reuseflag (comps.comID ch)).entry i with
        | true =>
            have same : taken = (unusedFrom cu (comps.comID ch) (i + 1) left).take
                (MAXPLTPREDSIZE - (s.tempCurPLTsize (comps.comID ch) + s.stuffPLTsize ch)) := by
              simp only [taken, unusedFrom_succ, reused, if_true]
            rw [if_pos rfl, same]
            exact ih (i + 1) (by omega) sized room
        | false =>
            rw [if_neg Bool.false_ne_true]
            have place : s.tempCurPLTsize (comps.comID ch) + s.stuffPLTsize ch < MAXPLTPREDSIZE := by
              omega
            obtain ⟨copies, run, written, others⟩ :=
              stuffEntries_spec valid sized ch place (by omega : i < MAXPLTPREDSIZE)
            rw [run]
            dsimp only
            have byte : (s.stuffPLTsize ch + 1) % 2 ^ 8 = s.stuffPLTsize ch + 1 := by
              unfold MAXPLTPREDSIZE at place
              omega
            set next : Stuffing :=
              { s with
                stuffedPLT := copies
                stuffPLTsize := update s.stuffPLTsize ch ((s.stuffPLTsize ch + 1) % 2 ^ 8) }
              with next_eq
            have count : next.stuffPLTsize ch = s.stuffPLTsize ch + 1 := by
              rw [next_eq]
              dsimp only
              rw [update_self, byte]
            have step : Left ch s next :=
              ⟨rfl, fun other apart => update_of_ne apart _ _, others⟩
            have nextSized : next.Sized := by
              intro comp
              by_cases member : comp ∈ stuffedComponents ch
              · have here : next.stuffedPLT comp = _ := written comp member
                rw [here, CheckedArray.put_size, sized]
              · have here : next.stuffedPLT comp = _ := others comp member
                rw [here, sized]
            have base : next.tempCurPLTsize (comps.comID ch) + next.stuffPLTsize ch =
                s.tempCurPLTsize (comps.comID ch) + s.stuffPLTsize ch + 1 := by
              rw [count, step.tempCurPLTsize, Nat.add_assoc]
            have more : taken = i :: (unusedFrom cu (comps.comID ch) (i + 1) left).take
                (MAXPLTPREDSIZE - (s.tempCurPLTsize (comps.comID ch) + s.stuffPLTsize ch + 1)) := by
              have rest : MAXPLTPREDSIZE - (s.tempCurPLTsize (comps.comID ch) + s.stuffPLTsize ch) =
                  MAXPLTPREDSIZE - (s.tempCurPLTsize (comps.comID ch) + s.stuffPLTsize ch + 1) + 1 := by
                omega
              simp only [taken, rest, unusedFrom_succ, reused, Bool.false_eq_true, if_false,
                List.take_succ_cons]
            obtain ⟨after, loop, done, number, entries, frame⟩ := ih (i + 1) (by omega) nextSized
              (by rw [base]; exact place)
            rw [base] at number entries
            refine ⟨after, loop, done, ?_, fun comp member => ?_, step.trans frame⟩
            · rw [number, count, more, List.length_cons]
              omega
            · have here : next.stuffedPLT comp = _ := written comp member
              have longer := entries comp member
              rw [here, CheckedArray.first_put, List.append_assoc, List.singleton_append,
                ← List.map_cons (f := (prevPLT.curPLT comp).entry), ← more] at longer
              have total : taken.length = ((unusedFrom cu (comps.comID ch) (i + 1) left).take
                  (MAXPLTPREDSIZE -
                    (s.tempCurPLTsize (comps.comID ch) + s.stuffPLTsize ch + 1))).length + 1 := by
                rw [more, List.length_cons]
              rw [total, Nat.add_comm _ 1, ← Nat.add_assoc]
              exact longer

/-- A channel type is complete in the local arrays. -/
structure Stuffed (prevPLT : PLTBuf) (cu : Palette) (comps : Components) (ch : Nat) (s : Stuffing) :
    Prop where
  entries : ∀ comp ∈ stuffedComponents ch,
    (s.stuffedPLT comp).first
      (cu.curPLTSize (comps.comID ch) + stuffed prevPLT cu (comps.comID ch)) =
        (cu.curPLT comp).first (cu.curPLTSize (comps.comID ch)) ++
          ((unused prevPLT cu (comps.comID ch)).take (stuffed prevPLT cu (comps.comID ch))).map
            (prevPLT.curPLT comp).entry
  stuffPLTsize : s.stuffPLTsize ch = stuffed prevPLT cu (comps.comID ch)

/-- The loop over all entries of the predictor. -/
theorem stuffPLT_spec (valid : prevPLT.Valid) (palette : cu.Valid) {ch : Nat} {s : Stuffing}
    (sized : s.Sized) (same : ∀ comp ∈ stuffedComponents ch, comps.comID comp = comps.comID ch)
    (loaded : ∀ comp ∈ stuffedComponents ch, Loaded cu comps s comp)
    (own : ch ∈ stuffedComponents ch) :
    ∃ after, stuffPLT prevPLT cu comps s ch = .ok after ∧ after.Sized ∧
      Stuffed prevPLT cu comps ch after ∧ Left ch s after := by
  have start := (loaded ch own).stuffPLTsize
  have size := (loaded ch own).tempCurPLTsize
  have room : cu.curPLTSize (comps.comID ch) ≤ MAXPLTPREDSIZE :=
    le_trans (palette.sizes _) (by decide)
  obtain ⟨after, run, done, number, entries, frame⟩ := @stuffLoop_spec _ _ comps valid palette ch
    (prevPLT.curPLTSize (comps.comID ch)) 0 (by rw [Nat.zero_add]; exact valid.sizes _) s sized
    (by rw [size, start]; exact room)
  rw [size, start, Nat.add_zero] at number entries
  have taken : (unused prevPLT cu (comps.comID ch)).take (stuffed prevPLT cu (comps.comID ch)) =
      (unused prevPLT cu (comps.comID ch)).take (MAXPLTPREDSIZE - cu.curPLTSize (comps.comID ch)) := by
    unfold stuffed
    rw [← List.take_take, List.take_length]
  refine ⟨after, run, done, ⟨fun comp member => ?_, ?_⟩, frame⟩
  · have complete := entries comp member
    rw [List.length_take, ← same comp member, (loaded comp member).first, same comp member] at complete
    rw [taken]
    exact complete
  · rw [number, Nat.zero_add, List.length_take]
    rfl

/-! ## The new predictor -/

/-- The size of the new predictor. -/
def newSize (prevPLT : PLTBuf) (cu : Palette) (comID : Nat) : Nat :=
  cu.curPLTSize comID + stuffed prevPLT cu comID

theorem newSize_le (palette : cu.Valid) (comID : Nat) : newSize prevPLT cu comID ≤ MAXPLTPREDSIZE := by
  have room : cu.curPLTSize comID ≤ MAXPLTPREDSIZE := le_trans (palette.sizes _) (by decide)
  unfold newSize stuffed
  omega

theorem newPredictor_eq (palette : cu.Valid) (comp : Nat) :
    newPredictor prevPLT cu comps comp =
      (cu.curPLT comp).first (cu.curPLTSize (comps.comID comp)) ++
        ((unused prevPLT cu (comps.comID comp)).take (stuffed prevPLT cu (comps.comID comp))).map
          (prevPLT.curPLT comp).entry := by
  have room : cu.curPLTSize (comps.comID comp) ≤ MAXPLTPREDSIZE :=
    le_trans (palette.sizes _) (by decide)
  unfold newPredictor stuffed
  rw [List.take_append, CheckedArray.first_length, List.take_of_length_le (by simpa using room),
    ← List.map_take, ← List.take_take, List.take_length]

/-- The component and its channel type hold the new predictor. -/
structure Stored (prevPLT : PLTBuf) (cu : Palette) (comps : Components) (after : PLTBuf) (comp : Nat) :
    Prop where
  size : after.curPLTSize (comps.comID comp) = newSize prevPLT cu (comps.comID comp)
  entries : (after.curPLT comp).first (newSize prevPLT cu (comps.comID comp)) =
    newPredictor prevPLT cu comps comp

/-- The components and channel types that are not processed are as they were. -/
structure Untouched (prevPLT : PLTBuf) (comps : Components) (after : PLTBuf) : Prop where
  curPLT : ∀ comp ∉ comps.range, after.curPLT comp = prevPLT.curPLT comp
  curPLTSize : ∀ comID, (∀ comp ∈ comps.range, comps.comID comp ≠ comID) →
    after.curPLTSize comID = prevPLT.curPLTSize comID

theorem storePLT_spec (palette : cu.Valid) {s : Stuffing} (sized : s.Sized) {comp : Nat}
    (processed : comp ∈ comps.range)
    (size : s.stuffPLTsize (comps.comID comp) = stuffed prevPLT cu (comps.comID comp))
    (entries : (s.stuffedPLT comp).first (newSize prevPLT cu (comps.comID comp)) =
      newPredictor prevPLT cu comps comp)
    {before : PLTBuf} (valid : before.Valid) (frame : Untouched prevPLT comps before) :
    ∃ after, storePLT cu comps s before comp = .ok after ∧
      (after.Valid ∧ Untouched prevPLT comps after) ∧ Stored prevPLT cu comps after comp ∧
      ∀ other, Stored prevPLT cu comps before other → Stored prevPLT cu comps after other := by
  have fits : newSize prevPLT cu (comps.comID comp) ≤ MAXPLTPREDSIZE := newSize_le palette _
  have byte : (cu.curPLTSize (comps.comID comp) + s.stuffPLTsize (comps.comID comp)) % 2 ^ 8 =
      newSize prevPLT cu (comps.comID comp) := by
    rw [size]
    unfold MAXPLTPREDSIZE at fits
    exact Nat.mod_eq_of_lt (lt_of_le_of_lt fits (by decide))
  obtain ⟨copy, run, length, first⟩ := @memcpy_ok _ (before.curPLT comp) (s.stuffedPLT comp)
    (newSize prevPLT cu (comps.comID comp)) (by rw [valid.arrays]; exact fits)
    (by rw [sized]; exact fits)
  have here : Stored prevPLT cu comps
      { curPLTSize := update before.curPLTSize (comps.comID comp)
          (newSize prevPLT cu (comps.comID comp))
        curPLT := update before.curPLT comp copy } comp := by
    refine ⟨update_self _ _ _, ?_⟩
    dsimp only
    rw [update_self, first, entries]
  refine ⟨_, ?_, ⟨⟨fun other => ?_, fun comID => ?_⟩, fun other outside => ?_, fun comID outside => ?_⟩,
    here, fun other stored => ?_⟩
  · unfold storePLT
    dsimp only
    rw [byte, run]
    rfl
  · dsimp only
    by_cases same : other = comp
    · rw [same, update_self, length, valid.arrays]
    · rw [update_of_ne same, valid.arrays]
  · dsimp only
    by_cases same : comID = comps.comID comp
    · rw [same, update_self]
      exact fits
    · rw [update_of_ne same]
      exact valid.sizes comID
  · have apart : other ≠ comp := fun same => outside (same ▸ processed)
    exact (update_of_ne apart _ _).trans (frame.curPLT other outside)
  · have apart : comID ≠ comps.comID comp := fun same => outside comp processed same.symm
    exact (update_of_ne apart _ _).trans (frame.curPLTSize comID outside)
  · by_cases same : other = comp
    · exact same ▸ here
    · refine ⟨?_, (congrArg (CheckedArray.first · _) (update_of_ne same _ _)).trans
        stored.entries⟩
      by_cases shared : comps.comID other = comps.comID comp
      · rw [shared]
        exact update_self _ _ _
      · exact (update_of_ne shared _ _).trans stored.size

/-- The three loops, from what the second one has to leave. -/
theorem reorderPrevPLT_of_stuffed (valid : prevPLT.Valid) (palette : cu.Valid) {s loaded stuffedS : Stuffing}
    (load : comps.range.foldlM (loadPLT cu comps) s = .ok loaded)
    (stuff : (comps.range.takeWhile (· ≤ 1)).foldlM (stuffPLT prevPLT cu comps) loaded = .ok stuffedS)
    (sized : stuffedS.Sized)
    (complete : ∀ comp ∈ comps.range,
      stuffedS.stuffPLTsize (comps.comID comp) = stuffed prevPLT cu (comps.comID comp) ∧
        (stuffedS.stuffedPLT comp).first (newSize prevPLT cu (comps.comID comp)) =
          newPredictor prevPLT cu comps comp) :
    ∃ after, reorderPrevPLT prevPLT cu comps s = .ok after ∧
      (after.Valid ∧ Untouched prevPLT comps after) ∧
      ∀ comp ∈ comps.range, Stored prevPLT cu comps after comp := by
  obtain ⟨after, run, kept, stored⟩ := @foldlM_each _ _ _
    (storePLT cu comps stuffedS) (fun after : PLTBuf => after.Valid ∧ Untouched prevPLT comps after)
    (Stored prevPLT cu comps) comps.range (fun comp processed before inv =>
      storePLT_spec palette sized processed (complete comp processed).1 (complete comp processed).2
        inv.1 inv.2)
    prevPLT ⟨valid, fun _ _ => rfl, fun _ _ => rfl⟩
  refine ⟨after, ?_, kept, stored⟩
  unfold reorderPrevPLT
  rw [load]
  simp only [bind, Except.bind]
  rw [stuff]
  exact run

theorem Left.loaded {ch comp : Nat} {s after : Stuffing} (frame : Left ch s after) (other : comp ≠ ch)
    (outside : comp ∉ stuffedComponents ch) (loaded : Loaded cu comps s comp) :
    Loaded cu comps after comp :=
  ⟨frame.others comp outside ▸ loaded.first, frame.tempCurPLTsize ▸ loaded.tempCurPLTsize,
    (frame.stuffPLTsize comp other).trans loaded.stuffPLTsize⟩

theorem Stuffed.predictor (palette : cu.Valid) {ch comp : Nat} {s : Stuffing}
    (complete : Stuffed prevPLT cu comps ch s) (member : comp ∈ stuffedComponents ch)
    (same : comps.comID comp = comps.comID ch) :
    (s.stuffedPLT comp).first (newSize prevPLT cu (comps.comID comp)) =
      newPredictor prevPLT cu comps comp := by
  rw [newPredictor_eq palette, same]
  exact complete.entries comp member

end

/-- The loop that stuffs the predictor, for each tree. -/
theorem stuff_complete (isSepTree isLuma : Bool) {prevPLT : PLTBuf} {cu : Palette}
    (valid : prevPLT.Valid) (palette : cu.Valid) {s : Stuffing} (sized : s.Sized)
    (loaded : ∀ comp ∈ (componentsOf isSepTree isLuma).range,
      Loaded cu (componentsOf isSepTree isLuma) s comp) :
    let comps := componentsOf isSepTree isLuma
    ∃ after, (comps.range.takeWhile (· ≤ 1)).foldlM (stuffPLT prevPLT cu comps) s = .ok after ∧
      after.Sized ∧ ∀ comp ∈ comps.range,
        after.stuffPLTsize (comps.comID comp) = stuffed prevPLT cu (comps.comID comp) ∧
          (after.stuffedPLT comp).first (newSize prevPLT cu (comps.comID comp)) =
            newPredictor prevPLT cu comps comp := by
  intro comps
  have one {ch : Nat} {after : Stuffing} (run : stuffPLT prevPLT cu comps s ch = .ok after) :
      [ch].foldlM (stuffPLT prevPLT cu comps) s = .ok after := by
    rw [List.foldlM_cons, run]
    rfl
  cases isSepTree with
  | true =>
      cases isLuma with
      | true =>
          obtain ⟨after, run, done, complete, -⟩ := @stuffPLT_spec _ _ comps valid palette 0 s sized
            (by decide) (fun comp member => loaded comp member) (by decide)
          refine ⟨after, one run, done, fun comp member => ?_⟩
          rw [List.mem_singleton.mp member]
          exact ⟨complete.stuffPLTsize, complete.predictor palette (by decide) rfl⟩
      | false =>
          obtain ⟨after, run, done, complete, -⟩ := @stuffPLT_spec _ _ comps valid palette 1 s sized
            (by decide) (fun comp member => loaded comp member) (by decide)
          refine ⟨after, one run, done, fun comp member => ?_⟩
          have same : comps.comID comp = comps.comID 1 := by
            have cases : ∀ comp ∈ comps.range, comps.comID comp = comps.comID 1 := by decide
            exact cases comp member
          refine ⟨?_, complete.predictor palette member same⟩
          rw [same]
          exact complete.stuffPLTsize
  | false =>
      have luma : ∀ comp ∈ stuffedComponents 0, comp ∈ comps.range := by cases isLuma <;> decide
      have chroma : ∀ comp ∈ stuffedComponents 1, comp ∈ comps.range := by cases isLuma <;> decide
      have outside : ∀ comp ∈ stuffedComponents 1, comp ≠ 0 ∧ comp ∉ stuffedComponents 0 := by decide
      obtain ⟨after, run, done, complete, frame⟩ := @stuffPLT_spec _ _ comps valid palette 0 s sized
        (by cases isLuma <;> decide) (fun comp member => loaded comp (luma comp member)) (by decide)
      obtain ⟨last, run', done', complete', frame'⟩ := @stuffPLT_spec _ _ comps valid palette 1 after
        done (fun _ _ => rfl) (fun comp member => frame.loaded (outside comp member).1
          (outside comp member).2 (loaded comp (chroma comp member))) (by decide)
      have first : last.stuffedPLT 0 = after.stuffedPLT 0 := frame'.others 0 (by decide)
      refine ⟨last, ?_, done', fun comp member => ⟨?_, ?_⟩⟩
      · have both : (comps.range.takeWhile (· ≤ 1)) = [0, 1] := rfl
        rw [both, List.foldlM_cons, run]
        simp only [bind, Except.bind, List.foldlM_cons, List.foldlM_nil, run']
        rfl
      · have size : last.stuffPLTsize 0 = after.stuffPLTsize 0 := frame'.stuffPLTsize 0 (by decide)
        exact size.trans complete.stuffPLTsize
      · by_cases here : comp = 0
        · rw [here, first]
          exact complete.predictor palette (by decide) rfl
        · have chromaComp : ∀ comp ∈ comps.range, comp ≠ 0 → comp ∈ stuffedComponents 1 := by
            cases isLuma <;> decide
          exact complete'.predictor palette (chromaComp comp member here) rfl

/-- The predictor behind a palette coding unit, for each tree. -/
theorem reorderPrevPLT_correct (isSepTree isLuma : Bool) (prevPLT : PLTBuf) (cu : Palette)
    (valid : prevPLT.Valid) (palette : cu.Valid) (s : Stuffing) (sized : s.Sized) :
    let comps := componentsOf isSepTree isLuma
    ∃ after, reorderPrevPLT prevPLT cu comps s = .ok after ∧
      (after.Valid ∧ Untouched prevPLT comps after) ∧
      ∀ comp ∈ comps.range,
        (after.curPLT comp).first (after.curPLTSize (comps.comID comp)) =
          newPredictor prevPLT cu comps comp := by
  intro comps
  obtain ⟨loadedS, load, sized', loaded⟩ := @foldlM_each _ _ _ (loadPLT cu comps) Stuffing.Sized
    (Loaded cu comps) comps.range (fun comp _ s sized => loadPLT_spec palette sized comp) s sized
  obtain ⟨stuffedS, stuff, sized'', complete⟩ :=
    stuff_complete isSepTree isLuma valid palette sized' loaded
  obtain ⟨after, run, kept, stored⟩ :=
    reorderPrevPLT_of_stuffed valid palette load stuff sized'' complete
  refine ⟨after, run, kept, fun comp processed => ?_⟩
  rw [(stored comp processed).size]
  exact (stored comp processed).entries

/-- A full predictor. -/
def fullPrevPLT : PLTBuf where
  curPLTSize _ := MAXPLTPREDSIZE
  curPLT comp := ⟨MAXPLTPREDSIZE, fun i => 64 * comp + i⟩

/-- A palette of twenty entries of that predictor and ten new ones. -/
def mixedPalette : Palette where
  curPLTSize _ := 30
  curPLT comp := ⟨MAXPLTSIZE, fun i => if i < 20 then 64 * comp + (2 * i + 1) else 900 + i⟩
  reuseflag _ := ⟨MAXPLTPREDSIZE, fun i => i < 40 ∧ i % 2 = 1⟩

/-- Local arrays that nothing was stored to. -/
def emptyStuffing : Stuffing := ⟨fun _ => ⟨MAXPLTPREDSIZE, fun _ => 0⟩, fun _ => 0, fun _ => 0⟩

/-- Of the 43 entries that the palette does not reuse, 33 stay. -/
theorem reorderPrevPLT_correct_truncated :
    let comps := componentsOf false true
    (∃ after, reorderPrevPLT fullPrevPLT mixedPalette comps emptyStuffing = .ok after ∧
      (after.Valid ∧ Untouched fullPrevPLT comps after) ∧
      ∀ comp ∈ comps.range,
        (after.curPLT comp).first (after.curPLTSize (comps.comID comp)) =
          newPredictor fullPrevPLT mixedPalette comps comp) ∧
      (unused fullPrevPLT mixedPalette 0).length = 43 ∧ stuffed fullPrevPLT mixedPalette 0 = 33 :=
  ⟨reorderPrevPLT_correct false true fullPrevPLT mixedPalette ⟨fun _ => rfl, fun _ => le_refl _⟩
    ⟨fun _ => rfl, fun _ => rfl, fun _ => (by decide : 30 ≤ MAXPLTSIZE)⟩ emptyStuffing fun _ => rfl,
    by decide, by decide⟩

end Vtm.PLT
