import Vtm.Decoder.DecApp

/-!
# Passes of the decoding loop

A look-ahead moves NAL units into the buffer without changing what is still to come,
unless it meets the Fin packet. So the passes of the loop are described by the units
that are pending: `Advances app pending app' pending'`.
-/

namespace Vtm.Dec

namespace Feed

section LookAhead

variable {α : Type} {decides : NalUnitType → Option α}

theorem fetch_of_some {ret : α} (buf : List Nalu) {input : List Nalu}
    (found : input.findSome? (fun nalu => decides nalu.nalUnitType) = some ret) :
    ∃ feed, fetch decides buf input = (some ret, feed) ∧ feed.pending = buf ++ input ∧
      feed.lost = false := by
  induction input generalizing buf with
  | nil => simp at found
  | cons nalu input ih =>
      rw [fetch]
      rw [List.findSome?_cons] at found
      cases decision : decides nalu.nalUnitType with
      | some other =>
          rw [decision] at found
          obtain rfl : other = ret := by simpa using found
          exact ⟨_, rfl, by simp [pending], rfl⟩
      | none =>
          rw [decision] at found
          obtain ⟨feed, result, rest, here⟩ := ih (buf ++ [nalu]) found
          exact ⟨feed, result, by simpa using rest, here⟩

theorem fetch_of_none (buf : List Nalu) {input : List Nalu}
    (none : input.findSome? (fun nalu => decides nalu.nalUnitType) = none) :
    fetch decides buf input = (.none, ⟨buf ++ input, [], true⟩) := by
  induction input generalizing buf with
  | nil => simp [fetch]
  | cons nalu input ih =>
      rw [List.findSome?_cons] at none
      cases decision : decides nalu.nalUnitType with
      | some other => simp [decision] at none
      | none =>
          rw [decision] at none
          rw [fetch, decision]
          simpa using ih (buf ++ [nalu]) none

variable {feed : Feed}

theorem lookAhead_of_some (decides : NalUnitType → Option α) {ret : α} (receiving : feed.lost = false)
    (found : feed.pending.findSome? (fun nalu => decides nalu.nalUnitType) = some ret) :
    ∃ feed', feed.lookAhead decides = (some ret, feed') ∧ feed'.pending = feed.pending ∧
      feed'.lost = false := by
  rw [pending, List.findSome?_append] at found
  rw [lookAhead]
  cases buffered : feed.outNalUnitBuf.findSome? fun nalu => decides nalu.nalUnitType with
  | some other =>
      rw [buffered] at found
      obtain rfl : other = ret := by simpa using found
      exact ⟨feed, rfl, rfl, receiving⟩
  | none =>
      rw [buffered] at found
      simp only [receiving, Bool.false_eq_true, if_false]
      exact fetch_of_some feed.outNalUnitBuf (by simpa using found)

theorem lookAhead_of_none (decides : NalUnitType → Option α) (receiving : feed.lost = false)
    (none : feed.pending.findSome? (fun nalu => decides nalu.nalUnitType) = none) :
    feed.lookAhead decides = (.none, ⟨feed.pending, [], true⟩) := by
  rw [pending, List.findSome?_append, Option.or_eq_none_iff] at none
  simp only [lookAhead, none.1, receiving, Bool.false_eq_true, if_false]
  exact fetch_of_none feed.outNalUnitBuf none.2

end LookAhead

theorem next_of_cons {feed : Feed} (receiving : feed.lost = false) {nalu : Nalu}
    {rest : List Nalu} (coming : feed.pending = nalu :: rest) :
    ∃ feed', feed.next = (some nalu, feed') ∧ feed'.pending = rest ∧ feed'.lost = false := by
  obtain ⟨buf, input, lost⟩ := feed
  obtain rfl : lost = false := receiving
  cases buf with
  | nil =>
      obtain rfl : input = nalu :: rest := coming
      exact ⟨_, rfl, rfl, rfl⟩
  | cons first buf =>
      obtain ⟨rfl, same⟩ := List.cons.inj coming
      exact ⟨_, rfl, same, rfl⟩

theorem next_of_nil {feed : Feed} (coming : feed.pending = []) : feed.next.1 = none := by
  obtain ⟨buf, input, lost⟩ := feed
  obtain ⟨rfl, rfl⟩ := List.append_eq_nil_iff.mp coming
  cases lost <;> rfl

end Feed

namespace DecApp

/-- More passes than needed do not change the result. -/
theorem loop_mono {fuel : Nat} {app : DecApp} {feed : Feed} {final : DecApp}
    (result : loop fuel app feed = .ok final) (more : Nat) :
    loop (fuel + more) app feed = .ok final := by
  induction fuel generalizing app feed with
  | zero => simp [loop] at result
  | succ fuel ih =>
      rw [Nat.succ_add, loop]
      rw [loop] at result
      split at result
      next lost => rwa [if_pos lost]
      next receiving =>
        rw [if_neg receiving]
        split at result
        · cases result
        · exact result
        · exact ih result

/-- What the units to come say about a new picture. -/
def nextPicture (pending : List Nalu) : Option Bool :=
  pending.findSome? fun nalu => startsPicture nalu.nalUnitType

/-- What the units to come say about a new access unit. -/
def nextAccessUnit (lib : DecLib) (pending : List Nalu) : Option Bool :=
  pending.findSome? fun nalu => startsAccessUnit lib nalu.nalUnitType

/-- The loop gets from one state and list of pending units to another. -/
def Advances (app : DecApp) (pending : List Nalu) (app' : DecApp) (pending' : List Nalu) : Prop :=
  ∀ feed : Feed, feed.lost = false → feed.pending = pending →
    ∃ feed' : Feed, feed'.lost = false ∧ feed'.pending = pending' ∧
      ∃ passes, ∀ fuel, loop (passes + fuel) app feed = loop fuel app' feed'

/-- The loop returns a state. -/
def Returns (app : DecApp) (pending : List Nalu) (final : DecApp) : Prop :=
  ∀ feed : Feed, feed.lost = false → feed.pending = pending →
    ∃ passes, ∀ fuel, loop (passes + fuel) app feed = .ok final

namespace Advances

variable {app app' app'' final : DecApp} {pending pending' pending'' : List Nalu}

theorem refl : Advances app pending app pending :=
  fun feed receiving coming => ⟨feed, receiving, coming, 0, fun fuel => by rw [Nat.zero_add]⟩

theorem trans (first : Advances app pending app' pending')
    (second : Advances app' pending' app'' pending'') : Advances app pending app'' pending'' := by
  intro feed receiving coming
  obtain ⟨feed', receiving', coming', passes, run⟩ := first feed receiving coming
  obtain ⟨feed'', receiving'', coming'', more, run'⟩ := second feed' receiving' coming'
  refine ⟨feed'', receiving'', coming'', passes + more, fun fuel => ?_⟩
  rw [Nat.add_assoc, run, run']

theorem returns (first : Advances app pending app' pending')
    (last : Returns app' pending' final) : Returns app pending final := by
  intro feed receiving coming
  obtain ⟨feed', receiving', coming', passes, run⟩ := first feed receiving coming
  obtain ⟨more, run'⟩ := last feed' receiving' coming'
  refine ⟨passes + more, fun fuel => ?_⟩
  rw [Nat.add_assoc, run, run']

/-- One pass of the loop. -/
theorem of_iteration
    (pass : ∀ feed : Feed, feed.lost = false → feed.pending = pending →
      ∃ feed' : Feed, feed'.lost = false ∧ feed'.pending = pending' ∧
        app.iteration feed = .ok (.again app' feed')) : Advances app pending app' pending' := by
  intro feed receiving coming
  obtain ⟨feed', receiving', coming', result⟩ := pass feed receiving coming
  refine ⟨feed', receiving', coming', 1, fun fuel => ?_⟩
  rw [Nat.add_comm, loop, receiving, result]
  rfl

end Advances

variable {app app' : DecApp} {pending : List Nalu}

/-- A unit that does not start a picture is decoded. -/
theorem advances_decode {nalu : Nalu} {rest : List Nalu}
    (same : app.decLib.firstSliceInPicture = true ∨ nextPicture (nalu :: rest) = some false)
    (decoded : app.decodeNalu nalu = .ok app') :
    Advances app (nalu :: rest) (app'.afterNalu false false nalu.nalUnitType) rest := by
  refine .of_iteration fun feed receiving coming => ?_
  have looked : ∃ feed' : Feed, isNewPicture app.decLib feed = (false, feed') ∧
      feed'.pending = nalu :: rest ∧ feed'.lost = false := by
    rw [isNewPicture]
    cases inPicture : app.decLib.firstSliceInPicture with
    | true => exact ⟨feed, rfl, coming, receiving⟩
    | false =>
        rw [inPicture] at same
        obtain ⟨feed', result, coming', receiving'⟩ :=
          Feed.lookAhead_of_some startsPicture receiving (coming ▸ same.resolve_left (by simp))
        exact ⟨feed', by rw [result]; rfl, coming'.trans coming, receiving'⟩
  obtain ⟨feed', looked, coming', receiving'⟩ := looked
  obtain ⟨feed'', taken, coming'', receiving''⟩ := Feed.next_of_cons receiving' coming'
  refine ⟨feed'', receiving'', coming'', ?_⟩
  simp only [iteration, looked, Bool.false_eq_true, if_false, taken, decoded, Except.map,
    receiving'']

theorem advances_newPicture (inPicture : app.decLib.firstSliceInPicture = false)
    (new : nextPicture pending = some true) {bNewAccessUnit : Bool}
    (verdict : nextAccessUnit app.decLib pending = some bNewAccessUnit) :
    Advances app pending ((app.afterNalu true false .invalid).resetStep bNewAccessUnit)
      pending := by
  refine .of_iteration fun feed receiving coming => ?_
  obtain ⟨feed', looked, coming', receiving'⟩ :=
    Feed.lookAhead_of_some startsPicture receiving (coming ▸ new)
  obtain ⟨feed'', searched, coming'', receiving''⟩ :=
    Feed.lookAhead_of_some (startsAccessUnit app.decLib) receiving'
      ((coming'.trans coming).symm ▸ verdict)
  refine ⟨feed'', receiving'', coming''.trans (coming'.trans coming), ?_⟩
  simp [iteration, isNewPicture, isNewAccessUnit, inPicture, looked, searched, receiving'']

/-- The Fin packet with nothing pending. -/
theorem returns_nil : Returns app [] app.xFlushOutput := by
  intro feed receiving coming
  have looked : ∃ feed' : Feed, isNewPicture app.decLib feed = (false, feed') ∧
      feed'.pending = [] := by
    rw [isNewPicture]
    cases app.decLib.firstSliceInPicture with
    | true => exact ⟨feed, rfl, coming⟩
    | false =>
        rw [Feed.lookAhead_of_none startsPicture receiving (by simp [coming])]
        exact ⟨_, rfl, by simpa [Feed.pending] using coming⟩
  obtain ⟨feed', looked, coming'⟩ := looked
  refine ⟨1, fun fuel => ?_⟩
  have taken : feed'.next = (none, feed'.next.2) := by
    rw [← Feed.next_of_nil coming']
  rw [Nat.add_comm, loop, receiving]
  simp only [Bool.false_eq_true, if_false, iteration, looked]
  rw [taken]

/-- The Fin packet behind a single unit that leaves the look-ahead open. -/
theorem returns_open {nalu : Nalu} (inPicture : app.decLib.firstSliceInPicture = false)
    (unclear : startsPicture nalu.nalUnitType = none) (decoded : app.decodeNalu nalu = .ok app') :
    Returns app [nalu] (app'.afterNalu false true nalu.nalUnitType).xFlushOutput := by
  intro feed receiving coming
  have looked := Feed.lookAhead_of_none startsPicture receiving
    (by simp [coming, unclear])
  refine ⟨2, fun fuel => ?_⟩
  have result : app.iteration feed =
      .ok (.again (app'.afterNalu false true nalu.nalUnitType) ⟨[], [], true⟩) := by
    simp [iteration, isNewPicture, inPicture, looked, coming, Feed.next, decoded, Except.map]
  rw [show 2 + fuel = fuel + 1 + 1 by omega, loop, receiving, result]
  simp [loop]

end DecApp

end Vtm.Dec
