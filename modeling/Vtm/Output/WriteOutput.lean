import Vtm.Decoder.DecApp
import Mathlib.Data.List.Perm.Subperm

/-!
# Output in POC order

What the picture list, the last POC displayed and the frames written keep to while
pictures are written. `finished` are the frames of the pictures finished so far,
`future` the POCs of the pictures still to be finished, `marked` the POCs that may be
used for reference and `known` the POCs in the buffer. A picture is only written when
the limits of the sequence rule out an earlier one to come.
-/

namespace Vtm.Dec

/-- The pictures that wait for output, as frames. -/
@[grind =] def waitingFrames (listPic : List Picture) : List Frame :=
  (listPic.filter (·.neededForOutput)).map Picture.frame

@[simp] theorem waitingFrames_append (a b : List Picture) :
    waitingFrames (a ++ b) = waitingFrames a ++ waitingFrames b := by
  simp [waitingFrames]

theorem waitingFrames_cons (pic : Picture) (rest : List Picture) :
    waitingFrames (pic :: rest) =
      if pic.neededForOutput then pic.frame :: waitingFrames rest else waitingFrames rest := by
  by_cases needed : pic.neededForOutput <;> simp [waitingFrames, needed]

theorem mem_waitingFrames {pic : Picture} {listPic : List Picture} (here : pic ∈ listPic)
    (needed : pic.neededForOutput) : pic.frame ∈ waitingFrames listPic :=
  List.mem_map_of_mem (List.mem_filter.mpr ⟨here, needed⟩)

theorem waitingFrames_of_none {listPic : List Picture}
    (none : ∀ pic ∈ listPic, pic.neededForOutput = false) : waitingFrames listPic = [] := by
  simpa [waitingFrames, List.filter_eq_nil_iff] using none

/-- The state of the output within a coded video sequence. -/
structure OutputInv (finished : List Frame) (future marked known : List Int)
    (listPic : List Picture) (last : Int) (written : List Frame) : Prop where
  distinct : (listPic.map (·.poc)).Nodup
  ordered : listPic.Pairwise fun p q => p.neededForOutput → q.neededForOutput → p.poc < q.poc
  behind : ∀ pic ∈ listPic, pic.neededForOutput → last < pic.poc
  ahead : ∀ poc ∈ future, last < poc
  fresh : ∀ poc ∈ future, ∀ pic ∈ listPic, pic.neededForOutput → pic.poc ≠ poc
  past : ∀ frame ∈ written, frame.poc ≤ last
  sorted : written.Pairwise fun f g => f.poc < g.poc
  complete : (written ++ waitingFrames listPic).Perm finished
  references : ∀ pic ∈ listPic, pic.referenced → pic.poc ∈ marked
  names : ∀ pic ∈ listPic, pic.poc ∈ known

/-- The limits of the sequence, at one point of it: a picture to come has few finished
ones behind it in output order, and these fit into the buffer with the reference
pictures. -/
structure Limits (numReorderPics maxDecPicBuffering : Nat) (finished : List Frame)
    (future marked known : List Int) : Prop where
  reorder : ∀ poc ∈ future,
    (finished.filter fun frame => poc < frame.poc).length ≤ numReorderPics
  buffering : ∀ poc ∈ future, ∀ held : List Int, held.Nodup →
    (∀ h ∈ held, h ∈ known ∧ (h ∈ marked ∨ ∃ frame ∈ finished, frame.poc = h ∧ poc < h)) →
      held.length ≤ maxDecPicBuffering

namespace OutputInv

variable {finished : List Frame} {future marked known : List Int} {listPic : List Picture}
  {last : Int} {written : List Frame} {numReorderPics maxDecPicBuffering : Nat}

theorem isWaiting_eq (inv : OutputInv finished future marked known listPic last written)
    {pic : Picture} (here : pic ∈ listPic) :
    DecApp.isWaiting last pic = pic.neededForOutput := by
  cases needed : pic.neededForOutput with
  | false => simp [DecApp.isWaiting, needed]
  | true => simp [DecApp.isWaiting, needed, inv.behind pic here needed]

/-- Before an earlier picture to come neither counter is beyond its limit. -/
theorem count_le (inv : OutputInv finished future marked known listPic last written)
    (limits : Limits numReorderPics maxDecPicBuffering finished future marked known)
    {poc : Int} (coming : poc ∈ future)
    (before : ∀ pic ∈ listPic, pic.neededForOutput → poc < pic.poc) :
    listPic.countP (DecApp.isWaiting last) ≤ numReorderPics ∧
      listPic.countP (DecApp.isHeld last) ≤ maxDecPicBuffering := by
  constructor
  · have waiting : listPic.countP (DecApp.isWaiting last) = (waitingFrames listPic).length := by
      rw [waitingFrames, List.length_map, ← List.countP_eq_length_filter]
      exact List.countP_congr fun pic here => by rw [inv.isWaiting_eq here]
    have all : (waitingFrames listPic).filter (fun frame => poc < frame.poc) =
        waitingFrames listPic := by
      rw [List.filter_eq_self]
      intro frame inside
      obtain ⟨pic, kept, rfl⟩ := List.mem_map.mp inside
      obtain ⟨here, needed⟩ := List.mem_filter.mp kept
      exact decide_eq_true (before pic here needed)
    calc listPic.countP (DecApp.isWaiting last)
        = ((waitingFrames listPic).filter fun frame => poc < frame.poc).length := by
          rw [waiting, all]
      _ ≤ ((written ++ waitingFrames listPic).filter fun frame => poc < frame.poc).length := by
          rw [List.filter_append, List.length_append]
          omega
      _ = (finished.filter fun frame => poc < frame.poc).length :=
          (inv.complete.filter _).length_eq
      _ ≤ numReorderPics := limits.reorder poc coming
  · have sub : ((listPic.filter (DecApp.isHeld last)).map (·.poc)).Sublist
        (listPic.map (·.poc)) := List.Sublist.map _ List.filter_sublist
    have fits := limits.buffering poc coming _ (inv.distinct.sublist sub) ?_
    · rwa [List.length_map, ← List.countP_eq_length_filter] at fits
    · intro h inside
      obtain ⟨pic, kept, rfl⟩ := List.mem_map.mp inside
      obtain ⟨here, held⟩ := List.mem_filter.mp kept
      refine ⟨inv.names pic here, ?_⟩
      rw [DecApp.isHeld, inv.isWaiting_eq here, Bool.or_eq_true] at held
      rcases held with needed | referenced
      · refine .inr ⟨pic.frame, ?_, rfl, before pic here needed⟩
        exact inv.complete.subset (List.mem_append_right _ (mem_waitingFrames here needed))
      · exact .inl (inv.references pic here referenced)

/-- The first picture that waits is written. -/
theorem write {front rest : List Picture} {pic : Picture}
    (inv : OutputInv finished future marked known (front ++ pic :: rest) last written)
    (idle : ∀ p ∈ front, p.neededForOutput = false) (needed : pic.neededForOutput)
    (first : ∀ poc ∈ future, pic.poc < poc) :
    OutputInv finished future marked known (front ++ DecApp.writtenPic pic :: rest) pic.poc
      (written ++ [pic.frame]) := by
  obtain ⟨orderedFront, orderedBack, -⟩ := List.pairwise_append.mp inv.ordered
  obtain ⟨orderedPic, orderedRest⟩ := List.pairwise_cons.mp orderedBack
  have here : pic ∈ front ++ pic :: rest := by simp
  have fields : ∀ p ∈ front ++ DecApp.writtenPic pic :: rest, ∃ q ∈ front ++ pic :: rest,
      q.poc = p.poc ∧ q.referenced = p.referenced := by
    intro p inside
    simp only [List.mem_append, List.mem_cons] at inside
    rcases inside with inside | rfl | inside
    · exact ⟨p, by simp [inside], rfl, rfl⟩
    · exact ⟨pic, here, rfl, rfl⟩
    · exact ⟨p, by simp [inside], rfl, rfl⟩
  refine ⟨?_, ?_, ?_, first, ?_, ?_, ?_, ?_, ?_, ?_⟩
  · simpa [DecApp.writtenPic] using inv.distinct
  · refine List.pairwise_append.mpr ⟨orderedFront, List.pairwise_cons.mpr ⟨?_, orderedRest⟩, ?_⟩
    · intro q _ wrong
      simp [DecApp.writtenPic] at wrong
    · intro p inFront q _ wrong
      simp [idle p inFront] at wrong
  · intro p inside stays
    simp only [List.mem_append, List.mem_cons] at inside
    rcases inside with inside | rfl | inside
    · simp [idle p inside] at stays
    · simp [DecApp.writtenPic] at stays
    · exact orderedPic p inside needed stays
  · intro poc coming p inside stays
    simp only [List.mem_append, List.mem_cons] at inside
    rcases inside with inside | rfl | inside
    · exact inv.fresh poc coming p (by simp [inside]) stays
    · simp [DecApp.writtenPic] at stays
    · exact inv.fresh poc coming p (by simp [inside]) stays
  · intro frame inside
    rcases List.mem_append.mp inside with old | new
    · exact (inv.past frame old).trans (inv.behind pic here needed).le
    · rw [List.mem_singleton.mp new]
      exact le_refl _
  · refine List.pairwise_append.mpr ⟨inv.sorted, List.pairwise_singleton _ _, ?_⟩
    intro f old g new
    rw [List.mem_singleton.mp new]
    exact (inv.past f old).trans_lt (inv.behind pic here needed)
  · have same : written ++ waitingFrames (front ++ pic :: rest) =
        written ++ [pic.frame] ++ waitingFrames (front ++ DecApp.writtenPic pic :: rest) := by
      simp [waitingFrames_of_none idle, waitingFrames_cons, needed, DecApp.writtenPic]
    rw [← same]
    exact inv.complete
  · intro p inside referenced
    obtain ⟨q, there, poc, mark⟩ := fields p inside
    rw [← poc]
    exact inv.references q there (mark ▸ referenced)
  · intro p inside
    obtain ⟨q, there, poc, -⟩ := fields p inside
    rw [← poc]
    exact inv.names q there

/-- The counters of `xWriteOutput`, without the comparison with the last POC. -/
theorem countP_isWaiting (inv : OutputInv finished future marked known listPic last written) :
    listPic.countP (DecApp.isWaiting last) = listPic.countP (·.neededForOutput) :=
  List.countP_congr fun pic here => by rw [inv.isWaiting_eq here]

theorem countP_isHeld (inv : OutputInv finished future marked known listPic last written) :
    listPic.countP (DecApp.isHeld last) =
      listPic.countP fun pic => pic.neededForOutput || pic.referenced :=
  List.countP_congr fun pic here => by rw [DecApp.isHeld, inv.isWaiting_eq here]

end OutputInv

namespace DecApp

/-- Once neither counter is beyond its limit nothing more is written. -/
theorem writeLoop_stop {numReorderPics maxDecPicBuffering num full : Nat}
    (stop : num ≤ numReorderPics ∧ full ≤ maxDecPicBuffering) (last : Int)
    (listPic : List Picture) :
    writeLoop numReorderPics maxDecPicBuffering num full last listPic = (listPic, last, []) := by
  induction listPic with
  | nil => rfl
  | cons pic rest ih =>
      rw [writeLoop, if_neg (by omega), ih]

/-- A picture in front of `xWriteOutput` and behind it. -/
def SameOrWritten (pic pic' : Picture) : Prop :=
  pic' = pic ∨ pic.neededForOutput ∧ pic' = writtenPic pic

theorem writeLoop_forall₂ (numReorderPics maxDecPicBuffering num full : Nat) (last : Int)
    (listPic : List Picture) :
    List.Forall₂ SameOrWritten listPic
      (writeLoop numReorderPics maxDecPicBuffering num full last listPic).1 := by
  induction listPic generalizing num full last with
  | nil => exact .nil
  | cons pic rest ih =>
      rw [writeLoop]
      split
      next condition =>
        have needed : pic.neededForOutput := by
          have waits := condition.1
          simp only [isWaiting, Bool.and_eq_true] at waits
          exact waits.1
        exact .cons (.inr ⟨needed, rfl⟩) (ih _ _ _)
      next => exact .cons (.inl rfl) (ih _ _ _)

variable {finished : List Frame} {future marked known : List Int} {last : Int}
  {written : List Frame} {numReorderPics maxDecPicBuffering : Nat}

/-- The loop of `xWriteOutput` keeps the order of the output. Its induction is over the
pictures not yet visited; none of those in `front` waits any more. -/
theorem writeLoop_inv
    (limits : Limits numReorderPics maxDecPicBuffering finished future marked known)
    (front rest : List Picture) {num full : Nat}
    (inv : OutputInv finished future marked known (front ++ rest) last written)
    (idle : ∀ p ∈ front, p.neededForOutput = false)
    (displayed : num = (front ++ rest).countP (·.neededForOutput))
    (fullness : full = (front ++ rest).countP fun p => p.neededForOutput || p.referenced) :
    OutputInv finished future marked known
      (front ++ (writeLoop numReorderPics maxDecPicBuffering num full last rest).1)
      (writeLoop numReorderPics maxDecPicBuffering num full last rest).2.1
      (written ++ (writeLoop numReorderPics maxDecPicBuffering num full last rest).2.2) := by
  induction rest generalizing front num full last written with
  | nil => simpa [writeLoop] using inv
  | cons pic rest ih =>
      have here : pic ∈ front ++ pic :: rest := by simp
      by_cases stop : num ≤ numReorderPics ∧ full ≤ maxDecPicBuffering
      · simpa [writeLoop_stop stop] using inv
      cases needed : pic.neededForOutput with
      | false =>
          rw [writeLoop, if_neg (by simp [isWaiting, needed])]
          have later := ih (front ++ [pic]) (by simpa using inv) ?_
            (by simpa using displayed) (by simpa using fullness)
          · simpa using later
          · intro p inside
            rcases List.mem_append.mp inside with old | new
            · exact idle p old
            · rwa [List.mem_singleton.mp new]
      | true =>
          -- an earlier picture to come would keep both counters within the limits
          have first : ∀ poc ∈ future, pic.poc < poc := by
            intro poc coming
            by_contra notFirst
            have apart := inv.fresh poc coming pic here needed
            have earlier : poc < pic.poc := by omega
            have within := inv.count_le limits coming fun p inside waits => by
              rcases List.mem_append.mp inside with old | new
              · simp [idle p old] at waits
              rcases List.mem_cons.mp new with rfl | new
              · exact earlier
              · have ordered := (List.pairwise_append.mp inv.ordered).2.1
                exact earlier.trans ((List.pairwise_cons.mp ordered).1 p new needed waits)
            rw [inv.countP_isWaiting, inv.countP_isHeld, ← displayed, ← fullness] at within
            exact stop within
          rw [writeLoop, if_pos ⟨by rw [inv.isWaiting_eq here, needed], by omega⟩]
          have next := inv.write idle needed first
          have later := @ih pic.poc (written ++ [pic.frame]) (front ++ [writtenPic pic]) (num - 1)
            (if pic.referenced then full else full - 1) (by simpa using next) ?_ ?_ ?_
          · simpa using later
          · intro p inside
            rcases List.mem_append.mp inside with old | new
            · exact idle p old
            · rw [List.mem_singleton.mp new]
              rfl
          · simp [displayed, needed, writtenPic]
          · cases referenced : pic.referenced <;>
              simp [fullness, needed, referenced, writtenPic]

end DecApp

end Vtm.Dec
