import Vtm.Player.Frames
import Vtm.RoundTrip.AnnexB
import Mathlib.Data.List.Pairwise

/-!
# Delivery of NAL units

The splitter sends every NAL unit of an Annex B buffer but the last one, and a
frame that comes out of the queue needs the first packet of a frame that was
sent. So a buffer with a NAL unit in it never arrives as a whole.
-/

namespace Vtm.Player

open Vtm.Std Vtm.RoundTrip.AnnexB

/-- A NAL unit behind its start code, which is at least two zeros and a one. -/
structure Segment where
  zeros : Nat
  unit : List UInt8

namespace Segment

/-- The bytes of a segment. -/
def bytes (s : Segment) : List UInt8 := List.replicate s.zeros 0 ++ 1 :: s.unit

/-- A segment of an Annex B byte stream. -/
structure Valid (s : Segment) : Prop where
  zeros : 2 ≤ s.zeros
  some : s.unit ≠ []
  clean : Clean s.unit

end Segment

/-- An Annex B byte stream. -/
@[grind =] def annexBBuffer (segments : List Segment) (trailing : Nat) : List UInt8 :=
  segments.flatMap Segment.bytes ++ List.replicate trailing 0

/-- What the splitter sends once `unit` has begun: every unit that another one
follows, with the zeros between them beyond the third. -/
@[grind =] def framesBehind (unit : List UInt8) : List Segment → List (List UInt8)
  | [] => []
  | s :: segments => (unit ++ List.replicate (s.zeros - 3) 0) :: framesBehind s.unit segments

section Splitting

theorem byteAt_append (front rest : List UInt8) (i : Nat) :
    byteAt (front ++ rest) (front.length + i) = byteAt rest i := by
  simp [byteAt, List.getElem?_append_right]

theorem byteAt_front {front : List UInt8} (rest : List UInt8) {i : Nat} (inside : i < front.length) :
    byteAt (front ++ rest) i = byteAt front i := by
  simp [byteAt, List.getElem?_append_left inside]

theorem byteAt_replicate (count i : Nat) (rest : List UInt8) (inside : i < count) :
    byteAt (List.replicate count 0 ++ rest) i = 0 := by
  rw [byteAt_front rest (by simpa using inside)]
  simp [byteAt, inside]

/-- Three bytes of a list are an infix of it. -/
theorem infix_of_byteAt {u : List UInt8} {j : Nat} (inside : j + 2 < u.length) :
    [byteAt u j, byteAt u (j + 1), byteAt u (j + 2)] <:+: u := by
  have read (i : Nat) (here : i < u.length) : byteAt u i = u.get ⟨i, here⟩ := by
    simp [byteAt, here]
  have behind : u.drop j = [byteAt u j, byteAt u (j + 1), byteAt u (j + 2)] ++ u.drop (j + 3) := by
    rw [List.drop_eq_getElem_cons (by omega : j < u.length),
      List.drop_eq_getElem_cons (by omega : j + 1 < u.length),
      List.drop_eq_getElem_cons (by omega : j + 1 + 1 < u.length),
      read j (by omega), read (j + 1) (by omega), read (j + 2) inside]
    rfl
  refine ⟨u.take j, u.drop (j + 3), ?_⟩
  rw [List.append_assoc, ← behind, List.take_append_drop]

/-- No start code ends inside a clean unit. -/
theorem not_startCodeAt_unit {head u rest : List UInt8} (clean : Clean u) {j : Nat}
    (inside : j < u.length) :
    startCodeAt (head ++ 1 :: u ++ rest) (head.length + 1 + j) = false := by
  by_contra found
  simp only [startCodeAt, Bool.not_eq_false, decide_eq_true_eq] at found
  obtain ⟨⟨one, -⟩, first, second⟩ := found
  have shift : head ++ 1 :: u ++ rest = head ++ (1 :: (u ++ rest)) := by simp
  have byte (i : Nat) (here : i < u.length) :
      byteAt (head ++ 1 :: u ++ rest) (head.length + 1 + i) = byteAt u i := by
    have cons : head ++ 1 :: u ++ rest = (head ++ [1]) ++ (u ++ rest) := by simp
    have length : (head ++ [1]).length = head.length + 1 := by simp
    rw [cons, ← length, byteAt_append, byteAt_front rest here]
  have mark : byteAt (head ++ 1 :: u ++ rest) head.length = 1 := by
    rw [shift]
    exact byteAt_append head (1 :: (u ++ rest)) 0
  match j, inside with
  | 0, _ =>
      rw [show head.length + 1 + 0 - 1 = head.length from rfl, mark] at first
      exact absurd first (by decide)
  | 1, _ =>
      rw [show head.length + 1 + 1 - 2 = head.length from rfl, mark] at second
      exact absurd second (by decide)
  | j + 2, inside =>
      rw [byte (j + 2) inside] at one
      rw [show head.length + 1 + (j + 2) - 1 = head.length + 1 + (j + 1) from rfl,
        byte (j + 1) (by omega)] at first
      rw [show head.length + 1 + (j + 2) - 2 = head.length + 1 + j from rfl,
        byte j (by omega)] at second
      have found := infix_of_byteAt inside
      rw [first, second, one] at found
      exact clean.free 1 (by decide) found

theorem foldl_skip {szBuffer : List UInt8} {start count : Nat} (st : Splitter)
    (none : ∀ i < count, startCodeAt szBuffer (start + i) = false) :
    (List.range' start count).foldl (splitStep szBuffer) st = st := by
  induction count generalizing start with
  | zero => rfl
  | succ count ih =>
      have first : splitStep szBuffer st start = st := by
        rw [splitStep, if_neg]
        simpa using none 0 (by omega)
      rw [List.range'_succ, List.foldl_cons, first]
      refine ih fun i inside => ?_
      have later := none (i + 1) (by omega)
      rwa [Nat.add_right_comm]

/-- The zeros in front of a start code do not end one. -/
theorem not_startCodeAt_zeros {front rest : List UInt8} {count j : Nat} (inside : j < count) :
    startCodeAt (front ++ (List.replicate count 0 ++ rest)) (front.length + j) = false := by
  have zero := byteAt_append front (List.replicate count 0 ++ rest) j
  rw [byteAt_replicate count j rest inside] at zero
  simp [startCodeAt, zero]

/-- The one behind at least two zeros ends a start code. -/
theorem startCodeAt_one {front rest : List UInt8} {count : Nat} (some : 2 ≤ count) :
    startCodeAt (front ++ (List.replicate count 0 ++ 1 :: rest)) (front.length + count) = true := by
  have one := byteAt_append front (List.replicate count 0 ++ 1 :: rest) count
  have mark := byteAt_append (List.replicate count 0) (1 :: rest) 0
  rw [List.length_replicate, Nat.add_zero] at mark
  have first := byteAt_append front (List.replicate count 0 ++ 1 :: rest) (count - 1)
  have second := byteAt_append front (List.replicate count 0 ++ 1 :: rest) (count - 2)
  rw [byteAt_replicate count _ _ (by omega)] at first second
  rw [mark] at one
  rw [← Nat.add_sub_assoc (by omega)] at first second
  simp only [startCodeAt, one, first, second]
  simp only [byteAt, List.getD_cons_zero, ge_iff_le, true_and, and_self, and_true,
    decide_eq_true_eq]
  omega

/-- The frame that ends at the start code of the next segment. -/
theorem frameBefore_segment {head unit rest : List UInt8} {count : Nat} (some : unit ≠ [])
    (clean : Clean unit) (zeros : 2 ≤ count) :
    frameBefore ((head ++ 1 :: unit) ++ (List.replicate count 0 ++ 1 :: rest))
        ((head ++ 1 :: unit).length + count) (Option.some (head.length + 1)) =
      [unit ++ List.replicate (count - 3) 0] := by
  have length : (head ++ 1 :: unit).length = head.length + 1 + unit.length := by
    simp
    omega
  have size : frameSize ((head ++ 1 :: unit) ++ (List.replicate count 0 ++ 1 :: rest))
      (head.length + 1) ((head ++ 1 :: unit).length + count) = unit.length + (count - 3) := by
    rw [frameSize]
    by_cases long : 3 ≤ count
    · have third := byteAt_append (head ++ 1 :: unit) (List.replicate count 0 ++ 1 :: rest)
        (count - 3)
      rw [byteAt_replicate count _ _ (by omega), ← Nat.add_sub_assoc long] at third
      rw [if_pos third, length]
      omega
    · -- with two zeros the byte before them is the last one of the unit
      have two : count = 2 := by omega
      have positive := List.length_pos_iff.mpr some
      have last : byteAt ((head ++ 1 :: unit) ++ (List.replicate count 0 ++ 1 :: rest))
          ((head ++ 1 :: unit).length + count - 3) ≠ 0 := by
        have split : head ++ 1 :: unit = (head ++ [1]) ++ unit := by simp
        have place : (head ++ 1 :: unit).length + count - 3 =
            (head ++ [1]).length + (unit.length - 1) := by
          simp
          omega
        rw [place, split, List.append_assoc, byteAt_append,
          byteAt_front _ (by omega : unit.length - 1 < unit.length)]
        intro zero
        apply clean.ending
        rw [List.getLast?_eq_getElem?, List.getElem?_eq_getElem (by omega)]
        rw [byteAt, List.getD_eq_getElem?_getD, List.getElem?_eq_getElem (by omega),
          Option.getD_some] at zero
        rw [zero]
      rw [if_neg last, length]
      omega
  have body : ((head ++ 1 :: unit) ++ (List.replicate count 0 ++ 1 :: rest)).drop
      (head.length + 1) = unit ++ (List.replicate count 0 ++ 1 :: rest) := by
    have split : (head ++ 1 :: unit) ++ (List.replicate count 0 ++ 1 :: rest) =
        (head ++ [1]) ++ (unit ++ (List.replicate count 0 ++ 1 :: rest)) := by simp
    rw [split, List.drop_left' (by simp)]
  have pad : (List.replicate count (0 : UInt8) ++ 1 :: rest).take (count - 3) =
      List.replicate (count - 3) 0 := by
    rw [List.take_append_of_le_length (by simp), List.take_replicate, Nat.min_eq_left (by omega)]
  rw [frameBefore, size, body, List.take_append, List.take_of_length_le (Nat.le_add_right _ _),
    Nat.add_sub_cancel_left, pad]

theorem foldl_range'_add (szBuffer : List UInt8) (start m n : Nat) (st : Splitter) :
    (List.range' start (m + n)).foldl (splitStep szBuffer) st =
      (List.range' (start + m) n).foldl (splitStep szBuffer)
        ((List.range' start m).foldl (splitStep szBuffer) st) := by
  rw [← List.range'_append_1, List.foldl_append]

/-- The loop passes over a clean unit. -/
theorem foldl_unit {head unit : List UInt8} (clean : Clean unit) (rest : List UInt8)
    (st : Splitter) :
    (List.range' (head.length + 1) (unit ++ rest).length).foldl
        (splitStep (head ++ 1 :: unit ++ rest)) st =
      (List.range' (head ++ 1 :: unit).length rest.length).foldl
        (splitStep (head ++ 1 :: unit ++ rest)) st := by
  have place : head.length + 1 + unit.length = (head ++ 1 :: unit).length := by
    simp
    omega
  rw [List.length_append, foldl_range'_add, foldl_skip st, place]
  exact fun i inside => not_startCodeAt_unit clean inside

/-- The loop passes over the zeros of a segment and sends the frame before it. -/
theorem foldl_startCode {head unit rest : List UInt8} {count : Nat} (some : unit ≠ [])
    (clean : Clean unit) (zeros : 2 ≤ count) (frames : List (List UInt8)) :
    (List.range' (head ++ 1 :: unit).length (List.replicate count 0 ++ 1 :: rest).length).foldl
        (splitStep (head ++ 1 :: unit ++ (List.replicate count 0 ++ 1 :: rest)))
        ⟨Option.some (head.length + 1), frames⟩ =
      (List.range' ((head ++ 1 :: unit).length + count + 1) rest.length).foldl
        (splitStep (head ++ 1 :: unit ++ (List.replicate count 0 ++ 1 :: rest)))
        ⟨Option.some ((head ++ 1 :: unit).length + count + 1),
          frames ++ [unit ++ List.replicate (count - 3) 0]⟩ := by
  have length : (List.replicate count (0 : UInt8) ++ 1 :: rest).length =
      count + (rest.length + 1) := by simp
  rw [length, foldl_range'_add, foldl_skip _ fun i inside => not_startCodeAt_zeros inside,
    List.range'_succ, List.foldl_cons, splitStep, if_pos (startCodeAt_one zeros),
    frameBefore_segment some clean zeros]

theorem annexBBuffer_cons (s : Segment) (segments : List Segment) (trailing : Nat) :
    annexBBuffer (s :: segments) trailing =
      List.replicate s.zeros 0 ++ 1 :: (s.unit ++ annexBBuffer segments trailing) := by
  simp [annexBBuffer, Segment.bytes]

/-- From the start code of a unit on, the loop sends the unit and the ones behind
it, the last one excepted. -/
theorem foldl_segments (segments : List Segment) (valid : ∀ s ∈ segments, s.Valid) (trailing : Nat)
    (head : List UInt8) {unit : List UInt8} (some : unit ≠ []) (clean : Clean unit)
    (frames : List (List UInt8)) :
    ((List.range' (head.length + 1) (unit ++ annexBBuffer segments trailing).length).foldl
        (splitStep (head ++ 1 :: unit ++ annexBBuffer segments trailing))
        ⟨Option.some (head.length + 1), frames⟩).frames =
      frames ++ framesBehind unit segments := by
  induction segments generalizing head unit frames with
  | nil =>
      have zeros : annexBBuffer [] trailing = List.replicate trailing 0 ++ [] := by
        simp [annexBBuffer]
      have length : (List.replicate trailing (0 : UInt8) ++ []).length = trailing := by simp
      rw [foldl_unit clean, zeros, length,
        foldl_skip _ fun i inside => not_startCodeAt_zeros inside, framesBehind, List.append_nil]
  | cons s segments ih =>
      obtain ⟨zeros, next, nextClean⟩ := valid s (by simp)
      have later : ∀ s ∈ segments, s.Valid := fun s member => valid s (by simp [member])
      have rest := ih later (head ++ 1 :: unit ++ List.replicate s.zeros 0) next nextClean
        (frames ++ [unit ++ List.replicate (s.zeros - 3) 0])
      have length : (head ++ 1 :: unit ++ List.replicate s.zeros 0).length =
          (head ++ 1 :: unit).length + s.zeros := by
        rw [List.length_append, List.length_replicate]
      have buffer : head ++ 1 :: unit ++ List.replicate s.zeros 0 ++ 1 :: s.unit ++
          annexBBuffer segments trailing = head ++ 1 :: unit ++
            (List.replicate s.zeros 0 ++ 1 :: (s.unit ++ annexBBuffer segments trailing)) := by
        simp only [List.append_assoc, List.cons_append]
      rw [length, buffer] at rest
      rw [foldl_unit clean, annexBBuffer_cons, foldl_startCode some clean zeros, rest,
        framesBehind, List.append_assoc, List.singleton_append]

/-- What the splitter sends of an Annex B byte stream. -/
@[grind =] def sentUnits : List Segment → List (List UInt8)
  | [] => []
  | s :: segments => framesBehind s.unit segments

theorem sentFrames_annexB (segments : List Segment) (valid : ∀ s ∈ segments, s.Valid)
    (trailing : Nat) : sentFrames (annexBBuffer segments trailing) = sentUnits segments := by
  rw [sentFrames, List.range_eq_range']
  cases segments with
  | nil =>
      have zeros : annexBBuffer [] trailing = List.replicate trailing 0 ++ [] := by
        simp [annexBBuffer]
      have length : (List.replicate trailing (0 : UInt8) ++ []).length = trailing := by simp
      have skip : ∀ i < trailing, startCodeAt (List.replicate trailing 0 ++ []) (0 + i) = false :=
        fun i inside => @not_startCodeAt_zeros [] [] trailing i inside
      rw [zeros, length, foldl_skip _ skip]
      rfl
  | cons s segments =>
      obtain ⟨zeros, some, clean⟩ := valid s (by simp)
      have rest := foldl_segments segments (fun s member => valid s (by simp [member])) trailing
        (List.replicate s.zeros 0) some clean []
      rw [annexBBuffer_cons]
      rw [List.length_replicate, List.append_assoc, List.cons_append, List.nil_append] at rest
      generalize s.unit ++ annexBBuffer segments trailing = behind at rest ⊢
      have length : (List.replicate s.zeros (0 : UInt8) ++ 1 :: behind).length =
          s.zeros + (behind.length + 1) := by simp
      have skip : ∀ i < s.zeros,
          startCodeAt (List.replicate s.zeros 0 ++ 1 :: behind) (0 + i) = false :=
        fun i inside => @not_startCodeAt_zeros [] (1 :: behind) s.zeros i inside
      have mark : startCodeAt (List.replicate s.zeros 0 ++ 1 :: behind) (0 + s.zeros) = true :=
        @startCodeAt_one [] behind s.zeros zeros
      rw [length, foldl_range'_add, foldl_skip _ skip, List.range'_succ, List.foldl_cons, splitStep,
        if_pos mark, frameBefore, List.append_nil, Nat.zero_add, rest, sentUnits]

end Splitting

section Counting

/-- The first packets of frames. -/
@[grind =] def starts (queue : List Packet) : List Packet :=
  queue.filter fun packet => packet.seq = 0 ∧ packet.type ≠ RtmpType.Fin.code

theorem combinePacket_none {st st' : Frame × Nat} {packet : Packet} (none : st.1.data = none)
    (run : combinePacket st packet = .ok st') : st'.1.data = Option.none := by
  unfold combinePacket at run
  split at run
  · rw [none] at run
    cases run
  · cases run
    exact none

/-- A call that returns bytes has met the first packet of a frame. -/
theorem combineLoop_starts {memory : Nat → Nat → UInt8} {st : Frame × Nat} {queue : List Packet}
    {nalu : NextNalu} (run : combineLoop memory st queue = .ok nalu) :
    (starts nalu.queue).length ≤ (starts queue).length ∧
      (st.1.data = none → nalu.data ≠ [] →
        (starts nalu.queue).length < (starts queue).length) := by
  induction queue generalizing st with
  | nil => cases run
  | cons packet queue ih =>
      rw [combineLoop] at run
      by_cases fin : packet.type = RtmpType.Fin.code
      · rw [if_pos fin] at run
        cases run
        have same : starts (packet :: queue) = starts queue := by simp [starts, fin]
        rw [same]
        refine ⟨Nat.le_refl _, fun none some => ?_⟩
        rw [none] at some
        exact absurd rfl some
      · rw [if_neg fin, bind_eq_ok_iff] at run
        obtain ⟨st', combined, run⟩ := run
        by_cases first : packet.seq = 0
        · have more : starts (packet :: queue) = packet :: starts queue := by
            simp [starts, fin, first]
          rw [more, List.length_cons]
          split at run
          · cases run
            exact ⟨Nat.le_succ _, fun _ _ => Nat.lt_succ_self _⟩
          · obtain ⟨fewer, -⟩ := ih run
            exact ⟨by omega, fun _ _ => by omega⟩
        · have same : starts (packet :: queue) = starts queue := by simp [starts, first]
          rw [same]
          have kept : st.1.data = none → st'.1.data = none := fun none =>
            combinePacket_none none (by rwa [firstPacket, if_neg first] at combined)
          split at run
          · cases run
            refine ⟨Nat.le_refl _, fun none some => ?_⟩
            rw [kept none] at some
            exact absurd rfl some
          · obtain ⟨fewer, less⟩ := ih run
            exact ⟨fewer, fun none => less (kept none)⟩

/-- No more frames arrive than have been sent. -/
theorem framesUntilFin_starts {memory : Nat → Nat → UInt8} {calls : Nat} {queue : List Packet}
    {frames : List (List UInt8)} (some : ∀ frame ∈ frames, frame ≠ [])
    (run : framesUntilFin memory calls queue = .ok frames) :
    frames.length ≤ (starts queue).length := by
  induction calls generalizing queue frames with
  | zero => cases run
  | succ calls ih =>
      rw [framesUntilFin, bind_eq_ok_iff] at run
      obtain ⟨nalu, call, run⟩ := run
      obtain ⟨-, less⟩ := combineLoop_starts call
      split at run
      · cases run
        exact Nat.zero_le _
      · rw [bind_eq_ok_iff] at run
        obtain ⟨rest, run, built⟩ := run
        cases built
        have fewer := ih (fun frame member => some frame (by simp [member])) run
        have first := less rfl (some nalu.data (by simp))
        rw [List.length_cons]
        omega

theorem starts_append (queue queue' : List Packet) :
    starts (queue ++ queue') = starts queue ++ starts queue' := List.filter_append ..

theorem starts_framePackets (frame : List UInt8) (timestamp : Nat) :
    (starts (framePackets frame timestamp)).length ≤ 1 := by
  rw [starts, framePackets, List.filter_map, List.length_map]
  cases NUM_PACK frame.length with
  | zero => exact Nat.zero_le 1
  | succ count =>
      have later : ((List.range' 1 count).filter ((fun packet : Packet =>
          decide (packet.seq = 0 ∧ packet.type ≠ RtmpType.Fin.code)) ∘ fun i =>
          pushPacket frame.length (i ≠ count + 1 - 1) (i * MAX_BODY_SIZE) timestamp
            (frame.drop (i * MAX_BODY_SIZE)))) = [] := by
        rw [List.filter_eq_nil_iff]
        intro i member
        have positive := (List.mem_range'_1.mp member).1
        simp only [Function.comp_apply, pushPacket, decide_eq_true_eq, not_and]
        intro zero
        unfold MAX_BODY_SIZE at zero
        omega
      rw [List.range_eq_range', List.range'_succ, List.filter_cons, later]
      split <;> simp

theorem starts_streamPackets (clock : Nat → Nat) (n : Nat) (frames : List (List UInt8)) :
    (starts (streamPackets clock n frames)).length ≤ frames.length := by
  induction frames generalizing n with
  | nil => simp [streamPackets, starts, finPacket]
  | cons frame frames ih =>
      have first := starts_framePackets frame (clock n)
      have rest := ih (n + 1)
      rw [streamPackets, starts_append, List.length_append, List.length_cons]
      omega

theorem length_framesBehind (unit : List UInt8) (segments : List Segment) :
    (framesBehind unit segments).length = segments.length := by
  induction segments generalizing unit with
  | nil => rfl
  | cons s segments ih => rw [framesBehind, List.length_cons, ih, List.length_cons]

end Counting

/-- The NAL units of an Annex B buffer arrive as they are exactly when there are
none: the last one is never sent. -/
theorem receivedFrames_eq_units_iff (segments : List Segment) (valid : ∀ s ∈ segments, s.Valid)
    (trailing : Nat) (clock : Nat → Nat) (memory : Nat → Nat → UInt8) (popped : List Packet)
    (order : PopOrder (sentPackets clock (annexBBuffer segments trailing)) popped) :
    receivedFrames memory popped = .ok (segments.map Segment.unit) ↔ segments = [] := by
  have sent := sentFrames_annexB segments valid trailing
  constructor
  · intro run
    have received := framesUntilFin_starts (fun frame member => by
      obtain ⟨s, mem, rfl⟩ := List.mem_map.mp member
      exact (valid s mem).some) run
    have pushed : (starts popped).length ≤ (sentUnits segments).length := by
      have perm : (starts popped).Perm (starts (sentPackets clock (annexBBuffer segments trailing))) :=
        order.perm.filter _
      rw [perm.length_eq, sentPackets, sent]
      exact starts_streamPackets clock 0 _
    cases segments with
    | nil => rfl
    | cons s segments =>
        rw [sentUnits, length_framesBehind] at pushed
        rw [List.length_map, List.length_cons] at received
        omega
  · rintro rfl
    have only : popped = [finPacket (clock 0)] := by
      have perm := order.perm
      rw [sentPackets, sent] at perm
      exact List.perm_singleton.mp perm
    rw [only]
    rfl

/-- Two short NAL units behind four-byte start codes. -/
def twoSegments : List Segment := [⟨3, [64, 1]⟩, ⟨3, [66, 1]⟩]

theorem twoSegments_valid : ∀ s ∈ twoSegments, s.Valid := by
  have clean (a : UInt8) : Clean [a, 1] := by
    refine ⟨fun third _ found => ?_, by simp⟩
    have length := found.length_le
    simp at length
  intro s member
  rcases List.mem_pair.mp member with rfl | rfl
  · exact ⟨by decide, by simp, clean 64⟩
  · exact ⟨by decide, by simp, clean 66⟩

theorem twoSegments_order :
    PopOrder (sentPackets id (annexBBuffer twoSegments 0))
      [pushPacket 2 false 0 0 [64, 1], finPacket 1] :=
  ⟨List.Perm.of_eq (by decide), by decide⟩

/-- The second one of two NAL units does not arrive. -/
theorem receivedFrames_twoSegments :
    receivedFrames (fun _ _ => 0) [pushPacket 2 false 0 0 [64, 1], finPacket 1] ≠
      .ok (twoSegments.map Segment.unit) := fun run =>
  absurd ((receivedFrames_eq_units_iff twoSegments twoSegments_valid 0 id (fun _ _ => 0) _
    twoSegments_order).mp run) (by decide)

/-- Of two NAL units only the first one arrives. -/
theorem last_unit_is_lost :
    (∀ s ∈ twoSegments, s.Valid) ∧
      PopOrder (sentPackets id (annexBBuffer twoSegments 0))
        [pushPacket 2 false 0 0 [64, 1], finPacket 1] ∧
      receivedFrames (fun _ _ => 0) [pushPacket 2 false 0 0 [64, 1], finPacket 1] =
        .ok [[64, 1]] ∧
      twoSegments.map Segment.unit = [[64, 1], [66, 1]] :=
  ⟨twoSegments_valid, twoSegments_order, rfl, rfl⟩

end Vtm.Player
