import Vtm.Parcat.FilterSegment
import Vtm.RoundTrip.NAL

/-!
# Parcat: the NAL units of a segment

A segment is a sequence of frames, each a start code and a NAL unit as `write`
produces it. The loop of `filter_segment` meets the frames one after another,
whatever stands behind the buffer.
-/

namespace Vtm.Parcat

open Vtm.Std Vtm.NALwrite Vtm.RoundTrip.NAL

/-! ## Memory -/

/-- The bytes at a pointer. -/
def Holds (p : Memory) (v : List UInt8) : Prop := ∀ i < v.length, v[i]? = some (p i)

namespace Holds

theorem ofBuffer (v : List UInt8) (beyond : Memory) : Holds (.ofBuffer v beyond) v := by
  intro i inside
  rw [Memory.ofBuffer, List.getD_eq_getElem?_getD, List.getElem?_eq_getElem inside]
  rfl

variable {p : Memory} {v w : List UInt8}

theorem left (holds : Holds p (v ++ w)) : Holds p v := by
  intro i inside
  rw [← holds i (by simp; omega), List.getElem?_append_left inside]

theorem right (holds : Holds p (v ++ w)) : Holds (p.advance v.length) w := by
  intro i inside
  rw [Memory.advance, ← holds (v.length + i) (by simp; omega),
    List.getElem?_append_right (by omega), Nat.add_sub_cancel_left]

theorem bytes (holds : Holds p v) : p.bytes v.length = v := by
  apply List.ext_getElem?
  intro i
  by_cases inside : i < v.length
  · rw [Memory.bytes, List.getElem?_map, List.getElem?_range inside, holds i inside]
    rfl
  · rw [Memory.bytes, List.getElem?_eq_none (by simpa using inside),
      List.getElem?_eq_none (by omega)]

theorem get {i : Nat} {byte : UInt8} (holds : Holds p v) (here : v[i]? = some byte) :
    p i = byte := by
  obtain ⟨inside, -⟩ := List.getElem?_eq_some_iff.mp here
  have same := holds i inside
  rw [here, Option.some.injEq] at same
  exact same.symm

end Holds

/-! ## Frames -/

/-- A start code and a NAL unit. A slice brings at least the eight bits of its POC
and the bits behind them. -/
structure Frame where
  leadingZeros : Nat
  unit : OutputNALUnit
  data : List UInt8
  inRange : unit.InRange
  shape : Rbsp data unit.bitstream.fifo
  header : isPatchedType unit.nalUnitType.code → 2 ≤ data.length

namespace Frame

variable (f : Frame)

/-- The bytes in front of the NAL unit. -/
@[grind =] def lead : List UInt8 := List.replicate f.leadingZeros 0 ++ [0, 0, 1]

/-- The NAL unit. -/
def nal : List UInt8 := headerBytes f.unit.toNALUnit ++ escapePayload f.unit.bitstream.fifo

def bytes : List UInt8 := f.lead ++ f.nal

theorem startCodeFree_nal : StartCodeFree f.nal := NALwrite.startCodeFree_nal f.inRange _

theorem getLast_nal : f.nal.getLast? ≠ some 0 := NALwrite.getLast_nal f.inRange _

theorem two_le_length_nal : 2 ≤ f.nal.length := by
  simp [nal, headerBytes]

theorem length_lead : f.lead.length = f.leadingZeros + 3 := by
  simp [lead]

end Frame

/-- The bytes of a segment. -/
def segmentBytes (frames : List Frame) : List UInt8 := frames.flatMap Frame.bytes

/-- The frames the loop meets: a NAL unit of two bytes at the very end is not found. -/
def metFrames : List Frame → List Frame
  | [] => []
  | [f] => if f.nal.length < 3 then [] else [f]
  | f :: next :: rest => f :: metFrames (next :: rest)

/-! ## Finding a NAL unit -/

/-- What follows a NAL unit: the end of the buffer or the next start code. -/
def Followed (p : Memory) (size stop : Nat) : Prop :=
  stop = size ∨ stop + 3 < size ∧ p stop = 0 ∧ p (stop + 1) = 0 ∧ p (stop + 2) ≤ 1

/-- Inside a NAL unit the search for its end goes on. -/
theorem inside_nal {p : Memory} {nal : List UInt8} (holds : Holds p nal)
    (free : StartCodeFree nal) (ending : nal.getLast? ≠ some 0) {i : Nat}
    (inside : i < nal.length) : ¬ (p i = 0 ∧ p (i + 1) = 0 ∧ p (i + 2) ≤ 1) := by
  rintro ⟨first, second, third⟩
  by_cases whole : i + 2 < nal.length
  · apply free (p (i + 2)) (UInt8.le_trans third (by decide))
    refine ⟨nal.take i, nal.drop (i + 3), ?_⟩
    have at0 : nal[i] = 0 := by
      simpa [List.getElem?_eq_getElem inside, first] using holds i inside
    have at1 : nal[i + 1] = 0 := by
      simpa [List.getElem?_eq_getElem (show i + 1 < nal.length by omega), second] using
        holds (i + 1) (by omega)
    have at2 : nal[i + 2] = p (i + 2) := by
      simpa [List.getElem?_eq_getElem whole] using holds (i + 2) whole
    have tail : nal.drop i = 0 :: 0 :: p (i + 2) :: nal.drop (i + 3) := by
      rw [List.drop_eq_getElem_cons inside, List.drop_eq_getElem_cons (by omega),
        List.drop_eq_getElem_cons whole, at0, at1, at2]
    rw [List.append_assoc]
    exact (congrArg (nal.take i ++ ·) tail.symm).trans (List.take_append_drop i nal)
  · -- the window reaches past the last byte, which is not zero
    apply ending
    have last : nal.length - 1 = i ∨ nal.length - 1 = i + 1 := by omega
    rw [List.getLast?_eq_getElem?]
    rcases last with here | here
    · rw [here, holds i inside, first]
    · rw [here, holds (i + 1) (by omega), second]

theorem findEnd_nal {p : Memory} {size start : Nat} {nal : List UInt8}
    (holds : Holds (p.advance start) nal) (free : StartCodeFree nal)
    (ending : nal.getLast? ≠ some 0) (next : Followed p size (start + nal.length))
    (i : Nat) (inside : i ≤ nal.length) (room : start + i + 3 ≤ size) :
    findEnd p size (start + i) =
      if start + nal.length = size then size - 3 else start + nal.length := by
  obtain ⟨left, total⟩ : ∃ left, left + i = nal.length := ⟨nal.length - i, by omega⟩
  induction left generalizing i with
  | zero =>
      have here : i = nal.length := by omega
      subst here
      rcases next with last | ⟨more, first, second, third⟩
      · omega
      · rw [findEnd, if_neg, if_neg (by omega)]
        rintro ⟨-, notZeros, notCode⟩
        rcases (by grind : p (start + nal.length + 2) = 0 ∨ p (start + nal.length + 2) = 1)
          with zero | one
        · simp [first, second, zero] at notZeros
        · simp [first, second, one] at notCode
  | succ left ih =>
      have window := inside_nal holds free ending (show i < nal.length by omega)
      simp only [Memory.advance, ← Nat.add_assoc] at window
      by_cases more : start + i + 3 < size
      · rw [findEnd, if_pos, Nat.add_assoc start i 1]
        · exact ih (i + 1) (by omega) (by omega) (by omega)
        · refine ⟨more, ?_, ?_⟩
          · by_contra zeros
            simp only [not_or, not_not] at zeros
            exact window ⟨zeros.1, zeros.2.1, by rw [zeros.2.2]; decide⟩
          · by_contra code
            simp only [not_or, not_not] at code
            exact window ⟨code.1, code.2.1, by rw [code.2.2]; decide⟩
      · rw [findEnd, if_neg fun go => more go.1]
        rcases next with last | ⟨beyond, -⟩
        · rw [if_pos last]
          omega
        · omega

/-- Before the last leading zero the search for the beginning goes on. -/
theorem findStart_lead {p : Memory} {size zeros : Nat}
    (holds : Holds p (List.replicate zeros 0 ++ [0, 0, 1])) (room : zeros + 5 ≤ size) (i : Nat)
    (inside : i ≤ zeros - 1) : findStart p size i = some (zeros - 1) := by
  have zero (j : Nat) (lt : j < zeros + 2) : p j = 0 := by
    apply holds.get
    have shape : List.replicate zeros 0 ++ [0, 0, 1] =
        List.replicate (zeros + 2) (0 : UInt8) ++ [1] := by
      simp [List.replicate_succ']
    rw [shape, List.getElem?_append_left (by simpa using lt), List.getElem?_replicate, if_pos lt]
  have one : p (zeros + 2) = 1 := by
    apply holds.get
    rw [List.getElem?_append_right (by simp)]
    simp
  obtain ⟨left, total⟩ : ∃ left, left + i = zeros - 1 := ⟨zeros - 1 - i, by omega⟩
  induction left generalizing i with
  | zero =>
      have here : i = zeros - 1 := by omega
      subst here
      rw [findStart, if_neg]
      rcases Nat.eq_zero_or_pos zeros with none | some
      · subst none
        simp [zero 0 (by omega), zero 1 (by omega), show p 2 = 1 from one]
      · have last : zeros - 1 + 3 = zeros + 2 := by omega
        simp [zero (zeros - 1) (by omega), zero (zeros - 1 + 1) (by omega),
          zero (zeros - 1 + 2) (by omega), last, one]
  | succ left ih =>
      rw [findStart, if_pos, if_neg (by omega)]
      · exact ih (i + 1) (by omega) (by omega)
      · simp [zero (i + 2) (by omega), zero (i + 3) (by omega)]

/-- At a frame `find_nal_unit` finds its NAL unit, or at the very end none. -/
theorem findNalUnit_frame (f : Frame) {p : Memory} {size : Nat} (holds : Holds p f.bytes)
    (next : Followed p size f.bytes.length) :
    findNalUnit p size =
      if f.bytes.length = size ∧ f.nal.length < 3 then (f.lead.length, f.lead.length)
      else (f.lead.length, f.bytes.length) := by
  have twoLe := f.two_le_length_nal
  have total : f.bytes.length = f.leadingZeros + 3 + f.nal.length := by
    rw [Frame.bytes, List.length_append, f.length_lead]
  have inNal : Holds (p.advance (f.leadingZeros + 3)) f.nal := f.length_lead ▸ holds.right
  have room : f.bytes.length ≤ size := by
    rcases next with last | ⟨more, -⟩ <;> omega
  have start := findStart_lead (holds.left) (show f.leadingZeros + 5 ≤ size by omega) 0
    (Nat.zero_le _)
  have code (j : Nat) (lt : j < 3) : p (f.leadingZeros + j) = [0, 0, 1].getD j 0 := by
    apply holds.left.get
    rw [Frame.lead, List.getElem?_append_right (by simp)]
    interval_cases j <;> simp
  have atCode : noPrefix p f.leadingZeros = false := by
    simp [noPrefix, code 1 (by omega), code 2 (by omega),
      show p f.leadingZeros = 0 from code 0 (by omega)]
  have located : (if noPrefix p (f.leadingZeros - 1) then f.leadingZeros - 1 + 1
      else f.leadingZeros - 1) = f.leadingZeros := by
    rcases Nat.eq_zero_or_pos f.leadingZeros with none | some
    · rw [none] at atCode ⊢
      simp [atCode]
    · have before : f.leadingZeros - 1 + 2 = f.leadingZeros + 1 := by omega
      have passes : noPrefix p (f.leadingZeros - 1) = true := by
        simp [noPrefix, before, code 1 (by omega)]
      rw [if_pos passes]
      omega
  rw [findNalUnit, start]
  dsimp only
  rw [located, findNalUnitAt, if_neg (by simp [atCode]), f.length_lead, total]
  dsimp only
  by_cases short : f.leadingZeros + 3 + f.nal.length = size ∧ f.nal.length < 3
  · have here : findEnd p size (f.leadingZeros + 3) = f.leadingZeros + 3 := by
      rw [findEnd, if_neg (by omega)]
    rw [if_pos short, here, if_neg (by omega)]
  · rw [if_neg short]
    have stop := findEnd_nal inNal f.startCodeFree_nal f.getLast_nal (total ▸ next) 0
      (Nat.zero_le _) (by omega)
    rw [Nat.add_zero] at stop
    rw [stop]
    split
    · next last =>
        rw [if_pos (by omega), last]
    · next more =>
        rw [if_neg]
        rcases next with last | ⟨beyond, -⟩ <;> omega

/-- Behind a frame is the end of the segment or the next frame. -/
theorem followed_frame (f : Frame) (rest : List Frame) {p : Memory}
    (holds : Holds p (segmentBytes (f :: rest))) :
    Followed p (segmentBytes (f :: rest)).length f.bytes.length := by
  cases rest with
  | nil =>
      left
      simp [segmentBytes]
  | cons g rest =>
      right
      have shape : segmentBytes (f :: g :: rest) =
          f.bytes ++ (g.lead ++ (g.nal ++ segmentBytes rest)) := by
        simp [segmentBytes, Frame.bytes]
      have twoLe := g.two_le_length_nal
      rw [shape] at holds ⊢
      have code : Holds (p.advance f.bytes.length) g.lead := holds.right.left
      have zeros (j : Nat) (lt : j < g.leadingZeros + 2) : p (f.bytes.length + j) = 0 := by
        apply code.get
        have same : g.lead = List.replicate (g.leadingZeros + 2) 0 ++ [1] := by
          simp [Frame.lead, List.replicate_succ']
        rw [same, List.getElem?_append_left (by simpa using lt), List.getElem?_replicate,
          if_pos lt]
      refine ⟨?_, zeros 0 (by omega), zeros 1 (by omega), ?_⟩
      · simp only [List.length_append, g.length_lead]
        omega
      · rcases Nat.eq_zero_or_pos g.leadingZeros with none | some
        · have one : p (f.bytes.length + 2) = 1 := by
            apply code.get
            simp [Frame.lead, none]
          rw [one]
          exact UInt8.le_refl 1
        · rw [zeros 2 (by omega)]
          decide

section Loop

variable {M : Type} (store : M → InputNALUnit → Checked M)

/-- Where no NAL unit is found the loop is left. -/
theorem filterLoop_done (idx : Nat) (pocBase lastIdrPoc : Int) {p : Memory} {sz : Nat}
    (none : (findNalUnit p sz).2 - (findNalUnit p sz).1 = 0) (st : FilterState M) :
    filterLoop store idx pocBase lastIdrPoc p sz st = .ok st := by
  rw [filterLoop, dif_neg (by omega)]
  rfl

theorem filterLoop_next (idx : Nat) (pocBase lastIdrPoc : Int) (f : Frame) {p : Memory}
    {sz : Nat} (holds : Holds p f.bytes) (found : findNalUnit p sz = (f.lead.length, f.bytes.length))
    (st : FilterState M) :
    filterLoop store idx pocBase lastIdrPoc p sz st =
      (do
        let st ← filterNalu store idx pocBase lastIdrPoc f.lead f.nal st
        filterLoop store idx pocBase lastIdrPoc (p.advance f.bytes.length)
          (sz - f.bytes.length) st) := by
  have twoLe := f.two_le_length_nal
  have total : f.bytes.length = f.lead.length + f.nal.length := List.length_append
  have size : f.bytes.length - f.lead.length = f.nal.length := by omega
  rw [filterLoop, found, dif_pos (by dsimp only; omega)]
  dsimp only
  rw [holds.left.bytes, size, holds.right.bytes]

/-- The loop is a fold over the frames it meets. -/
theorem filterLoop_frames (idx : Nat) (pocBase lastIdrPoc : Int) (frames : List Frame)
    {p : Memory} (holds : Holds p (segmentBytes frames)) (st : FilterState M) :
    filterLoop store idx pocBase lastIdrPoc p (segmentBytes frames).length st =
      (metFrames frames).foldlM
        (fun st f => filterNalu store idx pocBase lastIdrPoc f.lead f.nal st) st := by
  induction frames generalizing p st with
  | nil =>
      apply filterLoop_done
      by_contra found
      have inside := findNalUnit_le (Nat.pos_of_ne_zero found)
      simp only [segmentBytes, List.flatMap_nil, List.length_nil] at inside found
      omega
  | cons f rest ih =>
      have next := followed_frame f rest holds
      have split : segmentBytes (f :: rest) = f.bytes ++ segmentBytes rest := rfl
      rw [split] at holds next ⊢
      have found := findNalUnit_frame f holds.left next
      have left : (f.bytes ++ segmentBytes rest).length - f.bytes.length =
          (segmentBytes rest).length := by
        rw [List.length_append, Nat.add_sub_cancel_left]
      cases rest with
      | nil =>
          have whole : (f.bytes ++ segmentBytes []).length = f.bytes.length := by
            simp [segmentBytes]
          by_cases short : f.nal.length < 3
          · rw [if_pos ⟨whole.symm, short⟩] at found
            rw [filterLoop_done _ _ _ _ (by rw [found]; exact Nat.sub_self _), metFrames,
              if_pos short]
            rfl
          · rw [if_neg fun both => short both.2] at found
            rw [filterLoop_next store idx pocBase lastIdrPoc f holds.left found, left, metFrames,
              if_neg short, List.foldlM_cons]
            exact bind_congr fun st => ih holds.right st
      | cons g rest =>
          have more : ¬ (f.bytes.length = (f.bytes ++ segmentBytes (g :: rest)).length ∧
              f.nal.length < 3) := by
            have twoLe := g.two_le_length_nal
            simp only [segmentBytes, List.flatMap_cons, List.length_append, Frame.bytes]
            omega
          rw [if_neg more] at found
          rw [filterLoop_next store idx pocBase lastIdrPoc f holds.left found, left, metFrames,
            List.foldlM_cons]
          exact bind_congr fun st => ih holds.right st

end Loop

end Vtm.Parcat
