import Mathlib.Algebra.Order.BigOperators.Group.List
import Vtm.RoundTrip.BitStream
import Vtm.RoundTrip.NAL
import Vtm.RoundTrip.VLC

/-!
# Entry points survive emulation prevention

Three computations count inserted bytes: the writer's insertion loop, the
per-substream `countStartCodeEmulations` and the decoder's conversion of
recorded positions. All three are compared with `insertions`, the number of
bytes inserted into a piece of payload from a given zero count.
-/

namespace Vtm.RoundTrip.EntryPoint

open Vtm.Std Vtm.NALwrite Vtm.NALread Vtm.RoundTrip.BitStream Vtm.RoundTrip.NAL Vtm.SliceHeader
open InputBitstream (length_remaining ofFifo)

/-- The number of bytes the writer inserts into a payload. -/
@[grind =] def insertions (zeroCount : Nat) (rbsp : List UInt8) : Nat :=
  (escapeLocations 0 zeroCount rbsp).length

theorem length_escapeLocations (pos zeroCount : Nat) (rbsp : List UInt8) :
    (escapeLocations pos zeroCount rbsp).length = insertions zeroCount rbsp := by
  unfold insertions
  induction rbsp generalizing pos zeroCount with
  | nil => rfl
  | cons v rest ih =>
      rw [escapeLocations, escapeLocations]
      split
      · rw [List.length_cons, List.length_cons, ih, ← ih (0 + 2)]
      · rw [ih, ← ih (0 + 1)]

theorem insertions_cons (zeroCount : Nat) (v : UInt8) (rest : List UInt8) :
    insertions zeroCount (v :: rest) =
      if zeroCount = 2 ∧ v ≤ 3 then insertions (nextCount 0 v) rest + 1
      else insertions (nextCount zeroCount v) rest := by
  unfold insertions
  rw [escapeLocations]
  split
  · rw [List.length_cons, length_escapeLocations, ← length_escapeLocations 0]
  · rw [length_escapeLocations, ← length_escapeLocations 0]

theorem length_escaped (zeroCount : Nat) (rbsp : List UInt8) :
    (escaped zeroCount rbsp).length = rbsp.length + insertions zeroCount rbsp := by
  induction rbsp generalizing zeroCount with
  | nil => rfl
  | cons v rest ih =>
      rw [escaped, insertions_cons]
      split
      · simp only [List.length_cons, ih]
        omega
      · simp only [List.length_cons, ih]
        omega

/-- From a count of zero, a byte only changes the count. -/
theorem insertions_zero_cons (v : UInt8) (rest : List UInt8) :
    insertions 0 (v :: rest) = insertions (nextCount 0 v) rest := by
  rw [insertions_cons, if_neg (by simp)]

/-! ## The encoder's counter -/

open OutputBitstream

/-- The search stops at the first zero pair with a byte behind it: nothing is
inserted before that byte, or nothing at all. -/
theorem searchZeroPair_spec (found : List UInt8) :
    (∃ third rest, searchZeroPair found = 0 :: 0 :: third :: rest ∧
      (third :: rest).length + 2 ≤ found.length ∧
      insertions 0 found = insertions 2 (third :: rest)) ∨
    ((searchZeroPair found).length ≤ 1 ∧ insertions 0 found = 0) := by
  fun_induction searchZeroPair found with
  | case1 first second third rest pair =>
      obtain ⟨rfl, rfl⟩ := pair
      left
      refine ⟨third, rest, rfl, by simp, ?_⟩
      simp [insertions_cons, nextCount]
  | case2 first second third rest noPair ih =>
      -- skipping a byte that starts no pair leaves the insertions behind it alone
      have skip : insertions 0 (first :: second :: third :: rest) =
          insertions 0 (second :: third :: rest) := by
        by_cases zero : first = 0
        · have nonzero : second ≠ 0 := fun also => noPair ⟨zero, also⟩
          simp [insertions_cons, nextCount, zero, nonzero]
        · simp [insertions_cons, nextCount, zero]
      rcases ih with ⟨third', rest', found', shorter, same⟩ | ⟨ended, none⟩
      · left
        exact ⟨third', rest', found', by simp only [List.length_cons] at shorter ⊢; omega,
          skip.trans same⟩
      · right
        exact ⟨ended, skip.trans none⟩
  | case3 first second =>
      right
      refine ⟨by simp, ?_⟩
      rw [insertions_zero_cons, insertions_cons, if_neg]
      · rfl
      · rintro ⟨two, _⟩
        unfold nextCount at two
        split at two <;> omega
  | case4 short notThree notTwo =>
      right
      match short, notThree, notTwo with
      | [], _, _ => exact ⟨by simp, rfl⟩
      | [first], _, _ =>
          refine ⟨by simp, ?_⟩
          rw [insertions_zero_cons]
          rfl
      | [first, second], _, notTwo => exact absurd rfl (notTwo first second)
      | first :: second :: third :: rest, notThree, _ =>
          exact absurd rfl (notThree first second third rest)

/-- The inner loop finds the next inserted byte's successor. -/
theorem nextEmulation_spec (fuel : Nat) (found : List UInt8) (enough : found.length ≤ fuel) :
    (nextEmulation fuel found = [] ∧ insertions 0 found = 0) ∨
    (nextEmulation fuel found ≠ [] ∧ (nextEmulation fuel found).length < found.length ∧
      insertions 0 found = insertions 0 (nextEmulation fuel found) + 1) := by
  induction fuel generalizing found with
  | zero =>
      left
      have empty : found = [] := List.length_eq_zero_iff.mp (by omega)
      subst empty
      exact ⟨rfl, rfl⟩
  | succ fuel ih =>
      rcases searchZeroPair_spec found with ⟨third, rest, pair, shorter, same⟩ | ⟨ended, none⟩
      · have step : nextEmulation (fuel + 1) found =
            if third ≤ 3 then third :: rest else nextEmulation fuel (third :: rest) := by
          rw [nextEmulation, pair]
        by_cases small : third ≤ 3
        · rw [if_pos small] at step
          right
          rw [step]
          refine ⟨by simp, by omega, ?_⟩
          rw [same, insertions_cons, if_pos ⟨rfl, small⟩, insertions_zero_cons]
        · rw [if_neg small] at step
          have nonzero : third ≠ 0 := by
            rintro rfl
            exact small (by decide)
          have through : insertions 0 found = insertions 0 (third :: rest) := by
            rw [same, insertions_cons, if_neg fun hit => small hit.2, insertions_zero_cons]
            simp [nextCount, nonzero]
          rw [step, through]
          rcases ih (third :: rest) (by omega) with ⟨done, zero⟩ | ⟨more, less, counted⟩
          · exact Or.inl ⟨done, zero⟩
          · exact Or.inr ⟨more, by omega, counted⟩
      · left
        refine ⟨?_, none⟩
        rw [nextEmulation]
        match searched : searchZeroPair found, ended with
        | [], _ => rfl
        | [_], _ => rfl

theorem countEmulationsFrom_eq (fuel : Nat) (it : List UInt8) (cnt : Nat)
    (enough : it.length ≤ fuel) :
    countEmulationsFrom fuel it cnt = cnt + insertions 0 it := by
  induction fuel generalizing it cnt with
  | zero =>
      have empty : it = [] := List.length_eq_zero_iff.mp (by omega)
      subst empty
      rfl
  | succ fuel ih =>
      rw [countEmulationsFrom]
      by_cases empty : it = []
      · rw [if_pos empty, empty]
        rfl
      · rw [if_neg empty]
        rcases nextEmulation_spec it.length it le_rfl with ⟨done, zero⟩ | ⟨more, less, counted⟩
        · simp only [done]
          rw [ih [] _ (by simp), zero]
          simp [insertions, escapeLocations]
        · simp only [if_pos more]
          rw [ih _ _ (by omega), counted]
          omega

/-- `countStartCodeEmulations` counts exactly the bytes the NAL writer inserts
into a payload that starts behind a non-zero byte. -/
theorem countStartCodeEmulations_eq (s : OutputBitstream) :
    s.countStartCodeEmulations = insertions 0 s.fifo := by
  rw [countStartCodeEmulations, countEmulationsFrom_eq _ _ _ le_rfl, Nat.zero_add]

/-! ## The decoder's conversion -/

/-- The recorded positions lie inside the written bytes of their payload. -/
theorem mem_escapeLocations {pos zeroCount location : Nat} {rbsp : List UInt8}
    (member : location ∈ escapeLocations pos zeroCount rbsp) :
    pos ≤ location ∧ location < pos + (escaped zeroCount rbsp).length := by
  induction rbsp generalizing pos zeroCount with
  | nil => simp [escapeLocations] at member
  | cons v rest ih =>
      rw [escapeLocations] at member
      rw [escaped]
      split at member
      · next inserts =>
          simp only [if_pos inserts, List.length_cons]
          rcases List.mem_cons.mp member with here | later
          · omega
          · have inside := ih later
            omega
      · next keeps =>
          simp only [if_neg keeps, List.length_cons]
          have inside := ih member
          omega

/-- Positions inside the header move its end, one for each inserted byte. -/
theorem endOfSliceHeader_escapeLocations (pos zeroCount : Nat) (header : List UInt8)
    (small : pos + (escaped zeroCount header).length < 2 ^ 32) :
    endOfSliceHeader (pos + header.length) (escapeLocations pos zeroCount header) =
      pos + (escaped zeroCount header).length := by
  induction header generalizing pos zeroCount with
  | nil => rfl
  | cons v rest ih =>
      rw [escapeLocations, escaped]
      rw [escaped] at small
      split at small
      · next inserts =>
        rw [if_pos inserts, if_pos inserts]
        simp only [List.length_cons] at small
        have longer := length_escaped (nextCount 0 v) rest
        have inside : pos < pos + (v :: rest).length := by simp
        have shift : (pos + (v :: rest).length + 1) % 2 ^ 32 = pos + 2 + rest.length := by
          simp only [List.length_cons]
          omega
        have step : endOfSliceHeader (pos + (v :: rest).length)
            (pos :: escapeLocations (pos + 2) (nextCount 0 v) rest) =
            endOfSliceHeader (pos + 2 + rest.length)
              (escapeLocations (pos + 2) (nextCount 0 v) rest) := by
          rw [endOfSliceHeader, List.foldl_cons, if_pos inside, shift]
          rfl
        rw [step, ih _ _ (by omega)]
        simp only [List.length_cons]
        omega
      · next keeps =>
        rw [if_neg keeps, if_neg keeps]
        simp only [List.length_cons] at small
        have shift : pos + (v :: rest).length = pos + 1 + rest.length := by
          simp only [List.length_cons]
          omega
        rw [shift, ih _ _ (by omega)]
        simp only [List.length_cons]
        omega

/-- Positions behind the header leave its end alone. -/
theorem endOfSliceHeader_later {position : Nat} {locations : List Nat}
    (later : ∀ location ∈ locations, position ≤ location) :
    endOfSliceHeader position locations = position := by
  induction locations with
  | nil => rfl
  | cons location rest ih =>
      have behind := later location (by simp)
      have rest' := ih fun other member => later other (by simp [member])
      rw [endOfSliceHeader, List.foldl_cons, if_neg (by omega)]
      exact rest'

theorem endOfSliceHeader_append (position : Nat) (front back : List Nat) :
    endOfSliceHeader position (front ++ back) =
      endOfSliceHeader (endOfSliceHeader position front) back := by
  simp [endOfSliceHeader, List.foldl_append]

/-- Each signalled size loses exactly the bytes inserted into its substream. -/
theorem adjustEntryPoints_eq {substreams : List (List UInt8)}
    (closed : ∀ substream ∈ substreams, zeroRun 0 substream = 0) (last : List UInt8)
    (headerEnd prevEntryPointOffset : Nat) (before : List Nat)
    (earlier : ∀ location ∈ before, location < prevEntryPointOffset + headerEnd)
    (small : prevEntryPointOffset + headerEnd +
      (escaped 0 (substreams.flatten ++ last)).length < 2 ^ 32) :
    adjustEntryPoints headerEnd
        (before ++ escapeLocations (prevEntryPointOffset + headerEnd) 0
          (substreams.flatten ++ last))
        prevEntryPointOffset
        (substreams.map fun substream => substream.length + insertions 0 substream) =
      substreams.map List.length := by
  induction substreams generalizing prevEntryPointOffset before with
  | nil => rfl
  | cons substream rest ih =>
      set start := prevEntryPointOffset + headerEnd with startDef
      set size := substream.length + insertions 0 substream with sizeDef
      have sizeEq : (escaped 0 substream).length = size := length_escaped 0 substream
      have total : (escaped 0 ((substream :: rest).flatten ++ last)).length =
          size + (escaped 0 (rest.flatten ++ last)).length := by
        rw [List.flatten_cons, List.append_assoc, escaped_append, closed substream (by simp),
          List.length_append, sizeEq]
      have startWord : start % 2 ^ 32 = start := Nat.mod_eq_of_lt (by omega)
      have curWord : (prevEntryPointOffset + size) % 2 ^ 32 = prevEntryPointOffset + size :=
        Nat.mod_eq_of_lt (by omega)
      have endWord : (prevEntryPointOffset + size + headerEnd) % 2 ^ 32 =
          prevEntryPointOffset + size + headerEnd := Nat.mod_eq_of_lt (by omega)
      have split : escapeLocations start 0 ((substream :: rest).flatten ++ last) =
          escapeLocations start 0 substream ++
            escapeLocations (start + size) 0 (rest.flatten ++ last) := by
        rw [List.flatten_cons, List.append_assoc, escapeLocations_append,
          closed substream (by simp), sizeEq]
      have none : ∀ location ∈ before, ¬ (decide (location ≥ start ∧
          location < prevEntryPointOffset + size + headerEnd)) = true := by
        intro location member
        have lower := earlier location member
        simp
        omega
      have all : ∀ location ∈ escapeLocations start 0 substream, decide (location ≥ start ∧
          location < prevEntryPointOffset + size + headerEnd) = true := by
        intro location member
        have inside := mem_escapeLocations member
        simp
        omega
      have behind : ∀ location ∈ escapeLocations (start + size) 0 (rest.flatten ++ last),
          ¬ (decide (location ≥ start ∧
            location < prevEntryPointOffset + size + headerEnd)) = true := by
        intro location member
        have inside := mem_escapeLocations member
        simp
        omega
      have next : prevEntryPointOffset + size + headerEnd = start + size := by omega
      have tail := ih (fun other member => closed other (by simp [member]))
        (prevEntryPointOffset + size) (before ++ escapeLocations start 0 substream) (by
          intro location member
          rcases List.mem_append.mp member with old | new
          · have lower := earlier location old
            omega
          · have inside := mem_escapeLocations new
            omega) (by omega)
      rw [next, List.append_assoc, ← split] at tail
      rw [List.map_cons, List.map_cons, adjustEntryPoints]
      simp only [← sizeDef, ← startDef, curWord, endWord, startWord]
      congr 1
      rw [split, List.countP_append, List.countP_append, List.countP_eq_zero.mpr none,
        List.countP_eq_length.mpr all, List.countP_eq_zero.mpr behind, length_escapeLocations]
      omega

/-- The conversion for a header and substreams that all end in a non-zero byte. -/
theorem substreamSizes_eq {header : List UInt8} {substreams : List (List UInt8)}
    (headerClosed : zeroRun 0 header = 0)
    (closed : ∀ substream ∈ substreams, zeroRun 0 substream = 0) (last : List UInt8)
    {bs : InputBitstream} (position : bs.fifoIdx = 2 + header.length)
    (recorded : bs.emulationPreventionByteLocation =
      escapeLocations 2 0 (header ++ (substreams.flatten ++ last)))
    (small : 2 + (escaped 0 (header ++ (substreams.flatten ++ last))).length < 2 ^ 32) :
    substreamSizes bs
        (substreams.map fun substream => substream.length + insertions 0 substream) =
      substreams.map List.length := by
  have split : escapeLocations 2 0 (header ++ (substreams.flatten ++ last)) =
      escapeLocations 2 0 header ++ escapeLocations (0 + (2 + (escaped 0 header).length)) 0
        (substreams.flatten ++ last) := by
    rw [escapeLocations_append, headerClosed, Nat.zero_add]
  rw [escaped_append, headerClosed, List.length_append] at small
  have headerEnd : endOfSliceHeader bs.fifoIdx bs.emulationPreventionByteLocation =
      2 + (escaped 0 header).length := by
    rw [recorded, split, position, endOfSliceHeader_append, endOfSliceHeader_escapeLocations _ _ _ (by omega)]
    apply endOfSliceHeader_later
    intro location member
    have inside := mem_escapeLocations member
    omega
  rw [substreamSizes, headerEnd, recorded, split]
  refine adjustEntryPoints_eq closed last _ 0 _ (fun location member => ?_) (by omega)
  have inside := mem_escapeLocations member
  omega

/-- A byte-aligned stream is cut at a byte count. -/
theorem extractSubstream_bytes {bs : InputBitstream} (aligned : bs.numHeldBits = 0)
    {front back : List UInt8} (view : bs.fifo.drop bs.fifoIdx = front ++ back) :
    bs.extractSubstream (8 * front.length) =
      .ok (ofFifo front, { bs with fifoIdx := bs.fifoIdx + front.length }) := by
  have lengths := congrArg List.length view
  rw [List.length_drop, List.length_append] at lengths
  have count : 8 * front.length / 8 = front.length := by omega
  have whole : 8 * front.length % 8 = 0 := by omega
  have available : min front.length (bs.fifo.length - bs.fifoIdx) = front.length := by omega
  unfold InputBitstream.extractSubstream
  simp [aligned, count, whole, available, view, bind, Except.bind, pure, Except.pure]

/-- The extraction hands out the substreams by their sizes, and the rest last. -/
theorem extractSubstreams_eq (substreams : List (List UInt8)) (last : List UInt8)
    {bs : InputBitstream} (aligned : bs.numHeldBits = 0)
    (view : bs.fifo.drop bs.fifoIdx = substreams.flatten ++ last)
    (small : bs.fifo.length < 2 ^ 29) :
    extractSubstreams (substreams.map List.length) bs =
      .ok ((substreams ++ [last]).map ofFifo) := by
  induction substreams generalizing bs with
  | nil =>
      have left : bs.getNumBitsLeft = 8 * last.length := by
        have lengths := congrArg List.length view
        rw [List.length_drop] at lengths
        simp only [List.flatten_nil, List.nil_append] at lengths
        rw [InputBitstream.getNumBitsLeft, InputBitstream.unreadBits, aligned]
        omega
      have tailView : bs.fifo.drop bs.fifoIdx = last ++ [] := by simpa using view
      have cut := extractSubstream_bytes aligned tailView
      rw [List.map_nil, extractSubstreams, left, cut]
      rfl
  | cons substream rest ih =>
      rw [List.flatten_cons, List.append_assoc] at view
      have cut := extractSubstream_bytes aligned view
      have shift : (substream.length <<< 3) % 2 ^ 32 = 8 * substream.length := by
        have lengths := congrArg List.length view
        rw [List.length_drop, List.length_append] at lengths
        rw [Nat.shiftLeft_eq]
        omega
      have tailView : bs.fifo.drop (bs.fifoIdx + substream.length) = rest.flatten ++ last := by
        rw [← List.drop_drop, view, List.drop_left]
      have tail : extractSubstreams (rest.map List.length)
          { bs with fifoIdx := bs.fifoIdx + substream.length } =
          .ok ((rest ++ [last]).map ofFifo) := ih aligned tailView small
      rw [List.map_cons, extractSubstreams, shift, cut]
      simp only [bind, Except.bind, tail]
      rfl

/-! ## The entry point syntax -/

section

variable {fifo : List UInt8} {locations : List Nat}

/-- The length loop ends with enough bits for an offset of less than 32 bits. -/
theorem offsetLength_run {maxOffset : Nat} (small : maxOffset < 2 ^ 31) (fuel offsetLenMinus1 : Nat)
    (narrow : offsetLenMinus1 < 31) (enough : 31 ≤ offsetLenMinus1 + fuel) (s : OutputBitstream) :
    ∃ width, offsetLength fuel maxOffset offsetLenMinus1 s = .ok (width, s) ∧ width + 1 < 32 ∧
      maxOffset < 2 ^ (width + 1) := by
  induction fuel generalizing offsetLenMinus1 with
  | zero => omega
  | succ fuel ih =>
      rw [offsetLength, Nat.one_shiftLeft]
      by_cases more : maxOffset ≥ 2 ^ (offsetLenMinus1 + 1)
      · have below : offsetLenMinus1 + 1 < 31 :=
          (Nat.pow_lt_pow_iff_right (by decide)).mp (lt_of_le_of_lt more small)
        rw [if_pos more, bind_run (check_run (by omega))]
        exact ih (offsetLenMinus1 + 1) below (by omega)
      · rw [if_neg more]
        exact ⟨offsetLenMinus1, rfl, by omega, by omega⟩

/-- The largest offset is one of the offsets and none exceeds it. -/
theorem maxOffset_spec (sizes : List Nat) (maxOffset : Nat) :
    (∀ size ∈ maxOffset :: sizes, size ≤ sizes.foldl (fun maxOffset offset =>
      if offset > maxOffset then offset else maxOffset) maxOffset) ∧
    sizes.foldl (fun maxOffset offset => if offset > maxOffset then offset else maxOffset)
      maxOffset ∈ maxOffset :: sizes := by
  induction sizes generalizing maxOffset with
  | nil => simp
  | cons offset rest ih =>
      rw [List.foldl_cons]
      obtain ⟨next, nextDef⟩ : ∃ next, next = if offset > maxOffset then offset else maxOffset :=
        ⟨_, rfl⟩
      have larger : offset ≤ next ∧ maxOffset ≤ next ∧ (next = offset ∨ next = maxOffset) := by
        split at nextDef <;> omega
      rw [← nextDef]
      obtain ⟨bound, member⟩ := ih next
      have first := bound next (List.mem_cons_self ..)
      constructor
      · intro size found
        rcases List.mem_cons.mp found with rfl | found
        · omega
        · rcases List.mem_cons.mp found with rfl | found
          · omega
          · exact bound size (List.mem_cons_of_mem _ found)
      · rcases List.mem_cons.mp member with same | later
        · rw [same]
          rcases larger.2.2 with rfl | rfl <;> simp
        · exact List.mem_cons_of_mem _ (List.mem_cons_of_mem _ later)

/-- Sizes are read back as they were signalled. -/
theorem codes_entryPoints (singleTileInPicFlag entropyCodingSyncEnabledFlag : Bool)
    {sizes : List Nat} (few : sizes.length < 2 ^ 32 - 1)
    (words : ∀ size ∈ sizes, 0 < size ∧ size < 2 ^ 31) :
    Codes False VLC.outputView (VLC.inputView fifo locations)
      (codeTilesWPPEntryPoint singleTileInPicFlag entropyCodingSyncEnabledFlag sizes)
      (parseEntryPointOffsets singleTileInPicFlag entropyCodingSyncEnabledFlag)
      (fun _ offsets => offsets =
        if !singleTileInPicFlag || entropyCodingSyncEnabledFlag then sizes else []) := by
  unfold codeTilesWPPEntryPoint parseEntryPointOffsets
  cases enabled : !singleTileInPicFlag || entropyCodingSyncEnabledFlag with
  | false =>
      have disabled : (singleTileInPicFlag && !entropyCodingSyncEnabledFlag) = true := by
        revert enabled
        cases singleTileInPicFlag <;> cases entropyCodingSyncEnabledFlag <;> simp
      rw [if_pos disabled]
      exact Codes.pure rfl
  | true =>
      have signalled : ¬ (singleTileInPicFlag && !entropyCodingSyncEnabledFlag) = true := by
        revert enabled
        cases singleTileInPicFlag <;> cases entropyCodingSyncEnabledFlag <;> simp
      rw [if_neg signalled]
      simp only [if_true]
      obtain ⟨bound, largest⟩ := maxOffset_spec sizes 0
      set maxOffset := sizes.foldl (fun maxOffset offset =>
        if offset > maxOffset then offset else maxOffset) 0
      have small : maxOffset < 2 ^ 31 := by
        rcases List.mem_cons.mp largest with none | member
        · omega
        · exact (words _ member).2
      refine Codes.writerStep (fun width => width + 1 < 32 ∧ maxOffset < 2 ^ (width + 1)) ?_ ?_
      · intro s
        exact Or.inr (offsetLength_run small 32 0 (by decide) (by decide) s)
      · rintro width ⟨narrow, wide⟩
        refine (VLC.codes_uvlc few).bind ?_
        rintro _ _ rfl
        by_cases none : sizes.length > 0
        · rw [if_pos none, if_pos none]
          refine (VLC.codes_uvlc (by omega)).bind ?_
          rintro _ _ rfl
          -- what has been read, followed by what is left to write, is the whole list
          refine (Codes.foldlM (fun left _ _ offsets =>
            offsets ++ left = sizes ∧ ∀ size ∈ left, 0 < size ∧ size ≤ maxOffset) ?_ sizes
            (List.range sizes.length) (by simp)
            ⟨rfl, fun size member => ⟨(words size member).1, bound size (by simp [member])⟩⟩).weaken ?_
          · rintro size rest _ _ _ offsets ⟨joined, bounds⟩
            have bound := bounds size (by simp)
            have code : (size + (2 ^ 32 - 1)) % 2 ^ 32 = size - 1 := by omega
            refine Codes.readerMap (fun uiCode => offsets ++ [(uiCode + 1) % 2 ^ 32])
              (VLC.codes_code (by omega) (by omega) (Or.inl (by omega))) ?_
            intro _ uiCode same
            refine ⟨?_, fun other member => bounds other (by simp [member])⟩
            rw [same, code, Nat.sub_add_cancel bound.1, Nat.mod_eq_of_lt (by omega),
              List.append_assoc]
            exact joined
          · rintro _ offsets ⟨joined, _⟩
            simpa using joined
        · rw [if_neg none, if_neg none]
          have empty : sizes = [] := List.length_eq_zero_iff.mp (by omega)
          exact Codes.pure empty.symm

end

/-! ## Header, substreams and NAL unit together -/

/-- A byte string that ends in a non-zero byte. -/
def EndsNonZero (bytes : List UInt8) : Prop := ∃ front last, bytes = front ++ [last] ∧ last ≠ 0

theorem EndsNonZero.zeroRun_eq {bytes : List UInt8} (ends : EndsNonZero bytes) :
    zeroRun 0 bytes = 0 := by
  obtain ⟨front, last, rfl, nonzero⟩ := ends
  exact zeroRun_concat_of_ne_zero 0 front nonzero

theorem EndsNonZero.append {front bytes : List UInt8} (ends : EndsNonZero bytes) :
    EndsNonZero (front ++ bytes) := by
  obtain ⟨init, last, rfl, nonzero⟩ := ends
  exact ⟨front ++ init, last, by simp, nonzero⟩

theorem EndsNonZero.rbsp {bytes : List UInt8} (ends : EndsNonZero bytes) : Rbsp bytes bytes := by
  obtain ⟨front, last, rfl, nonzero⟩ := ends
  simpa using Rbsp.words front last nonzero 0

/-- A substream as the slice encoder closes it: byte aligned behind a one. -/
structure Closed (substream : OutputBitstream) : Prop where
  aligned : substream.numHeldBits = 0
  ends : EndsNonZero substream.fifo

theorem Closed.size_eq {substream : OutputBitstream} (closed : Closed substream)
    (small : substream.fifo.length + insertions 0 substream.fifo < 2 ^ 29) :
    substreamSize substream = substream.fifo.length + insertions 0 substream.fifo := by
  unfold substreamSize
  rw [countStartCodeEmulations_eq, getNumberOfWrittenBits, writtenBits, closed.aligned,
    Nat.shiftRight_eq_div_pow]
  omega

/-- `writeByteAlignment` closes a stream. -/
theorem closed_of_writeByteAlignment {s s' : OutputBitstream} (wf : s.WellFormed)
    (run : s.writeByteAlignment = .ok s') : Closed s' := by
  obtain ⟨t, run', aligned, bits⟩ := writeByteAlignment_spec wf
  rw [run] at run'
  cases run'
  rw [bits_of_aligned aligned] at bits
  set zeros := 7 - s.bits.length % 8 with zerosDef
  refine ⟨aligned, ?_⟩
  rcases List.eq_nil_or_concat s'.fifo with empty | ⟨front, final, shape⟩
  · rw [empty] at bits
    exact absurd (congrArg List.length bits) (by simp)
  · rw [List.concat_eq_append] at shape
    refine ⟨front, final, shape, ?_⟩
    rintro rfl
    -- the last eight bits would be zeros, but one of them is the one written
    have eight : toBits 8 (0 : UInt8).toNat =
        List.replicate (7 - zeros) false ++ false :: List.replicate zeros false := by
      rw [← List.replicate_succ, List.replicate_append_replicate,
        show 7 - zeros + (zeros + 1) = 8 by omega]
      rfl
    rw [shape, bytesToBits_append, bytesToBits_cons, bytesToBits_nil, List.append_nil, eight,
      ← List.append_assoc] at bits
    obtain ⟨_, tails⟩ := List.append_inj' bits (by simp)
    cases tails

/-- `readByteAlignment` in front of the one and the zeros that fill its byte. -/
theorem readByteAlignment_run {s : InputBitstream} (wf : s.WellFormed) {zeros : Nat}
    (few : zeros < 8) {payload : List UInt8}
    (view : s.remaining = true :: List.replicate zeros false ++ bytesToBits payload) :
    ∃ s', VLCReader.readByteAlignment s = .ok (zeros + 1, s') ∧ s'.WellFormed ∧
      s'.remaining = bytesToBits payload ∧ InputBitstream.SameBytes s s' := by
  obtain ⟨t, one, wf', left, same⟩ := InputBitstream.read_spec wf (by decide : 1 ≤ 32)
    (by decide : 1 < 2 ^ 1) (view.trans rfl)
  have read : VLCReader.read 1 s = .ok (1, t) := one
  have heldLt := wf'.heldLt
  have held : t.numHeldBits = zeros := by
    have lengths := congrArg List.length left
    rw [length_remaining, InputBitstream.unreadBits] at lengths
    simp only [List.append_eq, List.length_append, List.length_replicate,
      length_bytesToBits] at lengths
    omega
  have missing : (fun s => .ok (s.getNumBitsUntilByteAligned, s) : BitReader Nat) t =
      .ok (zeros, t) := by
    show (Except.ok (t.numHeldBits % 8, t) : Checked (Nat × InputBitstream)) = _
    rw [held, Nat.mod_eq_of_lt few]
  rw [VLCReader.readByteAlignment, bind_run read, bind_run (check_run (by decide)),
    bind_run missing]
  by_cases none : zeros = 0
  · subst none
    exact ⟨t, rfl, wf', left, same⟩
  · rw [if_pos none]
    have within : ¬ zeros > t.getNumBitsLeft := by
      have atLeast := wf'.numHeldBits_le
      omega
    have bits : VLCReader.bitsLeft t = .ok (t.getNumBitsLeft, t) := rfl
    obtain ⟨u, rest, wf₂, left₂, same₂⟩ := InputBitstream.read_spec wf' (by omega : zeros ≤ 32)
      (Nat.two_pow_pos zeros) (left.trans (by rw [toBits_value_zero]; rfl))
    have padding : VLCReader.read zeros t = .ok (0, u) := rest
    rw [bind_run bits, bind_run (check_run within), bind_run padding,
      bind_run (check_run (by decide))]
    exact ⟨u, rfl, wf₂, left₂, same.trans same₂⟩

/-- The NAL unit of a slice: its header bytes, then all its substreams. -/
def sliceNALUnit (nalu : NALUnit) (header : List UInt8) (substreams : List OutputBitstream)
    (last : OutputBitstream) : OutputNALUnit :=
  ⟨nalu, ⟨header ++ ((substreams.map OutputBitstream.fifo).flatten ++ last.fifo), 0, 0⟩⟩

/-- What the decoder gets behind the slice header: the byte counts of all substreams but
the last, and the encoder's substreams. -/
def HandsOver (substreams : List OutputBitstream) (last : OutputBitstream) (sizes : List Nat)
    (bs : InputBitstream) : Prop :=
  sizes = substreams.map (fun substream => substream.fifo.length) ∧
    extractSubstreams sizes bs =
      .ok ((substreams ++ [last]).map fun substream => ofFifo substream.fifo)

section

variable {nalu : NALUnit} {substreams : List OutputBitstream} {last : OutputBitstream}

/-- The NAL unit is written, and read up to its slice header. -/
theorem read_sliceNALUnit (inRange : nalu.InRange) (accepted : ¬ Refused nalu)
    (lastClosed : Closed last) (header : List UInt8) (substreams : List OutputBitstream) :
    ∃ bytes, write [] (sliceNALUnit nalu header substreams last) = .ok bytes ∧
      bytes.length = 2 + (escaped 0
        (header ++ ((substreams.map OutputBitstream.fifo).flatten ++ last.fifo))).length ∧
      ∀ input : InputNALUnit, input.bitstream.fifo = bytes →
        ∃ output, NALread.read input = .ok output ∧ output.bitstream.WellFormed ∧
          output.bitstream.remaining = bytesToBits
            (header ++ ((substreams.map OutputBitstream.fifo).flatten ++ last.fifo)) ∧
          output.bitstream.fifo = headerBytes nalu ++
            (header ++ ((substreams.map OutputBitstream.fifo).flatten ++ last.fifo)) ∧
          output.bitstream.emulationPreventionByteLocation = escapeLocations 2 0
            (header ++ ((substreams.map OutputBitstream.fifo).flatten ++ last.fifo)) := by
  set payload := header ++ ((substreams.map OutputBitstream.fifo).flatten ++ last.fifo)
    with payloadDef
  have ends : EndsNonZero payload := lastClosed.ends.append.append
  refine ⟨_, write_eq [] inRange, ?_, fun input bytes => ?_⟩
  · have zero : ¬ zeroRun 0 payload > 0 := by
      rw [ends.zeroRun_eq]
      decide
    show ([] ++ (headerBytes nalu ++ escapePayload payload)).length = _
    rw [List.nil_append, List.length_append, escapePayload_eq, if_neg zero, List.append_nil]
    rfl
  · obtain ⟨bs, wf, view, fifo, positions, run⟩ := read_nal inRange ends.rbsp input bytes
    rw [if_neg accepted] at run
    exact ⟨_, run, wf, view, fifo, positions ends.zeroRun_eq⟩

/-- The emulations of all substreams are within the NAL unit. -/
theorem sum_sizes_le (closed : ∀ substream ∈ substreams, Closed substream)
    (last : OutputBitstream) :
    ((substreams.map OutputBitstream.fifo).map fun piece => piece.length + insertions 0 piece).sum ≤
      (escaped 0 ((substreams.map OutputBitstream.fifo).flatten ++ last.fifo)).length := by
  induction substreams with
  | nil => exact Nat.zero_le _
  | cons substream rest ih =>
      have tail := ih fun other member => closed other (by simp [member])
      rw [List.map_cons, List.map_cons, List.sum_cons, List.flatten_cons, List.append_assoc,
        escaped_append, (closed substream (by simp)).ends.zeroRun_eq, List.length_append,
        length_escaped 0 substream.fifo]
      omega

/-- A reader behind the slice header hands out the substreams by the signalled sizes. -/
theorem handsOver_of_behind (closed : ∀ substream ∈ substreams, Closed substream) {header : List UInt8} (headerEnds : EndsNonZero header)
    (small : 2 + (escaped 0
      (header ++ ((substreams.map OutputBitstream.fifo).flatten ++ last.fifo))).length < 2 ^ 29)
    {bs : InputBitstream} (wf : bs.WellFormed)
    (fifo : bs.fifo = headerBytes nalu ++
      (header ++ ((substreams.map OutputBitstream.fifo).flatten ++ last.fifo)))
    (recorded : bs.emulationPreventionByteLocation = escapeLocations 2 0
      (header ++ ((substreams.map OutputBitstream.fifo).flatten ++ last.fifo)))
    (view : bs.remaining = bytesToBits ((substreams.map OutputBitstream.fifo).flatten ++ last.fifo)) :
    HandsOver substreams last (substreamSizes bs (substreams.map substreamSize)) bs := by
  set pieces := substreams.map OutputBitstream.fifo with piecesDef
  have piecesClosed : ∀ piece ∈ pieces, zeroRun 0 piece = 0 := by
    intro piece member
    obtain ⟨substream, inList, rfl⟩ := List.mem_map.mp member
    exact (closed substream inList).ends.zeroRun_eq
  have length : bs.fifo.length ≤ 2 + (escaped 0 (header ++ (pieces.flatten ++ last.fifo))).length := by
    rw [fifo, length_escaped, List.length_append]
    show 2 + _ ≤ _
    omega
  have total := sum_sizes_le closed last
  rw [← piecesDef] at total
  have parts : (escaped 0 (header ++ (pieces.flatten ++ last.fifo))).length =
      (escaped 0 header).length + (escaped 0 (pieces.flatten ++ last.fifo)).length := by
    rw [escaped_append, headerEnds.zeroRun_eq, List.length_append]
  have sizes : substreams.map substreamSize =
      pieces.map fun piece => piece.length + insertions 0 piece := by
    rw [piecesDef, List.map_map]
    refine List.map_congr_left fun substream member => (closed substream member).size_eq ?_
    have one := List.single_le_sum (fun _ _ => Nat.zero_le _) _
      (List.mem_map_of_mem (f := fun piece : List UInt8 => piece.length + insertions 0 piece)
        (List.mem_map_of_mem (f := OutputBitstream.fifo) member))
    rw [← piecesDef] at one
    omega
  obtain ⟨aligned, left⟩ := payload_of_remaining wf view
  have position : bs.fifoIdx = 2 + header.length := by
    have idxLe := wf.idxLe
    have lengths := congrArg List.length left
    have all := congrArg List.length fifo
    simp only [List.length_drop, List.length_append, headerBytes, List.length_cons,
      List.length_nil] at lengths all
    omega
  have recomputed : substreamSizes bs (substreams.map substreamSize) = pieces.map List.length := by
    rw [sizes]
    exact substreamSizes_eq headerEnds.zeroRun_eq piecesClosed last.fifo position recorded (by omega)
  constructor
  · rw [recomputed, piecesDef, List.map_map]
    rfl
  · rw [recomputed, extractSubstreams_eq pieces last.fifo aligned left (by omega), piecesDef]
    simp

/-- The sizes of substreams that fit a NAL unit, as the entry point syntax carries them. -/
theorem signalledSizes (closed : ∀ substream ∈ substreams, Closed substream)
    (few : (substreams.map fun substream =>
      substream.fifo.length + substream.countStartCodeEmulations).sum < 2 ^ 29) :
    (substreams.map substreamSize).length < 2 ^ 32 - 1 ∧
      ∀ size ∈ substreams.map substreamSize, 0 < size ∧ size < 2 ^ 31 := by
  have sizes : (substreams.map fun substream =>
      substream.fifo.length + substream.countStartCodeEmulations) =
      substreams.map substreamSize := by
    refine List.map_congr_left fun substream member => ?_
    have one := List.single_le_sum (fun _ _ => Nat.zero_le _) _ (List.mem_map_of_mem
      (f := fun substream : OutputBitstream =>
        substream.fifo.length + substream.countStartCodeEmulations) member)
    rw [countStartCodeEmulations_eq] at one ⊢
    exact ((closed substream member).size_eq (by omega)).symm
  have positive : ∀ size ∈ substreams.map substreamSize, 1 ≤ size := by
    intro size member
    rw [← sizes] at member
    obtain ⟨substream, inList, rfl⟩ := List.mem_map.mp member
    obtain ⟨front, final, shape, _⟩ := (closed substream inList).ends
    rw [shape, List.length_append, List.length_singleton]
    omega
  rw [sizes] at few
  have count := List.length_le_sum_of_one_le _ positive
  refine ⟨by omega, fun size member => ⟨positive size member, ?_⟩⟩
  have one := List.single_le_sum (fun _ _ => Nat.zero_le _) _ member
  omega

/-- Behind the slice header the decoder recomputes the byte counts of all substreams but
the last and extracts exactly the encoder's substreams, however it read the header. Where
the encoder wrote the sizes into the header, they are what `parseSliceHeader` recomputes
them from. A NAL unit of fewer than `2 ^ 29` bytes keeps every count in its word. -/
theorem substreams_survive (inRange : nalu.InRange) (accepted : ¬ Refused nalu)
    (closed : ∀ substream ∈ substreams, Closed substream) (lastClosed : Closed last) :
    (∀ header, EndsNonZero header →
      ∃ bytes, write [] (sliceNALUnit nalu header substreams last) = .ok bytes ∧
        (bytes.length < 2 ^ 29 → ∀ input : InputNALUnit, input.bitstream.fifo = bytes →
          ∃ output, NALread.read input = .ok output ∧
            ∀ widths : List Nat, (∀ width ∈ widths, width ≤ 32) →
              widths.sum = 8 * header.length →
              ∃ values bs, readAll widths output.bitstream = .ok (values, bs) ∧
                HandsOver substreams last (substreamSizes bs (substreams.map substreamSize)) bs)) ∧
    ∀ before : OutputBitstream, before.WellFormed →
      ∀ singleTileInPicFlag entropyCodingSyncEnabledFlag,
        (!singleTileInPicFlag || entropyCodingSyncEnabledFlag) = true →
        (substreams.map fun substream =>
          substream.fifo.length + substream.countStartCodeEmulations).sum < 2 ^ 29 →
        ∃ coded header, codeTilesWPPEntryPoint singleTileInPicFlag entropyCodingSyncEnabledFlag
            (substreams.map substreamSize) before = .ok ((), coded) ∧
          coded.writeByteAlignment = .ok header ∧ Closed header ∧
          ∃ bytes, write [] (sliceNALUnit nalu header.fifo substreams last) = .ok bytes ∧
            (bytes.length < 2 ^ 29 → ∀ input : InputNALUnit, input.bitstream.fifo = bytes →
              ∃ output, NALread.read input = .ok output ∧
                ∀ widths : List Nat, (∀ width ∈ widths, width ≤ 32) →
                  widths.sum = before.bits.length →
                  ∃ values front sizes bs, readAll widths output.bitstream = .ok (values, front) ∧
                    parseSubstreamSizes singleTileInPicFlag entropyCodingSyncEnabledFlag front =
                      .ok (sizes, bs) ∧
                    HandsOver substreams last sizes bs) := by
  constructor
  · intro header headerEnds
    obtain ⟨bytes, written, length, reads⟩ :=
      read_sliceNALUnit inRange accepted lastClosed header substreams
    refine ⟨bytes, written, fun small input same => ?_⟩
    obtain ⟨output, run, wf, view, fifo, recorded⟩ := reads input same
    refine ⟨output, run, fun widths words total => ?_⟩
    have size : widths.sum = (bytesToBits header).length := by
      rw [total, length_bytesToBits]
    rw [bytesToBits_append] at view
    obtain ⟨bs, behind, wf', left, kept⟩ := readAll_spec wf words (by
      rw [← length_remaining, view, List.length_append]
      omega)
    rw [view, size, List.drop_left] at left
    exact ⟨_, bs, behind, handsOver_of_behind closed headerEnds (by omega) wf'
      (kept.fifo.trans fifo) (kept.locations.trans recorded) left⟩
  · intro before wf singleTileInPicFlag entropyCodingSyncEnabledFlag enabled few
    obtain ⟨count, words⟩ := signalledSizes closed few
    have codes := fun fifo locations => @codes_entryPoints fifo locations singleTileInPicFlag
      entropyCodingSyncEnabledFlag _ count words
    obtain ⟨_, coded, tokens, _, run, codedWf, codedBits, _⟩ :=
      (codes [] [] before wf).resolve_left fun fails => fails.1
    obtain ⟨header, aligns, aligned, bits⟩ := writeByteAlignment_spec codedWf
    have headerClosed := closed_of_writeByteAlignment codedWf aligns
    obtain ⟨bytes, written, length, reads⟩ :=
      read_sliceNALUnit inRange accepted lastClosed header.fifo substreams
    refine ⟨coded, header, run, aligns, headerClosed, bytes, written, fun small input same => ?_⟩
    obtain ⟨output, ran, outputWf, view, fifo, recorded⟩ := reads input same
    refine ⟨output, ran, fun widths wide total => ?_⟩
    set zeros := 7 - coded.bits.length % 8 with zerosDef
    have appended : coded.bits = before.bits ++ tokens := codedBits
    rw [bytesToBits_append, ← bits_of_aligned aligned, bits, appended] at view
    simp only [List.append_assoc] at view
    obtain ⟨front, behind, frontWf, left, kept⟩ := readAll_spec outputWf wide (by
      rw [← length_remaining, view, List.length_append]
      omega)
    rw [view, total, List.drop_left] at left
    -- the same run of the writer, seen from this reader
    obtain ⟨tokens', offsets, _, codedBits', offsetsEq, accepts⟩ :=
      (codes front.fifo front.emulationPreventionByteLocation).of_run wf run
    obtain rfl : tokens' = tokens := List.append_cancel_left (codedBits'.symm.trans codedBits)
    rw [if_pos enabled] at offsetsEq
    obtain ⟨t, parses, ⟨tWf, tFifo, tLocations⟩, tLeft⟩ := accepts front _ ⟨frontWf, rfl, rfl⟩ left
    obtain ⟨bs, alignment, bsWf, bsLeft, kept'⟩ :=
      readByteAlignment_run tWf (by omega : zeros < 8) tLeft
    refine ⟨_, front, _, bs, behind, ?_, handsOver_of_behind closed headerClosed.ends (by omega) bsWf
      (kept'.fifo.trans (tFifo.trans (kept.fifo.trans fifo)))
      (kept'.locations.trans (tLocations.trans (kept.locations.trans recorded))) bsLeft⟩
    rw [parseSubstreamSizes, bind_run parses, bind_run alignment, if_pos enabled, offsetsEq]

end

/-- A header that needs an insertion, two substreams with insertions at their starts and
a last one: both through a given header and through one with the sizes written into it. -/
theorem substreams_survive_escaped :
    (∃ bytes output values bs, write [] (sliceNALUnit ⟨.codedSliceTrail, 0, 0, 0, 0⟩ [0, 0, 2]
        [⟨[0, 0, 1, 0x80], 0, 0⟩, ⟨[0, 0, 0, 0, 2], 0, 0⟩] ⟨[0x33, 0x80], 0, 0⟩) = .ok bytes ∧
      NALread.read ⟨⟨.codedSliceTrail, 0, 0, 0, 0⟩, ofFifo bytes⟩ = .ok output ∧
      readAll [1, 7, 16] output.bitstream = .ok (values, bs) ∧
      substreamSizes bs [5, 7] = [4, 5]) ∧
    ∃ coded header bytes output values front bs,
      codeTilesWPPEntryPoint false false [5, 7] ⟨[0x12, 0, 0], 6, 0⟩ = .ok ((), coded) ∧
      coded.writeByteAlignment = .ok header ∧
      write [] (sliceNALUnit ⟨.codedSliceTrail, 0, 0, 0, 0⟩ header.fifo
        [⟨[0, 0, 1, 0x80], 0, 0⟩, ⟨[0, 0, 0, 0, 2], 0, 0⟩] ⟨[0x33, 0x80], 0, 0⟩) = .ok bytes ∧
      NALread.read ⟨⟨.codedSliceTrail, 0, 0, 0, 0⟩, ofFifo bytes⟩ = .ok output ∧
      readAll [30] output.bitstream = .ok (values, front) ∧
      parseSubstreamSizes false false front = .ok ([4, 5], bs) ∧
      extractSubstreams [4, 5] bs = .ok [ofFifo [0, 0, 1, 0x80],
        ofFifo [0, 0, 0, 0, 2], ofFifo [0x33, 0x80]] := by
  have closed : ∀ substream ∈
      [(⟨[0, 0, 1, 0x80], 0, 0⟩ : OutputBitstream), ⟨[0, 0, 0, 0, 2], 0, 0⟩], Closed substream := by
    intro substream member
    simp only [List.mem_cons, List.not_mem_nil, or_false] at member
    rcases member with rfl | rfl
    · exact ⟨rfl, [0, 0, 1], 0x80, rfl, by decide⟩
    · exact ⟨rfl, [0, 0, 0, 0], 2, rfl, by decide⟩
  have lastClosed : Closed ⟨[0x33, 0x80], 0, 0⟩ := ⟨rfl, [0x33], 0x80, rfl, by decide⟩
  have inRange : NALUnit.InRange ⟨.codedSliceTrail, 0, 0, 0, 0⟩ :=
    ⟨by decide, by decide, by decide⟩
  obtain ⟨anyHeader, written⟩ := substreams_survive inRange (by decide) closed lastClosed
  constructor
  · obtain ⟨bytes, wrote, reads⟩ := anyHeader [0, 0, 2] ⟨[0, 0], 2, rfl, by decide⟩
    have small : bytes.length < 2 ^ 29 := by
      cases wrote
      decide
    obtain ⟨output, read, behind⟩ := reads small
      ⟨⟨.codedSliceTrail, 0, 0, 0, 0⟩, ofFifo bytes⟩ rfl
    obtain ⟨values, bs, run, sizes, _⟩ := behind [1, 7, 16] (by decide) rfl
    exact ⟨bytes, output, values, bs, wrote, read, run, sizes⟩
  · have wf : OutputBitstream.WellFormed ⟨[0x12, 0, 0], 6, 0⟩ := ⟨by decide, by decide, by decide⟩
    obtain ⟨_, _, codes, aligns, _, bytes, wrote, reads⟩ :=
      written ⟨[0x12, 0, 0], 6, 0⟩ wf false false rfl (by decide)
    have codes' : codeTilesWPPEntryPoint false false [5, 7] ⟨[0x12, 0, 0], 6, 0⟩ =
        .ok ((), ⟨[0x12, 0, 0, 1, 0xb9], 2, 0x80⟩) := rfl
    have sizes : [(⟨[0, 0, 1, 0x80], 0, 0⟩ : OutputBitstream), ⟨[0, 0, 0, 0, 2], 0, 0⟩].map
        substreamSize = [5, 7] := rfl
    rw [sizes, codes'] at codes
    cases codes
    cases aligns
    have small : bytes.length < 2 ^ 29 := by
      cases wrote
      decide
    obtain ⟨output, read, behind⟩ := reads small
      ⟨⟨.codedSliceTrail, 0, 0, 0, 0⟩, ofFifo bytes⟩ rfl
    obtain ⟨values, front, sizes, bs, run, parsed, same, extracted⟩ := behind [30] (by decide) rfl
    rw [same] at parsed extracted
    exact ⟨_, _, bytes, output, values, front, bs, codes', rfl, wrote, read, run, parsed,
      extracted⟩

/-- A last substream of `2 ^ 29` bytes: `getNumBitsLeft` is zero behind the slice header,
and the decoder extracts an empty stream. -/
theorem last_substream_is_lost :
    ∃ last : OutputBitstream, Closed last ∧ last.fifo.length = 2 ^ 29 ∧
      ∃ bytes, write [] (sliceNALUnit ⟨.codedSliceTrail, 0, 0, 0, 0⟩ [0x80] [] last) = .ok bytes ∧
        ∀ input : InputNALUnit, input.bitstream.fifo = bytes →
          ∃ output, NALread.read input = .ok output ∧
            ∃ values bs, readAll [8] output.bitstream = .ok (values, bs) ∧
              extractSubstreams (substreamSizes bs []) bs = .ok [ofFifo []] := by
  obtain ⟨count, large⟩ : ∃ count : Nat, count + 1 = 2 ^ 29 := ⟨2 ^ 29 - 1, by decide⟩
  set last : OutputBitstream := ⟨List.replicate count 1 ++ [0x80], 0, 0⟩ with lastDef
  have size : last.fifo.length = 2 ^ 29 := by
    rw [lastDef, ← large]
    simp
  have lastClosed : Closed last := ⟨rfl, _, 0x80, rfl, by decide⟩
  have inRange : NALUnit.InRange ⟨.codedSliceTrail, 0, 0, 0, 0⟩ :=
    ⟨by decide, by decide, by decide⟩
  obtain ⟨bytes, wrote, _, reads⟩ := read_sliceNALUnit inRange (by decide) lastClosed [0x80] []
  refine ⟨last, lastClosed, size, bytes, wrote, fun input same => ?_⟩
  obtain ⟨output, read, wf, view, _⟩ := reads input same
  rw [bytesToBits_append] at view
  have unread : output.bitstream.unreadBits = 8 + 8 * last.fifo.length := by
    rw [← length_remaining, view, List.length_append, length_bytesToBits,
      length_bytesToBits]
    rfl
  obtain ⟨bs, behind, bsWf, left, _⟩ := readAll_spec wf (by decide : ∀ width ∈ [8], width ≤ 32) (by
    show 8 + 0 ≤ _
    omega)
  have payload : bs.remaining = bytesToBits last.fifo := by
    rw [left, view]
    rfl
  obtain ⟨aligned, rest⟩ := payload_of_remaining bsWf payload
  have wrapped : bs.getNumBitsLeft = 8 * ([] : List UInt8).length := by
    rw [InputBitstream.getNumBitsLeft, ← length_remaining, payload,
      length_bytesToBits, size]
    rfl
  refine ⟨output, read, _, bs, behind, ?_⟩
  have cut := extractSubstream_bytes aligned (show bs.fifo.drop bs.fifoIdx = [] ++ last.fifo from rest)
  show extractSubstreams [] bs = _
  rw [extractSubstreams, wrapped, cut]
  rfl

end Vtm.RoundTrip.EntryPoint
