import Vtm.Encoder.NALwrite
import Vtm.Decoder.NALread
import Mathlib.Tactic.IntervalCases

/-!
# Reading back a written NAL unit

`convertLoop_escaped` is the simulation step of the reader's compaction against
the writer's insertion loop, generalised over what follows in the buffer;
`convertPayloadToRBSP_nal` is the whole conversion and `read_nal` adds the
header.
-/

namespace Vtm.RoundTrip.NAL

open Vtm.Std Vtm.NALwrite Vtm.NALread

/-- Positions, counted in written bytes from `pos`, of the bytes inserted into a
payload. -/
def escapeLocations : Nat → Nat → List UInt8 → List Nat
  | _, _, [] => []
  | pos, zeroCount, v :: rest =>
      if zeroCount = 2 ∧ v ≤ 3 then pos :: escapeLocations (pos + 2) (nextCount 0 v) rest
      else escapeLocations (pos + 1) (nextCount zeroCount v) rest

theorem escapeLocations_append (pos zeroCount : Nat) (left right : List UInt8) :
    escapeLocations pos zeroCount (left ++ right) =
      escapeLocations pos zeroCount left ++
        escapeLocations (pos + (escaped zeroCount left).length) (zeroRun zeroCount left) right := by
  induction left generalizing pos zeroCount with
  | nil => rfl
  | cons v rest ih =>
      rw [List.cons_append, escapeLocations, escapeLocations, escaped, zeroRun]
      split
      · rw [ih, List.length_cons, List.length_cons, List.cons_append]
        congr 3
        omega
      · rw [ih, List.length_cons]
        congr 2
        omega

/-- A byte that is not an escape position goes straight through. -/
theorem convertLoop_plain {byte : UInt8} {rest : List UInt8} {pos : Nat} {st : ConvertState}
    (plain : ¬ (2 ≤ st.zeroCount ∧ byte ≤ 3)) :
    convertLoop (byte :: rest) pos st =
      convertLoop rest (pos + 1)
        ⟨st.written ++ [byte], st.locations, nextCount st.zeroCount byte⟩ := by
  have passes : ¬ (st.zeroCount ≥ 2 ∧ byte < 3) :=
    fun hit => plain ⟨hit.1, UInt8.le_of_lt hit.2⟩
  have notEscape : ¬ (st.zeroCount = 2 ∧ byte = 3) := by
    rintro ⟨two, three⟩
    exact plain ⟨by omega, by rw [three]; decide⟩
  rw [convertLoop, CHECK_of_not passes]
  simp only [if_neg notEscape, bind, Except.bind]
  rfl

/-- An inserted byte is skipped, its position recorded and its successor kept. -/
theorem convertLoop_inserted {v : UInt8} {rest : List UInt8} {pos : Nat} {st : ConvertState}
    (two : st.zeroCount = 2) (small : v ≤ 3) :
    convertLoop (emulationPreventionThreeByte :: v :: rest) pos st =
      convertLoop rest (pos + 2)
        ⟨st.written ++ [v], st.locations ++ [pos], nextCount 0 v⟩ := by
  have passes : ¬ (st.zeroCount ≥ 2 ∧ emulationPreventionThreeByte < 3) :=
    fun hit => absurd hit.2 (by decide)
  have isEscape : st.zeroCount = 2 ∧ emulationPreventionThreeByte = 3 := ⟨two, rfl⟩
  have inBounds : ¬ v > 3 := UInt8.not_lt.mpr small
  rw [convertLoop, CHECK_of_not passes]
  simp only [if_pos isEscape, CHECK_of_not inBounds, bind, Except.bind]
  rfl

/-- Reading back an escaped payload, whatever follows it in the buffer. -/
theorem convertLoop_escaped (rbsp tail : List UInt8) (pos : Nat) (st : ConvertState)
    (bounded : st.zeroCount ≤ 2) :
    convertLoop (escaped st.zeroCount rbsp ++ tail) pos st =
      convertLoop tail (pos + (escaped st.zeroCount rbsp).length)
        ⟨st.written ++ rbsp, st.locations ++ escapeLocations pos st.zeroCount rbsp,
          zeroRun st.zeroCount rbsp⟩ := by
  induction rbsp generalizing pos st with
  | nil => simp [escaped, escapeLocations, zeroRun]
  | cons v rest ih =>
      rw [escaped, escapeLocations, zeroRun]
      by_cases inserts : st.zeroCount = 2 ∧ v ≤ 3
      · simp only [if_pos inserts, List.cons_append]
        rw [convertLoop_inserted inserts.1 inserts.2]
        refine (ih (pos + 2) ⟨st.written ++ [v], st.locations ++ [pos], nextCount 0 v⟩
          (nextCount_zero_le v)).trans ?_
        have shift : ∀ count, pos + 2 + count = pos + (count + 1 + 1) := by omega
        simp [shift]
      · simp only [if_neg inserts, List.cons_append]
        have plain : ¬ (2 ≤ st.zeroCount ∧ v ≤ 3) := fun hit => inserts ⟨by omega, hit.2⟩
        rw [convertLoop_plain plain]
        refine (ih (pos + 1) ⟨st.written ++ [v], st.locations, nextCount st.zeroCount v⟩
          (nextCount_le bounded inserts)).trans ?_
        simp [Nat.add_assoc, Nat.add_comm]

/-- The closing byte after a `cabac_zero_word` ends the loop. -/
theorem convertLoop_closing {pos : Nat} {st : ConvertState} (two : st.zeroCount = 2) :
    convertLoop [emulationPreventionThreeByte] pos st =
      .ok ⟨st.written, st.locations ++ [pos], 0⟩ := by
  have passes : ¬ (st.zeroCount ≥ 2 ∧ emulationPreventionThreeByte < 3) :=
    fun hit => absurd hit.2 (by decide)
  have isEscape : st.zeroCount = 2 ∧ emulationPreventionThreeByte = 3 := ⟨two, rfl⟩
  rw [convertLoop, CHECK_of_not passes]
  simp only [if_pos isEscape, bind, Except.bind]
  rfl

/-- The payloads NAL units carry: a byte string that is empty or ends in a
non-zero byte, followed by whole `cabac_zero_word`s when it is not empty. -/
inductive Rbsp : List UInt8 → List UInt8 → Prop where
  | empty : Rbsp [] []
  | words (front : List UInt8) (last : UInt8) (nonzero : last ≠ 0) (count : Nat) :
      Rbsp (front ++ [last]) (front ++ [last] ++ List.replicate (2 * count) 0)

theorem zeroRun_zero_words (count : Nat) {zeroCount : Nat}
    (even : zeroCount = 0 ∨ zeroCount = 2) :
    zeroRun zeroCount (List.replicate (2 * count) 0) = 0 ∨
      zeroRun zeroCount (List.replicate (2 * count) 0) = 2 := by
  induction count generalizing zeroCount with
  | zero => exact even
  | succ count ih =>
      have shape : List.replicate (2 * (count + 1)) (0 : UInt8) =
          0 :: 0 :: List.replicate (2 * count) 0 := rfl
      have pair : zeroRun zeroCount (0 :: 0 :: List.replicate (2 * count) 0) =
          zeroRun 2 (List.replicate (2 * count) 0) := by
        rcases even with rfl | rfl <;> simp [zeroRun, nextCount]
      rw [shape, pair]
      exact ih (Or.inr rfl)

/-- A payload of whole words leaves the writer with no zeros or a full pair. -/
theorem Rbsp.zeroRun_even {data rbsp : List UInt8} (shape : Rbsp data rbsp) :
    zeroRun 0 rbsp = 0 ∨ zeroRun 0 rbsp = 2 := by
  cases shape with
  | empty => exact Or.inl rfl
  | words front last nonzero count =>
      rw [zeroRun_append, zeroRun_concat_of_ne_zero 0 front nonzero]
      exact zeroRun_zero_words count (Or.inl rfl)

/-- Reading back everything `write` emits after the header. -/
theorem convertLoop_escapePayload {data rbsp : List UInt8} (shape : Rbsp data rbsp) (pos : Nat)
    (st : ConvertState) (fresh : st.zeroCount = 0) :
    ∃ locations, convertLoop (escapePayload rbsp) pos st =
      .ok ⟨st.written ++ rbsp, st.locations ++ locations, 0⟩ ∧
      (zeroRun 0 rbsp = 0 → locations = escapeLocations pos 0 rbsp) := by
  have consumed := convertLoop_escaped rbsp
    (if zeroRun 0 rbsp > 0 then [emulationPreventionThreeByte] else []) pos st (by omega)
  rw [fresh, ← escapePayload_eq] at consumed
  rw [consumed]
  rcases shape.zeroRun_even with none | pair
  · exact ⟨escapeLocations pos 0 rbsp, by simp [none, convertLoop], fun _ => rfl⟩
  · refine ⟨escapeLocations pos 0 rbsp ++ [pos + (escaped 0 rbsp).length], ?_, ?_⟩
    · rw [pair, if_pos (by decide), convertLoop_closing rfl]
      simp
    · intro zero
      omega

theorem rdropWhile_zero_words (front : List UInt8) {last : UInt8} (nonzero : last ≠ 0)
    (count : Nat) :
    (front ++ [last] ++ List.replicate count 0).rdropWhile (· = 0) = front ++ [last] := by
  induction count with
  | zero => simp [nonzero]
  | succ count ih =>
      rw [List.replicate_succ', ← List.append_assoc, List.rdropWhile_concat_pos _ _ _ (by simp), ih]

/-- Behind a header the zero words are stripped and nothing else. -/
theorem removeCabacZeroWords_nal {data rbsp : List UInt8} (shape : Rbsp data rbsp) (first : UInt8)
    {second : UInt8} (nonzero : second ≠ 0) :
    removeCabacZeroWords (first :: second :: rbsp) = .ok (first :: second :: data) := by
  have notAll : ¬ (first :: second :: rbsp).all (· = 0) = true := by
    simp [nonzero]
  unfold removeCabacZeroWords
  rw [CHECK_of_not notAll]
  simp only [bind, Except.bind, pure, Except.pure, Except.ok.injEq]
  cases shape with
  | empty => exact rdropWhile_zero_words [first] nonzero 0
  | words front last lastNonzero count =>
      exact rdropWhile_zero_words (first :: second :: front) lastNonzero (2 * count)

/-- The conversion recovers the header and the payload of a written NAL unit;
without zero words at the end the recorded positions are the insertions. -/
theorem convertPayloadToRBSP_nal {nalu : NALUnit} (inRange : nalu.InRange)
    {data rbsp : List UInt8} (shape : Rbsp data rbsp) :
    ∃ locations, convertPayloadToRBSP (headerBytes nalu ++ escapePayload rbsp) true =
      .ok (headerBytes nalu ++ data, locations) ∧
      (zeroRun 0 rbsp = 0 → locations = escapeLocations 2 0 rbsp) := by
  have nonzero := headerBytes_second_ne_zero inRange
  set first := UInt8.ofNat nalu.nuhLayerId with firstDef
  set second := UInt8.ofNat (nalu.nalUnitType.code * 8 + (nalu.temporalId + 1)) with secondDef
  have header : headerBytes nalu = [first, second] := rfl
  have firstCount : nextCount 0 first ≤ 1 := by
    unfold nextCount
    split <;> omega
  obtain ⟨locations, run, positions⟩ := convertLoop_escapePayload shape 2
    ⟨[first, second], [], nextCount (nextCount 0 first) second⟩ (by simp [nextCount, nonzero])
  refine ⟨locations, ?_, positions⟩
  have loop : convertLoop (headerBytes nalu ++ escapePayload rbsp) 0 ⟨[], [], 0⟩ =
      .ok ⟨first :: second :: rbsp, locations, 0⟩ := by
    rw [header, List.cons_append, convertLoop_plain (by simp), List.cons_append,
      convertLoop_plain]
    · simpa using run
    · rintro ⟨two, _⟩
      have : 2 ≤ nextCount 0 first := two
      omega
  unfold convertPayloadToRBSP
  rw [loop]
  simp only [bind, Except.bind, CHECK_of_not (show ¬ ((0 : Nat) ≠ 0) by simp), if_true,
    removeCabacZeroWords_nal shape first nonzero, header, pure, Except.pure, List.cons_append,
    List.nil_append]

/-! ## Reading the header -/

/-- The one header combination `readNalUnitHeader` refuses. -/
def Refused (nalu : NALUnit) : Prop :=
  nalu.nuhLayerId = 0 ∧ nalu.temporalId = 0 ∧ nalu.nalUnitType = .codedSliceStsa

instance (nalu : NALUnit) : Decidable (Refused nalu) := by
  unfold Refused
  infer_instance

/-- The header fields as they are read back: both zero bits are zero. -/
def asRead (nalu : NALUnit) : NALUnit :=
  { nalu with forbiddenZeroBit := 0, nuhReservedZeroBit := 0 }

def refusedMessage : String :=
  "When NAL unit type is equal to STSA_NUT, TemporalId shall not be equal to 0"

/-- Header fields come back from the bits `writeNalUnitHeader` emits, and the
reader stands at the first payload byte. -/
theorem readNalUnitHeader_spec {nalu : NALUnit} (inRange : nalu.InRange) (input : InputNALUnit)
    (wf : input.bitstream.WellFormed) {rest : List Bool}
    (view : input.bitstream.remaining = bytesToBits (headerBytes nalu) ++ rest) :
    ∃ bs, bs.WellFormed ∧ bs.remaining = rest ∧
      InputBitstream.SameBytes input.bitstream bs ∧
      readNalUnitHeader input =
        if Refused nalu then .error refusedMessage else .ok ⟨asRead nalu, bs⟩ := by
  rw [bytesToBits_headerBytes inRange] at view
  obtain ⟨layer, type, temporal⟩ := inRange
  simp only [List.append_assoc] at view
  obtain ⟨bs₁, run₁, wf₁, view₁, same₁⟩ := InputBitstream.read_spec wf (by decide) (by decide) view
  obtain ⟨bs₂, run₂, wf₂, view₂, same₂⟩ :=
    InputBitstream.read_spec wf₁ (by decide) (by decide) view₁
  obtain ⟨bs₃, run₃, wf₃, view₃, same₃⟩ :=
    InputBitstream.read_spec wf₂ (by decide) (by omega) view₂
  obtain ⟨bs₄, run₄, wf₄, view₄, same₄⟩ :=
    InputBitstream.read_spec wf₃ (by decide) (by omega) view₃
  obtain ⟨bs₅, run₅, wf₅, view₅, same₅⟩ :=
    InputBitstream.read_spec wf₄ (by decide) (by omega) view₄
  refine ⟨bs₅, wf₅, view₅, same₁.trans (same₂.trans (same₃.trans (same₄.trans same₅))), ?_⟩
  have layerPasses : ¬ nalu.nuhLayerId > 55 := by omega
  have temporalWord : (nalu.temporalId + 1 + (2 ^ 32 - 1)) % 2 ^ 32 = nalu.temporalId := by omega
  unfold readNalUnitHeader
  simp only [run₁, run₂, run₃, run₄, run₅, CHECK_of_not layerPasses, temporalWord,
    NalUnitType.ofCode_code, bind, Except.bind, pure, Except.pure]
  by_cases refused : Refused nalu
  · obtain ⟨zeroLayer, zeroTemporal, stsa⟩ := refused
    simp [zeroLayer, zeroTemporal, stsa, CHECK, Refused, refusedMessage]
  · rw [if_neg refused]
    split
    · split
      · next zeroLayer zeroTemporal =>
          rw [CHECK_of_not fun stsa => refused ⟨zeroLayer, zeroTemporal, stsa⟩]
          rfl
      · rfl
    · rfl

/-- A stream of whole bytes left in front of a payload stands at its first byte. -/
theorem payload_of_remaining {bs : InputBitstream} (wf : bs.WellFormed) {data : List UInt8}
    (view : bs.remaining = bytesToBits data) :
    bs.numHeldBits = 0 ∧ bs.fifo.drop bs.fifoIdx = data := by
  have heldLt := wf.heldLt
  have lengths := congrArg List.length view
  rw [InputBitstream.length_remaining, InputBitstream.unreadBits, length_bytesToBits] at lengths
  have held : bs.numHeldBits = 0 := by omega
  refine ⟨held, bytesToBits_injective ?_⟩
  rw [← view, InputBitstream.remaining, held]
  rfl

/-- `read` on the bytes of a written NAL unit. -/
theorem read_nal {nalu : NALUnit} (inRange : nalu.InRange) {data rbsp : List UInt8}
    (shape : Rbsp data rbsp) (input : InputNALUnit)
    (bytes : input.bitstream.fifo = headerBytes nalu ++ escapePayload rbsp) :
    ∃ bs, bs.WellFormed ∧ bs.remaining = bytesToBits data ∧ bs.fifo = headerBytes nalu ++ data ∧
      (zeroRun 0 rbsp = 0 →
        bs.emulationPreventionByteLocation = escapeLocations 2 0 rbsp) ∧
      NALread.read input = if Refused nalu then .error refusedMessage else .ok ⟨asRead nalu, bs⟩ := by
  obtain ⟨locations, converted, positions⟩ := convertPayloadToRBSP_nal inRange shape
  set compacted : InputBitstream :=
    { input.bitstream with
      fifo := headerBytes nalu ++ data
      emulationPreventionByteLocation := locations } with compactedDef
  have front : compacted.resetToStart.remaining =
      bytesToBits (headerBytes nalu) ++ bytesToBits data := by
    simp [compactedDef]
  obtain ⟨bs, wf, view, same, run⟩ := readNalUnitHeader_spec inRange
    { input with bitstream := compacted.resetToStart }
    (InputBitstream.WellFormed.resetToStart compacted) front
  refine ⟨bs, wf, view, same.fifo, fun uncounted => same.locations.trans (positions uncounted), ?_⟩
  rw [← run]
  -- the first header byte is `nuh_layer_id`, so bit 64 is clear
  have vcl : (UInt8.ofNat nalu.nuhLayerId &&& 64 == 0) = true := by
    have layer := inRange.layer
    interval_cases nalu.nuhLayerId <;> rfl
  have nonempty : ¬ (headerBytes nalu ++ escapePayload rbsp = []) := by simp [headerBytes]
  have first : (headerBytes nalu ++ escapePayload rbsp).headD 0 = UInt8.ofNat nalu.nuhLayerId := rfl
  unfold NALread.read
  simp only [bytes, CHECK_of_not nonempty, first, vcl, converted, bind, Except.bind, compactedDef]

/-- A NAL unit is written without start codes and without a zero at its end, its
payload survives the conversion, and `read` recovers header and payload unless
the header is the one it refuses. -/
theorem read_write {nalu : OutputNALUnit} (inRange : nalu.InRange) {data : List UInt8}
    (shape : Rbsp data nalu.bitstream.fifo) :
    ∃ bytes, write [] nalu = .ok bytes ∧ StartCodeFree bytes ∧ bytes.getLast? ≠ some 0 ∧
      (∃ locations, convertPayloadToRBSP bytes true =
        .ok (headerBytes nalu.toNALUnit ++ data, locations)) ∧
      ∀ input : InputNALUnit, input.bitstream.fifo = bytes →
        if Refused nalu.toNALUnit then NALread.read input = .error refusedMessage
        else ∃ bs, NALread.read input = .ok ⟨asRead nalu.toNALUnit, bs⟩ ∧
          bs.numHeldBits = 0 ∧ bs.fifo.drop bs.fifoIdx = data := by
  refine ⟨_, write_eq [] inRange, startCodeFree_nal inRange _, getLast_nal inRange _, ?_, ?_⟩
  · obtain ⟨locations, converted, _⟩ := convertPayloadToRBSP_nal inRange shape
    exact ⟨locations, converted⟩
  · intro input bytes
    obtain ⟨bs, wf, view, _, _, run⟩ := read_nal inRange shape input bytes
    split
    · next refused => rw [run, if_pos refused]
    · next accepted =>
        rw [run, if_neg accepted]
        exact ⟨bs, rfl, payload_of_remaining wf view⟩

/-- A trailing picture slice whose payload needs one insertion and ends in a
`cabac_zero_word`. -/
def trailSample : OutputNALUnit :=
  ⟨⟨.codedSliceTrail, 0, 0, 0, 0⟩, ⟨[0x26, 0, 0, 1, 0x80, 0, 0], 0, 0⟩⟩

theorem read_write_trailSample :
    trailSample.InRange ∧ Rbsp [0x26, 0, 0, 1, 0x80] trailSample.bitstream.fifo ∧
      ∃ bytes, write [] trailSample = .ok bytes ∧ StartCodeFree bytes := by
  have inRange : trailSample.InRange := ⟨by decide, by decide, by decide⟩
  have shape : Rbsp [0x26, 0, 0, 1, 0x80] trailSample.bitstream.fifo :=
    Rbsp.words [0x26, 0, 0, 1] 0x80 (by decide) 1
  obtain ⟨bytes, run, free, _⟩ := read_write inRange shape
  exact ⟨inRange, shape, bytes, run, free⟩

/-- An STSA slice in the lowest sub-layer of the base layer. -/
def stsaSample : OutputNALUnit :=
  ⟨⟨.codedSliceStsa, 0, 0, 0, 0⟩, ⟨[0x80], 0, 0⟩⟩

/-- The header and payload are in range, yet `read` stops at a `CHECK`. -/
theorem read_stsaSample_refused :
    stsaSample.InRange ∧ Rbsp [0x80] stsaSample.bitstream.fifo ∧
      write [] stsaSample = .ok [0x00, 0x09, 0x80] ∧
      ∀ out, NALread.read ⟨stsaSample.toNALUnit, InputBitstream.ofFifo [0x00, 0x09, 0x80]⟩ ≠ .ok out := by
  have inRange : stsaSample.InRange := ⟨by decide, by decide, by decide⟩
  have shape : Rbsp [0x80] stsaSample.bitstream.fifo := Rbsp.words [] 0x80 (by decide) 0
  refine ⟨inRange, shape, rfl, ?_⟩
  intro out accepted
  obtain ⟨bs, _, _, _, _, run⟩ := read_nal inRange shape
    ⟨stsaSample.toNALUnit, InputBitstream.ofFifo [0x00, 0x09, 0x80]⟩ rfl
  rw [run, if_pos (by decide)] at accepted
  cases accepted

end Vtm.RoundTrip.NAL
