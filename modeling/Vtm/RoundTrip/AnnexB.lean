import Vtm.Encoder.AnnexBwrite
import Vtm.Decoder.AnnexBread

/-!
# Reading back an Annex B byte stream

A stream written by `writeAnnexB` is a sequence of units, each a start code and
a clean NAL unit. `byteStreamNALUnit_spec` says that a call takes exactly one
unit, and `byteStreamNALUnits_spec` carries this over the whole stream.
-/

namespace Vtm.RoundTrip.AnnexB

open Vtm.Std Vtm.AnnexBwrite Vtm.AnnexBread

/-- The bytes of a NAL unit as `write` produces them. -/
structure Clean (data : List UInt8) : Prop where
  free : NALwrite.StartCodeFree data
  ending : data.getLast? ≠ some 0

theorem Clean.tail {byte next : UInt8} {rest : List UInt8} (clean : Clean (byte :: next :: rest)) :
    Clean (next :: rest) :=
  ⟨fun third small found => clean.free third small (List.infix_cons found), by
    simpa [List.getLast?_cons] using clean.ending⟩

theorem ofBytes_three (first second third : UInt8) :
    ofBytes [first, second, third] =
      first.toNat * 65536 + second.toNat * 256 + third.toNat := by
  have split : [first, second, third] = [first] ++ ([second] ++ [third]) := rfl
  rw [split, ofBytes_append, ofBytes_append]
  simp
  ring

private theorem toNat_pos_of_ne_zero {byte : UInt8} (nonzero : byte ≠ 0) : 0 < byte.toNat := by
  apply Nat.pos_of_ne_zero
  intro zero
  exact nonzero (UInt8.toNat_inj.mp zero)

/-- Inside a clean NAL unit no window of three bytes stops the loop, whether the
stream ends behind it or goes on with a start code. -/
theorem Clean.window {byte : UInt8} {rest following : List UInt8} (clean : Clean (byte :: rest))
    (next : following = [] ∨ AtStartCode following) :
    (byte :: rest ++ following).length < 3 ∨
      2 < ofBytes ((byte :: rest ++ following).take 3) := by
  cases rest with
  | nil =>
      have positive := toNat_pos_of_ne_zero (by simpa using clean.ending : byte ≠ 0)
      rcases next with rfl | ⟨after, rfl | rfl⟩
      · simp
      all_goals
        right
        simp only [List.cons_append, List.nil_append, List.take_succ_cons, List.take_zero,
          ofBytes_three]
        omega
  | cons second others =>
      cases others with
      | nil =>
          have positive := toNat_pos_of_ne_zero (by simpa using clean.ending : second ≠ 0)
          rcases next with rfl | ⟨after, rfl | rfl⟩
          · simp
          all_goals
            right
            simp only [List.cons_append, List.nil_append, List.take_succ_cons, List.take_zero,
              ofBytes_three]
            omega
      | cons third others =>
          right
          simp only [List.cons_append, List.take_succ_cons, List.take_zero, ofBytes_three]
          by_contra low
          have firstZero : byte = 0 := UInt8.toNat_inj.mp (by show byte.toNat = 0; omega)
          have secondZero : second = 0 := UInt8.toNat_inj.mp (by show second.toNat = 0; omega)
          have small : third ≤ 2 := by
            rw [UInt8.le_iff_toNat_le]
            show third.toNat ≤ 2
            omega
          apply clean.free third small
          rw [firstZero, secondZero]
          exact List.IsPrefix.isInfix ⟨others, rfl⟩

/-- The collecting loop takes a whole clean NAL unit and then meets what follows. -/
theorem collectNALUnit_clean {data following : List UInt8} (clean : Clean data)
    (next : following = [] ∨ AtStartCode following) {s : ParseState} (wf : s.bs.WellFormed)
    (view : s.bs.bytes = data ++ following) (fuel : Nat) :
    ∃ bs, collectNALUnit (fuel + data.length) s =
        collectNALUnit fuel { s with bs, nalUnit := s.nalUnit ++ data } ∧
      bs.WellFormed ∧ bs.bytes = following := by
  induction data generalizing s with
  | nil => exact ⟨s.bs, by simp, wf, view⟩
  | cons byte rest ih =>
      have more := clean.window next
      rw [← view] at more
      obtain ⟨bs, run, wf', left⟩ := collectNALUnit_step wf view more (fuel + rest.length)
      have shape : fuel + (byte :: rest).length = fuel + rest.length + 1 := by
        simp only [List.length_cons]
        omega
      rw [shape, run]
      cases rest with
      | nil => exact ⟨bs, by simp, wf', left⟩
      | cons second others =>
          obtain ⟨bs', run', wf'', left'⟩ :=
            ih clean.tail (s := { s with bs, nalUnit := s.nalUnit ++ [byte] }) wf' left
          refine ⟨bs', ?_, wf'', left'⟩
          rw [run']
          simp

/-! ## Whole calls -/

/-- A unit of the stream with a clean NAL unit behind its start code. -/
structure WellFormedUnit (unit : StreamUnit) : Prop where
  isCode : unit.code = [0, 0, 0, 1] ∨ unit.code = [0, 0, 1]
  clean : Clean unit.data

/-- What a call reports for a unit. -/
@[grind =] def resultFor (unit : StreamUnit) (eof : Bool) : CallResult :=
  ⟨unit.data, { codeStats unit.code with numBytesInNALUnit := UInt32.ofNat unit.data.length }, eof⟩

/-- A call takes exactly the unit at the front of the stream, and reports the end
of the stream exactly when nothing follows. -/
theorem byteStreamNALUnit_spec {bs : InputByteStream} (wf : bs.WellFormed) {unit : StreamUnit}
    (unitWf : WellFormedUnit unit) {following : List UInt8}
    (next : following = [] ∨ AtStartCode following)
    (view : bs.bytes = unit.bytes ++ following) :
    ∃ bs', byteStreamNALUnit bs = (resultFor unit (following = []), bs') ∧ bs'.WellFormed ∧
      bs'.bytes = following := by
  obtain ⟨code, data⟩ := unit
  obtain ⟨isCode, clean⟩ := unitWf
  simp only [StreamUnit.bytes, List.append_assoc] at view isCode clean
  have here : AtStartCode bs.bytes := by
    rw [view]
    rcases isCode with rfl | rfl
    · exact ⟨_, Or.inr rfl⟩
    · exact ⟨_, Or.inl rfl⟩
  -- enough rounds for every byte of the NAL unit and one more to stop
  obtain ⟨spare, fuel⟩ : ∃ spare, bs.bytes.length + 1 = spare + 1 + data.length := by
    refine ⟨code.length + following.length, ?_⟩
    rw [view]
    simp only [List.length_append]
    omega
  obtain ⟨bs₁, run₁, wf₁, view₁⟩ := discardZeros_at_startCode (s := ⟨bs, [], .zero⟩) wf here
    "Leading zero bits not zero" countLeadingZero bs.bytes.length
  obtain ⟨bs₂, run₂, wf₂, view₂⟩ := takeStartCode_spec (s := ⟨bs₁, [], .zero⟩) wf₁ isCode
    (view₁.trans view) rfl (do
      collectNALUnit (bs.bytes.length + 1)
      discardZeros "Trailing zero bits not '0'" countTrailingZero (bs.bytes.length + 1))
  obtain ⟨bs₃, run₃, wf₃, view₃⟩ := collectNALUnit_clean clean next
    (s := ⟨bs₂, [], codeStats code⟩) wf₂ view₂ (spare + 1)
  have front : byteStreamNALUnitAux (bs.bytes.length + 1) ⟨bs, [], .zero⟩ =
      (do
        collectNALUnit (bs.bytes.length + 1)
        discardZeros "Trailing zero bits not '0'" countTrailingZero (bs.bytes.length + 1))
        ⟨bs₂, [], codeStats code⟩ := by
    rw [byteStreamNALUnitAux, bind_ok run₁]
    exact run₂
  rcases next with ended | starts
  · obtain ⟨bs₄, run₄, wf₄, view₄⟩ := collectNALUnit_eof
      (s := ⟨bs₃, [] ++ data, codeStats code⟩) wf₃ (view₃.trans ended) spare
    have run : byteStreamNALUnitAux (bs.bytes.length + 1) ⟨bs, [], .zero⟩ =
        .error .eof ⟨bs₄, data, codeStats code⟩ := by
      rw [front]
      apply bind_error
      rw [fuel, run₃]
      exact run₄
    refine ⟨bs₄, ?_, wf₄, view₄.trans ended.symm⟩
    simp [byteStreamNALUnit, run, resultFor, ended]
  · obtain ⟨bs₄, run₄, wf₄, view₄⟩ := collectNALUnit_stop
      (s := ⟨bs₃, [] ++ data, codeStats code⟩) wf₃ (by rw [view₃]; exact starts) spare
    obtain ⟨bs₅, run₅, wf₅, view₅⟩ := discardZeros_at_startCode
      (s := ⟨bs₄, data, codeStats code⟩) wf₄ (by rw [view₄, view₃]; exact starts)
      "Trailing zero bits not '0'" countTrailingZero bs.bytes.length
    have run : byteStreamNALUnitAux (bs.bytes.length + 1) ⟨bs, [], .zero⟩ =
        .ok () ⟨bs₅, data, codeStats code⟩ := by
      rw [front, bind_ok (a := ()) (t := ⟨bs₄, data, codeStats code⟩)]
      · exact run₅
      · rw [fuel, run₃]
        exact run₄
    have more : following ≠ [] := by
      rintro rfl
      obtain ⟨rest, three | four⟩ := starts
      · cases three
      · cases four
    refine ⟨bs₅, ?_, wf₅, (view₅.trans view₄).trans view₃⟩
    simp [byteStreamNALUnit, run, resultFor, more]

/-- The counts of a unit add up to its bytes. -/
theorem resultFor_total {unit : StreamUnit} (unitWf : WellFormedUnit unit) (eof : Bool) :
    (resultFor unit eof).stats.total = UInt32.ofNat unit.bytes.length := by
  obtain ⟨code, data⟩ := unit
  obtain ⟨isCode, _⟩ := unitWf
  simp only at isCode
  rcases isCode with rfl | rfl
  · simp [resultFor, codeStats, AnnexBStats.total, StreamUnit.bytes, UInt32.ofNat_add]
    ac_rfl
  · simp [resultFor, codeStats, AnnexBStats.total, StreamUnit.bytes, UInt32.ofNat_add]
    ac_rfl

/-- The results of reading a stream of units: the end is reported on the last. -/
@[grind =] def resultsFor : List StreamUnit → List CallResult
  | [] => []
  | unit :: rest => resultFor unit (rest = []) :: resultsFor rest

theorem atStartCode_bytes {unit : StreamUnit} (unitWf : WellFormedUnit unit)
    (following : List UInt8) : AtStartCode (unit.bytes ++ following) := by
  rw [StreamUnit.bytes, List.append_assoc]
  rcases unitWf.isCode with four | three
  · exact ⟨_, Or.inr (by rw [four])⟩
  · exact ⟨_, Or.inl (by rw [three])⟩

/-- As many calls as there are units return the units one by one. -/
theorem byteStreamNALUnits_spec {units : List StreamUnit}
    (unitsWf : ∀ unit ∈ units, WellFormedUnit unit) {bs : InputByteStream} (wf : bs.WellFormed)
    (view : bs.bytes = units.flatMap StreamUnit.bytes) :
    byteStreamNALUnits units.length bs = resultsFor units := by
  induction units generalizing bs with
  | nil => rfl
  | cons unit rest ih =>
      rw [List.flatMap_cons] at view
      have next : rest.flatMap StreamUnit.bytes = [] ∨
          AtStartCode (rest.flatMap StreamUnit.bytes) := by
        cases rest with
        | nil => exact Or.inl rfl
        | cons second others =>
            right
            rw [List.flatMap_cons]
            exact atStartCode_bytes (unitsWf second (by simp)) _
      have ends : (rest.flatMap StreamUnit.bytes = []) ↔ rest = [] := by
        constructor
        · intro empty
          cases rest with
          | nil => rfl
          | cons second others =>
              have code := (unitsWf second (by simp)).isCode
              simp [StreamUnit.bytes] at empty
              simp [empty] at code
        · rintro rfl
          rfl
      obtain ⟨bs', run, wf', left⟩ :=
        byteStreamNALUnit_spec wf (unitsWf unit (by simp)) next view
      have tail := ih (fun unit member => unitsWf unit (by simp [member])) wf' left
      rw [List.length_cons, byteStreamNALUnits, run]
      simp only [tail, resultsFor, ends]

theorem resultsFor_nalUnit (units : List StreamUnit) :
    (resultsFor units).map CallResult.nalUnit = units.map StreamUnit.data := by
  induction units with
  | nil => rfl
  | cons unit rest ih => simp [resultsFor, resultFor, ih]

theorem resultsFor_eof (units : List StreamUnit) :
    (resultsFor units).map CallResult.eof =
      (List.range units.length).map fun index => decide (index + 1 = units.length) := by
  induction units with
  | nil => rfl
  | cons unit rest ih =>
      rw [resultsFor, List.map_cons, ih, List.length_cons, List.range_succ_eq_map, List.map_cons,
        List.map_map]
      congr 1
      · simp [resultFor]
      · apply List.map_congr_left
        intro index _
        simp

/-- Summing the statistics of all calls accounts for every byte of the stream. -/
theorem resultsFor_total {units : List StreamUnit}
    (unitsWf : ∀ unit ∈ units, WellFormedUnit unit) (start : AnnexBStats) :
    (((resultsFor units).map CallResult.stats).foldl AnnexBStats.add start).total =
      start.total + UInt32.ofNat (units.flatMap StreamUnit.bytes).length := by
  induction units generalizing start with
  | nil => simp [resultsFor]
  | cons unit rest ih =>
      rw [resultsFor, List.map_cons, List.foldl_cons,
        ih fun unit member => unitsWf unit (by simp [member]), AnnexBStats.total_add,
        resultFor_total (unitsWf unit (by simp)), List.flatMap_cons, List.length_append,
        UInt32.ofNat_add]
      ac_rfl

/-- A NAL unit whose data `write` produced from a header with a valid temporal
identifier. -/
def Written (nalu : NALUnitEBSP) : Prop :=
  ∃ source : OutputNALUnit, source.temporalId ≤ 6 ∧ ofOutputNALUnit source = .ok nalu

theorem Written.clean {nalu : NALUnitEBSP} (written : Written nalu) : Clean nalu.nalUnitData := by
  obtain ⟨source, temporal, built⟩ := written
  unfold ofOutputNALUnit at built
  obtain ⟨bytes, run, built⟩ := bind_eq_ok_iff.mp built
  cases built
  have inRange := NALwrite.inRange_of_write temporal run
  rw [NALwrite.write_eq [] inRange] at run
  cases run
  exact ⟨NALwrite.startCodeFree_nal inRange _, NALwrite.getLast_nal inRange _⟩

theorem streamUnits_wellFormed {first : Bool} {au : AccessUnit}
    (written : ∀ nalu ∈ au, Written nalu) :
    ∀ unit ∈ streamUnits first au, WellFormedUnit unit := by
  intro unit member
  refine ⟨streamUnits_code member, ?_⟩
  have data : unit.data ∈ au.map NALUnitEBSP.nalUnitData := by
    rw [← streamUnits_data first au]
    exact List.mem_map_of_mem member
  obtain ⟨nalu, inAu, same⟩ := List.mem_map.mp data
  rw [← same]
  exact (written nalu inAu).clean

/-- Reading back a stream of access units: one call for each NAL unit returns
their bytes in order, reports the end of the stream on the last one only, and
the statistics account for every byte. -/
theorem byteStreamNALUnits_writeAccessUnits (aus : List AccessUnit)
    (written : ∀ au ∈ aus, ∀ nalu ∈ au, Written nalu) :
    let stream := writeAccessUnits [] aus
    let nalus := aus.flatten
    let results := byteStreamNALUnits nalus.length (InputByteStream.ofInput stream)
    results.map CallResult.nalUnit = nalus.map NALUnitEBSP.nalUnitData ∧
      results.map CallResult.eof =
        (List.range nalus.length).map (fun index => decide (index + 1 = nalus.length)) ∧
      ((results.map CallResult.stats).foldl AnnexBStats.add .zero).total =
        UInt32.ofNat stream.length := by
  intro stream nalus results
  set units := aus.flatMap (streamUnits true) with unitsDef
  have unitsWf : ∀ unit ∈ units, WellFormedUnit unit := by
    intro unit member
    obtain ⟨au, inAus, inUnits⟩ := List.mem_flatMap.mp member
    exact streamUnits_wellFormed (written au inAus) unit inUnits
  have data : units.map StreamUnit.data = nalus.map NALUnitEBSP.nalUnitData := by
    rw [unitsDef, List.map_flatMap]
    simp only [streamUnits_data]
    rw [List.map_flatten, List.flatMap_def]
  have count : nalus.length = units.length := by
    have lengths := congrArg List.length data
    simpa using lengths.symm
  have bytes : stream = units.flatMap StreamUnit.bytes := by
    simpa using writeAccessUnits_eq [] aus
  have run : results = resultsFor units := by
    show byteStreamNALUnits nalus.length (InputByteStream.ofInput stream) = resultsFor units
    rw [count]
    exact byteStreamNALUnits_spec unitsWf (InputByteStream.wellFormed_ofInput stream) bytes
  refine ⟨?_, ?_, ?_⟩
  · rw [run, resultsFor_nalUnit, data]
  · rw [run, resultsFor_eof, count]
  · rw [run, resultsFor_total unitsWf, bytes]
    simp [AnnexBStats.total, AnnexBStats.zero]

/-- Two NAL units, the second short of the look-ahead. -/
def sampleAccessUnit : AccessUnit :=
  [⟨⟨.sps, 0, 0, 0, 0⟩, [0x00, 0x79, 0x00, 0x00, 0x03, 0x01, 0x80]⟩,
    ⟨⟨.eos, 0, 0, 0, 0⟩, [0x00, 0xa9]⟩]

theorem byteStreamNALUnits_sampleAccessUnit :
    (byteStreamNALUnits 2 (InputByteStream.ofInput (writeAccessUnits [] [sampleAccessUnit]))).map
        CallResult.nalUnit =
      [[0x00, 0x79, 0x00, 0x00, 0x03, 0x01, 0x80], [0x00, 0xa9]] := by
  have written : ∀ au ∈ [sampleAccessUnit], ∀ nalu ∈ au, Written nalu := by
    intro au inAus nalu inAu
    rw [List.mem_singleton.mp inAus] at inAu
    simp only [sampleAccessUnit, List.mem_cons, List.not_mem_nil, or_false] at inAu
    rcases inAu with rfl | rfl
    · exact ⟨⟨⟨.sps, 0, 0, 0, 0⟩, ⟨[0x00, 0x00, 0x01, 0x80], 0, 0⟩⟩, by decide, rfl⟩
    · exact ⟨⟨⟨.eos, 0, 0, 0, 0⟩, ⟨[], 0, 0⟩⟩, by decide, rfl⟩
  exact (byteStreamNALUnits_writeAccessUnits [sampleAccessUnit] written).1

end Vtm.RoundTrip.AnnexB
