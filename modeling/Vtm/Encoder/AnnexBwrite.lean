import Vtm.Encoder.NALwrite

/-!
# Writing an Annex B byte stream

Each NAL unit of an access unit is preceded by a start code of three or four
bytes.
-/

namespace Vtm

/-- A NAL unit header with its payload in EBSP format. -/
structure NALUnitEBSP extends NALUnit where
  nalUnitData : List UInt8
deriving DecidableEq

abbrev AccessUnit := List NALUnitEBSP

namespace AnnexBwrite

/-- The constructor `NALUnitEBSP(OutputNALUnit&)`. -/
def ofOutputNALUnit (nalu : OutputNALUnit) : Checked NALUnitEBSP := do
  return ⟨nalu.toNALUnit, ← NALwrite.write [] nalu⟩

/-- The types that take the `zero_byte` wherever they stand. -/
def needsZeroByte (nalUnitType : NalUnitType) : Bool :=
  nalUnitType = .dps ∨ nalUnitType = .sps ∨ nalUnitType = .vps ∨ nalUnitType = .pps

/-- The start code written before a NAL unit; `first` says whether it is the
first of its access unit. -/
def startCode (first : Bool) (nalu : NALUnitEBSP) : List UInt8 :=
  if first || needsZeroByte nalu.nalUnitType then [0, 0, 0, 1] else [0, 0, 1]

/-- The loop of `writeAnnexB`: the stream and the sizes written so far. -/
def writeNALUnits : Bool → List UInt8 → List UInt32 → AccessUnit → List UInt8 × List UInt32
  | _, out, annexBsizes, [] => (out, annexBsizes)
  | first, out, annexBsizes, nalu :: rest =>
      let code := startCode first nalu
      let size := UInt32.ofNat code.length + UInt32.ofNat nalu.nalUnitData.length
      writeNALUnits false (out ++ code ++ nalu.nalUnitData) (annexBsizes ++ [size]) rest

/-- `writeAnnexB` appends an access unit to `out`. -/
def writeAnnexB (out : List UInt8) (au : AccessUnit) : List UInt8 × List UInt32 :=
  writeNALUnits true out [] au

/-- The stream obtained by writing access units one after another. -/
def writeAccessUnits (out : List UInt8) (aus : List AccessUnit) : List UInt8 :=
  aus.foldl (fun out au => (writeAnnexB out au).1) out

/-- A unit of the stream: its start code and its NAL unit bytes. -/
structure StreamUnit where
  code : List UInt8
  data : List UInt8

def StreamUnit.bytes (unit : StreamUnit) : List UInt8 := unit.code ++ unit.data

/-- The stream units of one access unit. -/
@[grind =] def streamUnits : Bool → AccessUnit → List StreamUnit
  | _, [] => []
  | first, nalu :: rest => ⟨startCode first nalu, nalu.nalUnitData⟩ :: streamUnits false rest

theorem writeNALUnits_fst (first : Bool) (out : List UInt8) (sizes : List UInt32)
    (au : AccessUnit) :
    (writeNALUnits first out sizes au).1 =
      out ++ (streamUnits first au).flatMap StreamUnit.bytes := by
  induction au generalizing first out sizes with
  | nil => simp [writeNALUnits, streamUnits]
  | cons nalu rest ih =>
      rw [writeNALUnits, ih, streamUnits]
      simp [StreamUnit.bytes]

/-- The whole stream is the concatenation of its units. -/
theorem writeAccessUnits_eq (out : List UInt8) (aus : List AccessUnit) :
    writeAccessUnits out aus =
      out ++ (aus.flatMap (streamUnits true)).flatMap StreamUnit.bytes := by
  induction aus generalizing out with
  | nil => simp [writeAccessUnits]
  | cons au rest ih =>
      have step : writeAccessUnits out (au :: rest) =
          writeAccessUnits (writeAnnexB out au).1 rest := rfl
      rw [step, ih, writeAnnexB, writeNALUnits_fst]
      simp [List.flatMap_append]

theorem streamUnits_data (first : Bool) (au : AccessUnit) :
    (streamUnits first au).map StreamUnit.data = au.map NALUnitEBSP.nalUnitData := by
  induction au generalizing first with
  | nil => rfl
  | cons nalu rest ih => simp [streamUnits, ih]

theorem startCode_cases (first : Bool) (nalu : NALUnitEBSP) :
    startCode first nalu = [0, 0, 0, 1] ∨ startCode first nalu = [0, 0, 1] := by
  unfold startCode
  split <;> simp

theorem streamUnits_code {first : Bool} {au : AccessUnit} {unit : StreamUnit}
    (member : unit ∈ streamUnits first au) :
    unit.code = [0, 0, 0, 1] ∨ unit.code = [0, 0, 1] := by
  induction au generalizing first with
  | nil => simp [streamUnits] at member
  | cons nalu rest ih =>
      rw [streamUnits] at member
      rcases List.mem_cons.mp member with here | later
      · rw [here]
        exact startCode_cases first nalu
      · exact ih later

end AnnexBwrite
end Vtm
