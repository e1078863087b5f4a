import Vtm.Common.NAL
import Mathlib.Data.List.DropRight

/-!
# Reading NAL units

`convertPayloadToRBSP` removes the emulation prevention bytes of a NAL unit and
records where they stood; `read` then parses the header from the front of the
result.
-/

namespace Vtm.NALread

/-- Loop state of `convertPayloadToRBSP`: the bytes behind `it_write`, the
recorded escape positions and the zero counter. -/
structure ConvertState where
  written : List UInt8
  locations : List Nat
  zeroCount : Nat
deriving DecidableEq

/-- The compaction loop. The first argument is the buffer from `it_read` on;
`it_write` never passes `it_read`, so the bytes still to be read are unchanged. -/
@[grind =] def convertLoop : List UInt8 → Nat → ConvertState → Checked ConvertState
  | [], _, st => .ok st
  | byte :: rest, pos, st => do
      CHECK (st.zeroCount ≥ 2 ∧ byte < 3) "Zero count is '2' and read value is small than '3'"
      if st.zeroCount = 2 ∧ byte = 3 then
        let locations := st.locations ++ [pos]
        match rest with
        | [] => return ⟨st.written, locations, 0⟩
        | next :: rest =>
            CHECK (next > 3) "Read a value bigger than '3'"
            convertLoop rest (pos + 2)
              ⟨st.written ++ [next], locations, if next = 0 then 1 else 0⟩
      else
        convertLoop rest (pos + 1)
          ⟨st.written ++ [byte], st.locations, if byte = 0 then st.zeroCount + 1 else 0⟩

/-- Walking `it_write` back over zeros. A buffer of nothing but zeros would be
read before its first byte. -/
def removeCabacZeroWords (written : List UInt8) : Checked (List UInt8) := do
  CHECK (written.all (· = 0)) "read before the start of the buffer"
  return written.rdropWhile (· = 0)

/-- `convertPayloadToRBSP`: the compacted buffer and the escape positions. -/
def convertPayloadToRBSP (nalUnitBuf : List UInt8) (isVclNalUnit : Bool) :
    Checked (List UInt8 × List Nat) := do
  let st ← convertLoop nalUnitBuf 0 ⟨[], [], 0⟩
  CHECK (st.zeroCount ≠ 0) "Zero count not '0'"
  let written ← if isVclNalUnit then removeCabacZeroWords st.written else pure st.written
  return (written, st.locations)

def readNalUnitHeader (nalu : InputNALUnit) : Checked InputNALUnit := do
  let (forbiddenZeroBit, bs) ← nalu.bitstream.read 1
  let (nuhReservedZeroBit, bs) ← bs.read 1
  let (nuhLayerId, bs) ← bs.read 6
  CHECK (nuhLayerId > 55) "The value of nuh_layer_id shall be in the range of 0 to 55, inclusive"
  let (nalUnitType, bs) ← bs.read 5
  let (temporalIdPlus1, bs) ← bs.read 3
  let nalUnitType := NalUnitType.ofCode nalUnitType
  let temporalId := (temporalIdPlus1 + (2 ^ 32 - 1)) % 2 ^ 32
  -- only check these rules for base layer
  if nuhLayerId = 0 then
    if temporalId = 0 then
      CHECK (nalUnitType = .codedSliceStsa)
        "When NAL unit type is equal to STSA_NUT, TemporalId shall not be equal to 0"
  return ⟨⟨nalUnitType, temporalId, nuhLayerId, forbiddenZeroBit, nuhReservedZeroBit⟩, bs⟩

/-- `read`: undo the emulation prevention, then parse the header. The buffer is
not empty: the first byte is looked at before anything else. -/
def read (nalu : InputNALUnit) : Checked InputNALUnit := do
  let nalUnitBuf := nalu.bitstream.fifo
  CHECK (nalUnitBuf = []) "read before the start of the buffer"
  let isVclNalUnit := nalUnitBuf.headD 0 &&& 64 == 0
  let (rbsp, locations) ← convertPayloadToRBSP nalUnitBuf isVclNalUnit
  let bitstream : InputBitstream :=
    { nalu.bitstream with fifo := rbsp, emulationPreventionByteLocation := locations }
  readNalUnitHeader { nalu with bitstream := bitstream.resetToStart }

end Vtm.NALread
