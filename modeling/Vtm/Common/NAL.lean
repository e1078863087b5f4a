import Vtm.Common.BitStream

/-!
# NAL units

The NAL unit types, the header fields and the two wrappers that pair a header
with a bitstream.
-/

namespace Vtm

/-- `nal_unit_type`, in the order of the table. -/
inductive NalUnitType where
  | codedSliceTrail
  | codedSliceStsa
  | codedSliceRadl
  | codedSliceRasl
  | reservedVcl4
  | reservedVcl5
  | reservedVcl6
  | codedSliceIdrWRadl
  | codedSliceIdrNLp
  | codedSliceCra
  | codedSliceGdr
  | reservedIrapVcl11
  | reservedIrapVcl12
  | dps
  | vps
  | sps
  | pps
  | prefixAps
  | suffixAps
  | ph
  | accessUnitDelimiter
  | eos
  | eob
  | prefixSei
  | suffixSei
  | fd
  | reservedNvcl26
  | reservedNvcl27
  | unspecified28
  | unspecified29
  | unspecified30
  | unspecified31
  | invalid
deriving DecidableEq, Repr

namespace NalUnitType

/-- The table, indexed by the coded value. -/
def table : List NalUnitType :=
  [codedSliceTrail, codedSliceStsa, codedSliceRadl, codedSliceRasl, reservedVcl4, reservedVcl5,
    reservedVcl6, codedSliceIdrWRadl, codedSliceIdrNLp, codedSliceCra, codedSliceGdr,
    reservedIrapVcl11, reservedIrapVcl12, dps, vps, sps, pps, prefixAps, suffixAps, ph,
    accessUnitDelimiter, eos, eob, prefixSei, suffixSei, fd, reservedNvcl26, reservedNvcl27,
    unspecified28, unspecified29, unspecified30, unspecified31]

/-- The enumerator's value. -/
def code (t : NalUnitType) : Nat := table.idxOf t

/-- The cast of a coded value; values outside the table are `NAL_UNIT_INVALID`. -/
def ofCode (n : Nat) : NalUnitType := table.getD n invalid

@[simp] theorem ofCode_code (t : NalUnitType) : ofCode t.code = t := by
  cases t <;> rfl

theorem code_lt_iff (t : NalUnitType) : t.code < 32 ↔ t ≠ invalid := by
  cases t <;> decide

end NalUnitType

/-- A NAL unit header. The two zero bits are written as zeros whatever the
header says and are kept by the reader as read. -/
structure NALUnit where
  nalUnitType : NalUnitType
  temporalId : Nat
  nuhLayerId : Nat
  forbiddenZeroBit : Nat
  nuhReservedZeroBit : Nat
deriving DecidableEq, Repr

/-- The header ranges the syntax can carry. -/
structure NALUnit.InRange (nalu : NALUnit) : Prop where
  layer : nalu.nuhLayerId ≤ 55
  type : nalu.nalUnitType.code < 32
  temporal : nalu.temporalId ≤ 6

/-- A NAL unit header with the bitstream that becomes its payload. -/
structure OutputNALUnit extends NALUnit where
  bitstream : OutputBitstream
deriving DecidableEq, Repr

/-- A NAL unit header with the bitstream it was read from. -/
structure InputNALUnit extends NALUnit where
  bitstream : InputBitstream
deriving DecidableEq, Repr

end Vtm
