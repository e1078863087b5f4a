import Vtm.Std.Codec
import Vtm.Common.BitStream

/-!
# Fixed and variable length codes: reading

The syntax element readers of `VLCReader`, as steps on the input bitstream.
-/

namespace Vtm

open Vtm.Std

/-- A program that reads from the current input bitstream. -/
abbrev BitReader := StateT InputBitstream Checked

namespace VLCReader

/-- `m_pcBitstream->read`. -/
def read (uiNumberOfBits : Nat) : BitReader Nat :=
  fun s => s.read uiNumberOfBits

def xReadCode (uiLength : Nat) : BitReader Nat := do
  check (uiLength = 0) "Reading a code of length '0'"
  read uiLength

theorem yields_readCode (n : Nat) : Yields (xReadCode n) fun code => code < 2 ^ n := by
  refine (Yields.trivial (check (n = 0) "Reading a code of length '0'")).bind fun _ _ => ?_
  intro s code s' run
  exact InputBitstream.read_lt run

/-- The loop of `xReadUvlc` and `xReadSvlc` over the leading zeros, which counts in a
`uint32_t`. A round takes a bit or fails at the end of the stream, so `fuel` above the
bits left is never used up. -/
def leadingZeros : Nat → Nat → BitReader Nat
  | 0, _ => fun _ => .error "out of fuel"
  | fuel + 1, uiLength => do
      let uiCode ← read 1
      let uiLength := (uiLength + 1) % 2 ^ 32
      if uiCode % 2 = 0 then leadingZeros fuel uiLength else return uiLength

/-- The bits that a loop can still read. -/
def unreadBits : BitReader Nat :=
  fun s => .ok (s.unreadBits, s)

/-- `m_pcBitstream->getNumBitsLeft`. -/
def bitsLeft : BitReader Nat :=
  fun s => .ok (s.getNumBitsLeft, s)

/-- The `uiLength` both readers count. -/
def zeroRunLength : BitReader Nat := do
  let rounds ← unreadBits
  leadingZeros (rounds + 1) 0

/-- `xReadUvlc`. `(1 << uiLength) - 1` is computed as two's complement does; for a
length of 32, where the shift is undefined, it is taken as `2 ^ 32 - 1`. -/
@[grind =] def xReadUvlc : BitReader Nat := do
  let uiCode ← read 1
  if 0 = uiCode then
    let uiLength ← zeroRunLength
    let uiVal ← read uiLength
    return (uiVal + (2 ^ uiLength - 1)) % 2 ^ 32
  else return 0

def xReadSvlc : BitReader Int := do
  let uiBits ← read 1
  if 0 = uiBits then
    let uiLength ← zeroRunLength
    let uiBits ← read uiLength
    let uiBits := (uiBits + 2 ^ uiLength) % 2 ^ 32
    return if uiBits % 2 = 1 then -((uiBits >>> 1 : Nat) : Int) else ((uiBits >>> 1 : Nat) : Int)
  else return 0

def xReadFlag : BitReader Nat :=
  read 1

/-- A flag as a truth value. -/
def xReadBool : BitReader Bool := do
  return (← xReadFlag) ≠ 0

def readByteAlignment : BitReader Nat := do
  let code ← read 1
  check (code ≠ 1) "Code is not '1'"
  let numBits ← (fun s => .ok (s.getNumBitsUntilByteAligned, s) : BitReader Nat)
  if numBits ≠ 0 then
    let left ← bitsLeft
    check (numBits > left) "More bits available than left"
    let code ← read numBits
    check (code ≠ 0) "Code not '0'"
  return numBits + 1

/-- `m_pcBitstream->peekBits`. -/
def peekBits (uiBits : Nat) : BitReader Nat :=
  fun s => s.pseudoRead uiBits

/-- The loop of `xMoreRbspData` over the trailing zero bits: the `cnt` it ends with. -/
def dropTrailingZeros : Nat → Nat → Nat
  | 0, _ => 0
  | cnt + 1, lastByte =>
      if lastByte % 2 = 0 then dropTrailingZeros cnt (lastByte >>> 1) else cnt + 1

/-- `xMoreRbspData`. The `int` that holds the bits left is negative from `2 ^ 31` on. -/
def xMoreRbspData : BitReader Bool := do
  let left ← bitsLeft
  let bitsLeft : Int := (left : Int).bmod (2 ^ 32)
  -- more than 8 bits cannot be `rbsp_trailing_bits`
  if bitsLeft > 8 then return true
  else
    let lastByte ← peekBits left
    let cnt : Int := (if bitsLeft < 0 then bitsLeft else dropTrailingZeros left (lastByte % 256)) - 1
    check (cnt < 0) "Negative number of bits"
    return cnt > 0

/-- The loop of `xReadRbspTrailingBits`; it ends within eight rounds. -/
def readAlignmentZeros : Nat → Nat → BitReader Nat
  | 0, cnt => return cnt
  | fuel + 1, cnt => do
      let left ← (fun s => .ok (s.getNumBitsUntilByteAligned, s) : BitReader Nat)
      if left ≠ 0 then
        let bit ← xReadFlag
        check (bit ≠ 0) "Alignment bit is not '0'"
        readAlignmentZeros fuel (cnt + 1)
      else return cnt

def xReadRbspTrailingBits : BitReader Unit := do
  let bit ← xReadFlag
  check (bit ≠ 1) "Trailing bit not '1'"
  let cnt ← readAlignmentZeros 8 0
  check (cnt ≥ 8) "Read more than '8' trailing bits"

end VLCReader
end Vtm

/-!
## Slice header: reading the entry points

The end of `parseSliceHeader`. The signalled offsets count emulation prevention
bytes, which are no longer in the buffer; the recorded positions of these bytes
convert the offsets back to sizes. `extractSubstreams` is the use
`decompressSlice` makes of the sizes.
-/

namespace Vtm.SliceHeader

open Vtm.Std Vtm.VLCReader

/-- The entry point offsets as they are signalled. -/
def parseEntryPointOffsets (singleTileInPicFlag entropyCodingSyncEnabledFlag : Bool) :
    BitReader (List Nat) := do
  if !singleTileInPicFlag || entropyCodingSyncEnabledFlag then
    let numEntryPointOffsets ← xReadUvlc
    if numEntryPointOffsets > 0 then
      let offsetLenMinus1 ← xReadUvlc
      (List.range numEntryPointOffsets).foldlM (fun entryPointOffset _ => do
        let uiCode ← xReadCode (offsetLenMinus1 + 1)
        return entryPointOffset ++ [(uiCode + 1) % 2 ^ 32]) []
    else return []
  else return []

/-- The end of the slice header in the NAL unit before its emulation prevention
bytes were removed. It is an `int`, compared with the `uint32_t` positions. -/
@[grind =] def endOfSliceHeader (byteLocation : Nat) (emulationPreventionByteLocation : List Nat) : Nat :=
  emulationPreventionByteLocation.foldl (fun endOfSliceHeaderLocation location =>
    if location < endOfSliceHeaderLocation then (endOfSliceHeaderLocation + 1) % 2 ^ 32
    else endOfSliceHeaderLocation) byteLocation

/-- The loop over the entry points: each offset is reduced by the emulation
prevention bytes inside its substream. The sums of `int`s are compared as `uint32_t`. -/
def adjustEntryPoints (endOfSliceHeaderLocation : Nat)
    (emulationPreventionByteLocation : List Nat) : Nat → List Nat → List Nat
  | _, [] => []
  | prevEntryPointOffset, offset :: rest =>
      let curEntryPointOffset := (prevEntryPointOffset + offset) % 2 ^ 32
      let emulationPreventionByteCount := emulationPreventionByteLocation.countP fun location =>
        location ≥ (prevEntryPointOffset + endOfSliceHeaderLocation) % 2 ^ 32 ∧
          location < (curEntryPointOffset + endOfSliceHeaderLocation) % 2 ^ 32
      (offset + (2 ^ 32 - emulationPreventionByteCount % 2 ^ 32)) % 2 ^ 32 ::
        adjustEntryPoints endOfSliceHeaderLocation emulationPreventionByteLocation
          curEntryPointOffset rest

/-- The substream sizes of a slice whose header ends at the position of `bs`. -/
def substreamSizes (bs : InputBitstream) (entryPointOffset : List Nat) : List Nat :=
  adjustEntryPoints (endOfSliceHeader bs.fifoIdx bs.emulationPreventionByteLocation)
    bs.emulationPreventionByteLocation 0 entryPointOffset

/-- The end of `parseSliceHeader`: entry points, alignment, substream sizes. -/
def parseSubstreamSizes (singleTileInPicFlag entropyCodingSyncEnabledFlag : Bool) :
    BitReader (List Nat) := do
  let entryPointOffset ← parseEntryPointOffsets singleTileInPicFlag entropyCodingSyncEnabledFlag
  let _ ← readByteAlignment
  if !singleTileInPicFlag || entropyCodingSyncEnabledFlag then
    fun bs => .ok (substreamSizes bs entryPointOffset, bs)
  else return []

/-- The substreams `decompressSlice` extracts: one for each size, and the rest. -/
def extractSubstreams : List Nat → InputBitstream → Checked (List InputBitstream)
  | [], bs => do
      let (last, _) ← bs.extractSubstream bs.getNumBitsLeft
      return [last]
  | size :: rest, bs => do
      let (substream, bs) ← bs.extractSubstream ((size <<< 3) % 2 ^ 32)
      return substream :: (← extractSubstreams rest bs)

end Vtm.SliceHeader
