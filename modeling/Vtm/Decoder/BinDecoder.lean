import Vtm.Common.BitStream
import Vtm.Common.Contexts

/-!
# The CABAC decoding engine

`BinDecoderBase` and `TBinDecoder`. The `value` register holds the code value
relative to the lower bound, seven bits finer than the range; `bitsNeeded` runs
from -8 to -1 and a byte is read whenever it would reach zero. Register
arithmetic is modulo `2 ^ 32`.
-/

namespace Vtm

open Vtm.Std

/-- The members of `TBinDecoder`, with its input bitstream and context store. -/
structure BinDecoder (ι : Type) where
  bitstream : InputBitstream
  range : Nat
  value : Nat
  bitsNeeded : Int
  ctx : CtxStore ι

namespace BinDecoder

variable {ι : Type}

/-- `start()`. -/
def start (bitstream : InputBitstream) (ctx : CtxStore ι) : Checked (BinDecoder ι) := do
  CHECK (bitstream.getNumBitsUntilByteAligned ≠ 0) "Bitstream is not byte aligned."
  let (first, bitstream) ← bitstream.readByte
  let (second, bitstream) ← bitstream.readByte
  return { bitstream, range := 510, value := (first <<< 8) + second, bitsNeeded := -8, ctx }

/-- `finish()`. -/
def finish (d : BinDecoder ι) : Checked Unit := do
  let lastByte ← d.bitstream.peekPreviousByte
  CHECK ((lastByte <<< (8 + d.bitsNeeded).toNat) &&& 0xff ≠ 0x80)
    "No proper stop/alignment pattern at end of CABAC stream."

/-- `if( m_bitsNeeded >= 0 )`: add the next byte below the value. -/
@[grind =] def refill (d : BinDecoder ι) : Checked (BinDecoder ι) :=
  if d.bitsNeeded ≥ 0 then do
    let (byte, bitstream) ← d.bitstream.readByte
    return { d with
      bitstream
      value := (d.value + byte <<< d.bitsNeeded.toNat) % 2 ^ 32
      bitsNeeded := d.bitsNeeded - 8 }
  else .ok d

def decodeBinEP (d : BinDecoder ι) : Checked (Bool × BinDecoder ι) := do
  let d ← refill { d with value := (d.value + d.value) % 2 ^ 32, bitsNeeded := d.bitsNeeded + 1 }
  let SR := d.range <<< 7
  if d.value ≥ SR then return (true, { d with value := d.value - SR })
  else return (false, d)

/-- The inner loops of `decodeBinsEP`: `count` bins by comparison with a halving
threshold. -/
def decodeBits : Nat → Nat → Nat → Nat → Nat × Nat
  | 0, _, bins, value => (bins, value)
  | count + 1, SR, bins, value =>
      let SR := SR >>> 1
      if value ≥ SR then decodeBits count SR ((bins + bins + 1) % 2 ^ 32) (value - SR)
      else decodeBits count SR ((bins + bins) % 2 ^ 32) value

/-- The register update of `decodeAlignedBinsEP`: shift the decoded bins out. -/
def shiftAligned (d : BinDecoder ι) (binsToRead : Nat) : Checked (BinDecoder ι) :=
  let value := (d.value <<< binsToRead) &&& 0x7FFF
  let bitsNeeded := d.bitsNeeded + binsToRead
  if bitsNeeded ≥ 0 then do
    let (byte, bitstream) ← d.bitstream.readByte
    return { d with
      bitstream
      value := value ||| (byte <<< bitsNeeded.toNat)
      bitsNeeded := bitsNeeded - 8 }
  else .ok { d with value, bitsNeeded }

/-- `decodeAlignedBinsEP`, for `remBins` bins in at most `fuel` groups. -/
def decodeAlignedBinsEP : Nat → Nat → Nat → BinDecoder ι → Checked (Nat × BinDecoder ι)
  | 0, _, bins, d => .ok (bins, d)
  | fuel + 1, remBins, bins, d =>
      if remBins > 0 then do
        let binsToRead := min remBins 8
        let binMask := 1 <<< binsToRead - 1
        let newBins := (d.value >>> (15 - binsToRead)) &&& binMask
        let bins := ((bins <<< binsToRead) % 2 ^ 32) ||| newBins
        let d ← d.shiftAligned binsToRead
        decodeAlignedBinsEP fuel (remBins - binsToRead) bins d
      else .ok (bins, d)

/-- `decodeBinsEP` outside the aligned case, in at most `fuel` groups. -/
def decodeUnalignedBinsEP : Nat → Nat → Nat → BinDecoder ι → Checked (Nat × BinDecoder ι)
  | 0, _, bins, d => .ok (bins, d)
  | fuel + 1, remBins, bins, d =>
      if remBins > 8 then do
        let (byte, bitstream) ← d.bitstream.readByte
        let value := ((d.value <<< 8) % 2 ^ 32 + byte <<< (8 + d.bitsNeeded).toNat) % 2 ^ 32
        let (bins, value) := decodeBits 8 (d.range <<< 15) bins value
        decodeUnalignedBinsEP fuel (remBins - 8) bins { d with bitstream, value }
      else do
        let d ← refill { d with
          value := (d.value <<< remBins) % 2 ^ 32
          bitsNeeded := d.bitsNeeded + remBins }
        let (bins, value) := decodeBits remBins (d.range <<< (remBins + 7)) bins d.value
        return (bins, { d with value })

def decodeBinsEP (d : BinDecoder ι) (numBins : Nat) : Checked (Nat × BinDecoder ι) :=
  if d.range = 256 then decodeAlignedBinsEP (numBins + 1) numBins 0 d
  else decodeUnalignedBinsEP (numBins + 1) numBins 0 d

def decodeBinTrm (d : BinDecoder ι) : Checked (Bool × BinDecoder ι) := do
  let range := d.range - 2
  let SR := range <<< 7
  if d.value ≥ SR then return (true, { d with range })
  else if range < 256 then
    let d ← refill { d with
      range := range + range
      value := (d.value + d.value) % 2 ^ 32
      bitsNeeded := d.bitsNeeded + 1 }
    return (false, d)
  else return (false, { d with range })

/-- `align()`. -/
def align (d : BinDecoder ι) : BinDecoder ι := { d with range := 256 }

/-- The register part of `decodeBin`. -/
def codeBin (d : BinDecoder ι) (m : BinProbModel) : Checked (Bool × BinDecoder ι) := do
  let bin := m.mps
  let LPS := m.getLPS d.range
  let range := d.range - LPS
  let SR := range <<< 7
  if d.value < SR then
    if range < 256 then
      let numBits := BinProbModel.getRenormBitsRange range
      let d ← refill { d with
        range := range <<< numBits
        value := (d.value <<< numBits) % 2 ^ 32
        bitsNeeded := d.bitsNeeded + numBits }
      return (bin, d)
    else return (bin, { d with range })
  else
    let numBits := BinProbModel.getRenormBitsLPS LPS
    let d ← refill { d with
      range := LPS <<< numBits
      value := ((d.value - SR) <<< numBits) % 2 ^ 32
      bitsNeeded := d.bitsNeeded + numBits }
    return (!bin, d)

def decodeBin [DecidableEq ι] (d : BinDecoder ι) (ctxId : ι) : Checked (Bool × BinDecoder ι) := do
  let (bin, d) ← d.codeBin (d.ctx ctxId)
  return (bin, { d with ctx := d.ctx.update ctxId bin })

end BinDecoder
end Vtm
