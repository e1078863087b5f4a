import Vtm.Common.BitStream
import Vtm.Common.Contexts

/-!
# The CABAC encoding engine

`BinEncoderBase` and `TBinEncoder`: a 32-bit `low` register whose top bits leave
as bytes. A byte that may still receive a carry waits in `bufferedByte`, and
`0xff` bytes behind it are only counted. Register arithmetic is modulo `2 ^ 32`;
the bin counters and the bin store are left out.
-/

namespace Vtm

open Vtm.Std

/-- The members of `TBinEncoder`, with its output bitstream and context store. -/
structure BinEncoder (ι : Type) where
  bitstream : OutputBitstream
  low : Nat
  range : Nat
  bufferedByte : Nat
  numBufferedBytes : Nat
  bitsLeft : Nat
  ctx : CtxStore ι

namespace BinEncoder

variable {ι : Type}

/-- `start()` on an output bitstream. -/
def start (bitstream : OutputBitstream) (ctx : CtxStore ι) : BinEncoder ι :=
  { bitstream, low := 0, range := 510, bufferedByte := 0xff, numBufferedBytes := 0, bitsLeft := 23,
    ctx }

/-- The loops that write one byte `count` times. -/
def writeRepeated (byte : Nat) : Nat → OutputBitstream → Checked OutputBitstream
  | 0, bitstream => .ok bitstream
  | count + 1, bitstream => do
      let bitstream ← bitstream.write byte 8
      writeRepeated byte count bitstream

/-- `writeOut()`. -/
def writeOut (e : BinEncoder ι) : Checked (BinEncoder ι) := do
  let leadByte := e.low >>> (24 - e.bitsLeft)
  let bitsLeft := e.bitsLeft + 8
  let low := e.low &&& (0xffffffff >>> bitsLeft)
  let e := { e with bitsLeft, low }
  if leadByte = 0xff then
    return { e with numBufferedBytes := e.numBufferedBytes + 1 }
  else if e.numBufferedBytes > 0 then
    let carry := leadByte >>> 8
    let byte := e.bufferedByte + carry
    let e := { e with bufferedByte := leadByte &&& 0xff }
    let bitstream ← e.bitstream.write byte 8
    let byte := (0xff + carry) &&& 0xff
    let bitstream ← writeRepeated byte (e.numBufferedBytes - 1) bitstream
    return { e with bitstream, numBufferedBytes := 1 }
  else
    return { e with numBufferedBytes := 1, bufferedByte := leadByte }

/-- `if( m_bitsLeft < 12 ) writeOut();`. -/
def flush (e : BinEncoder ι) : Checked (BinEncoder ι) :=
  if e.bitsLeft < 12 then e.writeOut else .ok e

def encodeBinEP (e : BinEncoder ι) (bin : Bool) : Checked (BinEncoder ι) :=
  let low := (e.low <<< 1) % 2 ^ 32
  let low := if bin then (low + e.range) % 2 ^ 32 else low
  flush { e with low, bitsLeft := e.bitsLeft - 1 }

/-- `encodeAlignedBinsEP`, for `remBins` bins in at most `fuel` groups. -/
def encodeAlignedBinsEP : Nat → Nat → Nat → BinEncoder ι → Checked (BinEncoder ι)
  | 0, _, _, e => .ok e
  | fuel + 1, bins, remBins, e =>
      if remBins > 0 then do
        let binsToCode := min remBins 8
        let binMask := 1 <<< binsToCode - 1
        let newBins := (bins >>> (remBins - binsToCode)) &&& binMask
        let low := ((e.low <<< binsToCode) + (newBins <<< 8)) % 2 ^ 32
        let e ← flush { e with low, bitsLeft := e.bitsLeft - binsToCode }
        encodeAlignedBinsEP fuel bins (remBins - binsToCode) e
      else .ok e

/-- `encodeBinsEP` outside the aligned case, in at most `fuel` groups: whole bytes
first, then the rest. -/
def encodeUnalignedBinsEP : Nat → Nat → Nat → BinEncoder ι → Checked (BinEncoder ι)
  | 0, _, _, e => .ok e
  | fuel + 1, bins, numBins, e =>
      if numBins > 8 then do
        let numBins := numBins - 8
        let pattern := bins >>> numBins
        let low := ((e.low <<< 8) % 2 ^ 32 + e.range * pattern) % 2 ^ 32
        let bins := bins - pattern <<< numBins
        let e ← flush { e with low, bitsLeft := e.bitsLeft - 8 }
        encodeUnalignedBinsEP fuel bins numBins e
      else
        let low := ((e.low <<< numBins) % 2 ^ 32 + e.range * bins) % 2 ^ 32
        flush { e with low, bitsLeft := e.bitsLeft - numBins }

def encodeBinsEP (e : BinEncoder ι) (bins numBins : Nat) : Checked (BinEncoder ι) :=
  if e.range = 256 then encodeAlignedBinsEP (numBins + 1) bins numBins e
  else encodeUnalignedBinsEP (numBins + 1) bins numBins e

def encodeBinTrm (e : BinEncoder ι) (bin : Bool) : Checked (BinEncoder ι) :=
  let range := e.range - 2
  if bin then
    flush { e with
      low := (((e.low + range) % 2 ^ 32) <<< 7) % 2 ^ 32
      range := 2 <<< 7
      bitsLeft := e.bitsLeft - 7 }
  else if range ≥ 256 then .ok { e with range }
  else
    flush { e with
      low := (e.low <<< 1) % 2 ^ 32
      range := range <<< 1
      bitsLeft := e.bitsLeft - 1 }

/-- `align()`. -/
def align (e : BinEncoder ι) : BinEncoder ι := { e with range := 256 }

/-- The register part of `encodeBin`. -/
def codeBin (e : BinEncoder ι) (m : BinProbModel) (bin : Bool) : Checked (BinEncoder ι) :=
  let LPS := m.getLPS e.range
  let range := e.range - LPS
  if bin ≠ m.mps then
    let numBits := BinProbModel.getRenormBitsLPS LPS
    flush { e with
      bitsLeft := e.bitsLeft - numBits
      low := (((e.low + range) % 2 ^ 32) <<< numBits) % 2 ^ 32
      range := LPS <<< numBits }
  else if range < 256 then
    let numBits := BinProbModel.getRenormBitsRange range
    flush { e with
      bitsLeft := e.bitsLeft - numBits
      low := (e.low <<< numBits) % 2 ^ 32
      range := range <<< numBits }
  else .ok { e with range }

def encodeBin [DecidableEq ι] (e : BinEncoder ι) (bin : Bool) (ctxId : ι) :
    Checked (BinEncoder ι) := do
  let e ← e.codeBin (e.ctx ctxId) bin
  return { e with ctx := e.ctx.update ctxId bin }

/-- The first part of `finish()`: the buffered bytes leave with the last carry.
The result is the stream and what is left in `low`. -/
def finishBuffered (e : BinEncoder ι) : Checked (OutputBitstream × Nat) :=
  if e.low >>> (32 - e.bitsLeft) ≠ 0 then do
    let bitstream ← e.bitstream.write (e.bufferedByte + 1) 8
    let bitstream ← writeRepeated 0x00 (e.numBufferedBytes - 1) bitstream
    return (bitstream, e.low - 1 <<< (32 - e.bitsLeft))
  else do
    let bitstream ←
      if e.numBufferedBytes > 0 then e.bitstream.write e.bufferedByte 8 else pure e.bitstream
    let bitstream ← writeRepeated 0xff (e.numBufferedBytes - 1) bitstream
    return (bitstream, e.low)

/-- `finish()`. -/
def finish (e : BinEncoder ι) : Checked (BinEncoder ι) := do
  let (bitstream, low) ← e.finishBuffered
  let bitstream ← bitstream.write (low >>> 8) (24 - e.bitsLeft)
  return { e with bitstream, low, numBufferedBytes := min e.numBufferedBytes 1 }

/-- The bits written to the stream, buffered, and shifted into `low`. -/
def writtenBits (e : BinEncoder ι) : Nat :=
  e.bitstream.writtenBits + 8 * e.numBufferedBytes + 23 - e.bitsLeft

/-- `getNumWrittenBits()`, an `unsigned`. -/
def getNumWrittenBits (e : BinEncoder ι) : Nat := e.writtenBits % 2 ^ 32

end BinEncoder
end Vtm
