import Vtm.Std.Codec
import Vtm.Common.BitStream

/-!
# Fixed and variable length codes: writing

The syntax element writers of `VLCWriter`, as steps on the output bitstream.
-/

namespace Vtm

open Vtm.Std

/-- A program that writes to the current output bitstream. -/
abbrev BitWriter := StateT OutputBitstream Checked

namespace VLCWriter

/-- `m_pcBitIf->write`. -/
def write (uiBits uiNumberOfBits : Nat) : BitWriter Unit :=
  fun s => do
    let s ← s.write uiBits uiNumberOfBits
    return ((), s)

def xWriteCode (uiCode uiLength : Nat) : BitWriter Unit := do
  check (uiLength = 0) "Code of length '0' not supported"
  write uiCode uiLength

/-- The loop of `xWriteUvlc` that counts the code length; 32 rounds are enough for
a 32-bit `uiTemp`. -/
def uvlcLength : Nat → Nat → Nat → Nat
  | 0, _, uiLength => uiLength
  | fuel + 1, uiTemp, uiLength =>
      if 1 ≠ uiTemp then uvlcLength fuel (uiTemp >>> 1) (uiLength + 2) else uiLength

def xWriteUvlc (uiCode : Nat) : BitWriter Unit := do
  let uiCode := (uiCode + 1) % 2 ^ 32
  check (uiCode = 0) "Integer overflow"
  let uiLength := uvlcLength 32 uiCode 1
  write 0 (uiLength >>> 1)
  write uiCode ((uiLength + 1) >>> 1)

/-- The unsigned code of a signed value in `xWriteSvlc`. -/
def svlcCode (iCode : Int) : Nat :=
  ((if iCode ≤ 0 then (-iCode) * 2 else iCode * 2 - 1) % 2 ^ 32).toNat

def xWriteSvlc (iCode : Int) : BitWriter Unit :=
  xWriteUvlc (svlcCode iCode)

def xWriteFlag (uiCode : Nat) : BitWriter Unit :=
  write uiCode 1

/-- Writing a flag from a truth value. -/
def xWriteBool (flag : Bool) : BitWriter Unit :=
  xWriteFlag flag.toNat

/-- The loop of `xWriteRbspTrailingBits`; it ends within eight rounds. -/
def writeAlignmentZeros : Nat → Nat → BitWriter Nat
  | 0, cnt => return cnt
  | fuel + 1, cnt => do
      let left ← (fun s => .ok (s.getNumBitsUntilByteAligned, s) : BitWriter Nat)
      if left ≠ 0 then
        xWriteFlag 0
        writeAlignmentZeros fuel (cnt + 1)
      else return cnt

def xWriteRbspTrailingBits : BitWriter Unit := do
  xWriteFlag 1
  let cnt ← writeAlignmentZeros 8 0
  check (cnt ≥ 8) "More than '8' alignment bytes read"

end VLCWriter
end Vtm

/-!
## Slice header: writing the order count and the entry points

`codeSlicePicOrderCntLsb` is the first element of `codeSliceHeader`.
`codeTilesWPPEntryPoint` signals the sizes of all substreams of a slice but the
last. A size counts the emulation prevention bytes its substream will receive.
-/

namespace Vtm.SliceHeader

open Vtm.Std Vtm.VLCWriter

/-- `slice_pic_order_cnt_lsb` in `codeSliceHeader`. -/
def codeSlicePicOrderCntLsb (pocBits : Nat) (poc : Int32) : BitWriter Unit :=
  let pocMask := (1 : Int32) <<< Int32.ofNat pocBits - 1
  xWriteCode (poc &&& pocMask).toUInt32.toNat pocBits

/-- The size signalled for a substream: its bytes and its emulations. -/
def substreamSize (substream : OutputBitstream) : Nat :=
  ((substream.getNumberOfWrittenBits >>> 3) + substream.countStartCodeEmulations) % 2 ^ 32

/-- The loop that finds the number of bits for the largest offset. The check
stops it before 32 rounds. -/
def offsetLength : Nat → Nat → Nat → BitWriter Nat
  | 0, _, offsetLenMinus1 => return offsetLenMinus1
  | fuel + 1, maxOffset, offsetLenMinus1 =>
      if maxOffset ≥ 1 <<< (offsetLenMinus1 + 1) then do
        let offsetLenMinus1 := offsetLenMinus1 + 1
        check (offsetLenMinus1 + 1 ≥ 32) "Invalid offset length minus 1"
        offsetLength fuel maxOffset offsetLenMinus1
      else return offsetLenMinus1

def codeTilesWPPEntryPoint (singleTileInPicFlag entropyCodingSyncEnabledFlag : Bool)
    (substreamSizes : List Nat) : BitWriter Unit := do
  if singleTileInPicFlag && !entropyCodingSyncEnabledFlag then return ()
  let maxOffset := substreamSizes.foldl (fun maxOffset offset =>
    if offset > maxOffset then offset else maxOffset) 0
  let offsetLenMinus1 ← offsetLength 32 maxOffset 0
  xWriteUvlc substreamSizes.length
  if substreamSizes.length > 0 then
    xWriteUvlc offsetLenMinus1
    substreamSizes.foldlM (fun _ size =>
      xWriteCode ((size + (2 ^ 32 - 1)) % 2 ^ 32) (offsetLenMinus1 + 1)) ()

end Vtm.SliceHeader
