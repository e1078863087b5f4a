import Vtm.Common.AffineMerge
import Mathlib.Data.Int.Bitwise

/-!
# Temporal motion vectors

`roundMvComp`, `xGetDistScaleFactor`, `scaleMv` and `getColocatedMVP`. Shifts to the right
and bitwise operations are those of two's complement.
-/

namespace Vtm.Motion

open RefPics (RefPicList)
open ChromaQpMappingTableParams (Clip3)
open Vtm.Std (add32 sub32 mul32 div32 int32)

def MV_EXPONENT_BITCOUNT : Nat := 4

def MV_MANTISSA_BITCOUNT : Nat := 6

def MV_MANTISSA_UPPER_LIMIT : Int := 2 ^ (MV_MANTISSA_BITCOUNT - 1) - 1

def MV_MANTISSA_LIMIT : Int := 2 ^ (MV_MANTISSA_BITCOUNT - 1)

def MV_EXPONENT_MASK : Int := 2 ^ MV_EXPONENT_BITCOUNT - 1

/-- `scale` of `convertMvFixedToFloat`. -/
def mvFloatScale (val : Int) : Int :=
  floorLog2 (Int.lor (Int.xor val (val >>> (31 : Nat))) MV_MANTISSA_UPPER_LIMIT) - (MV_MANTISSA_BITCOUNT - 1 : Nat)

/-- The exponent and the mantissa of a rounded value. -/
def mvFloatCode (scale n sign : Int) : Int :=
  let exponent := scale + (Int.xor n sign) >>> (MV_MANTISSA_BITCOUNT - 1)
  let mantissa := Int.lor (Int.land n MV_MANTISSA_UPPER_LIMIT) (sign * 2 ^ (MV_MANTISSA_BITCOUNT - 1))
  Int.lor exponent (mantissa * 2 ^ MV_EXPONENT_BITCOUNT)

def convertMvFixedToFloat (val : Int) : Int :=
  let sign := val >>> (31 : Nat)
  let scale := mvFloatScale val
  if 0 ≤ scale then
    let round : Int := (2 ^ scale.toNat : Int) >>> (1 : Nat)
    mvFloatCode scale ((val + round) >>> scale.toNat) sign
  else Int.lor 0 (val * 2 ^ MV_EXPONENT_BITCOUNT)

def convertMvFloatToFixed (val : Int) : Int :=
  let exponent := Int.land val MV_EXPONENT_MASK
  let mantissa := val >>> MV_EXPONENT_BITCOUNT
  if exponent = 0 then mantissa else Int.xor mantissa MV_MANTISSA_LIMIT * 2 ^ (exponent - 1).toNat

def roundMvComp (x : Int) : Int := convertMvFloatToFixed (convertMvFixedToFloat x)

def xGetDistScaleFactor (iCurrPOC iCurrRefPOC iColPOC iColRefPOC : Int) : Checked Int := do
  let iDiffPocD ← sub32 iColPOC iColRefPOC
  let iDiffPocB ← sub32 iCurrPOC iCurrRefPOC
  if iDiffPocD = iDiffPocB then return 4096
  else
    let iTDB := Clip3 (-128) 127 iDiffPocB
    let iTDD := Clip3 (-128) 127 iDiffPocD
    let half ← div32 iTDD 2
    let dividend ← add32 0x4000 |half|
    let iX ← div32 dividend iTDD
    let product ← mul32 iTDB iX
    let sum ← add32 product 32
    return Clip3 (-4096) 4095 (sum >>> (6 : Nat))

/-- A component of `scaleMv`. -/
def scaleMvComp (iScale v : Int) : Checked Int := do
  let product ← mul32 iScale v
  let sum ← add32 product 128
  let sum ← sub32 sum (if 0 ≤ product then 1 else 0)
  return Clip3 (-2 ^ 17) (2 ^ 17 - 1) (sum >>> (8 : Nat))

def Mv.scaleMv (mv : Mv) (iScale : Int) : Checked Mv := do
  let mvx ← scaleMvComp iScale mv.hor
  let mvy ← scaleMvComp iScale mv.ver
  return ⟨mvx, mvy⟩

/-- A slice of the collocated picture. -/
structure ColSlice where
  getIndependentSliceIdx : Nat
  getPOC : Int
  getRefPOC : RefPicList → Int → Int
  getIsUsedAsLongTerm : RefPicList → Int → Bool

/-- The collocated picture. -/
structure ColPicture where
  getMotionInfo : Position → MotionInfo
  slices : List ColSlice

/-- What `getColocatedMVP` reads of the current slice. `colPic` is the reference picture at
`getColRefIdx` of a list, and the other two fields those of the reference pictures. -/
structure CurrSlice where
  isInterB : Bool
  getPOC : Int
  getColFromL0Flag : Bool
  getCheckLDC : Bool
  colPic : RefPicList → Option ColPicture
  getRefPOC : RefPicList → Int → Int
  longTerm : RefPicList → Int → Bool

/-- The list of a flag. -/
def listOf (flag : Bool) : RefPicList := if flag then .REF_PIC_LIST_1 else .REF_PIC_LIST_0

/-- The position whose motion is kept: both coordinates are multiples of 8. -/
def colocatedPos (pos : Position) : Position := ⟨pos.x - pos.x % 8, pos.y - pos.y % 8⟩

/-- The motion of the collocated picture, its list, and the reference index there. -/
structure ColMotion where
  mi : MotionInfo
  eColRefPicList : RefPicList
  iColRefIdx : Int

section

variable (slice : CurrSlice)

def pColPic : Option ColPicture :=
  slice.colPic (if slice.isInterB then listOf (!slice.getColFromL0Flag) else .REF_PIC_LIST_0)

/-- The motion that is read, if there is one. -/
def colMotion (isIBC : Bool) (eRefPicList : RefPicList) (sbFlag : Bool) (mi : MotionInfo) :
    Option ColMotion :=
  let eColRefPicList := if slice.getCheckLDC then eRefPicList else listOf slice.getColFromL0Flag
  if ¬ mi.isInter ∨ mi.isIBCmot ∨ isIBC then none
  else if sbFlag ∧ ¬ slice.getCheckLDC then
    if mi.refIdx eRefPicList < 0 then none else some ⟨mi, eRefPicList, mi.refIdx eRefPicList⟩
  else if 0 ≤ mi.refIdx eColRefPicList then some ⟨mi, eColRefPicList, mi.refIdx eColRefPicList⟩
  else if mi.refIdx (otherList eColRefPicList) < 0 then none
  else some ⟨mi, otherList eColRefPicList, mi.refIdx (otherList eColRefPicList)⟩

def ColMotion.cColMv (col : ColMotion) : Mv :=
  let mv := col.mi.mv col.eColRefPicList
  ⟨roundMvComp mv.hor, roundMvComp mv.ver⟩

/-- The vector of a motion in a slice of the collocated picture. -/
def temporalVector (eRefPicList : RefPicList) (refIdx : Int) (colSlice : ColSlice) (col : ColMotion) :
    Checked (Option Mv) :=
  let bIsCurrRefLongTerm := slice.longTerm eRefPicList refIdx
  if bIsCurrRefLongTerm ≠ colSlice.getIsUsedAsLongTerm col.eColRefPicList col.iColRefIdx then .ok none
  else if bIsCurrRefLongTerm then .ok (some col.cColMv)
  else do
    let distscale ← xGetDistScaleFactor slice.getPOC (slice.getRefPOC eRefPicList refIdx)
      colSlice.getPOC (colSlice.getRefPOC col.eColRefPicList col.iColRefIdx)
    if distscale = 4096 then return some col.cColMv
    else
      let rcMv ← col.cColMv.scaleMv distscale
      return some rcMv

def getColocatedMVP (isIBC : Bool) (eRefPicList : RefPicList) (pos : Position) (refIdx : Int)
    (sbFlag : Bool) : Checked (Option Mv) :=
  match pColPic slice with
  | none => .ok none
  | some picture =>
      let mi := picture.getMotionInfo (colocatedPos pos)
      match colMotion slice isIBC eRefPicList sbFlag mi with
      | none => .ok none
      | some col =>
          match picture.slices.find? fun s => s.getIndependentSliceIdx = mi.sliceIdx with
          | none => .error "Slice segment not found"
          | some colSlice => temporalVector slice eRefPicList refIdx colSlice col

end

end Vtm.Motion
