import Vtm.Encoder.VLCWriter
import Vtm.Common.ScalingList

/-!
# Writing scaling lists

`codeScalingList` and `xCodeScalingList`. A list is copied from a reference, or coded by
the differences of its coefficients along the scan, from a start value or from the
differences to a reference. Each difference is cut to a signed byte.
-/

namespace Vtm.ScalingList

open Vtm.VLCWriter

/-- `deltasrc[i]`: the difference to the predictor at a scan position. -/
def deltasrc (scalingList : ScalingList) (scalingListId i : Nat) : Int :=
  scalingList.scalingListCoef scalingListId (scanIdx scalingListId i) -
    scalingList.refAddress scalingListId (scalingList.refMatrixId scalingListId)
      (scanIdx scalingListId i)

/-- `deltasrc[64]`: the difference of the DC values. -/
@[grind =] def deltasrcDC (scalingList : ScalingList) (scalingListId : Nat) : Int :=
  let PredListId := scalingList.refMatrixId scalingListId
  let srcPred := scalingList.refAddress scalingListId PredListId
  scalingList.scalingListDC scalingListId -
    if PredListId ≥ SCALING_LIST_1D_START_16x16 then
      if scalingListId = PredListId then 16 else scalingList.scalingListDC PredListId
    else srcPred (scanIdx scalingListId 0)

/-- The DC value of a list in `xCodeScalingList`; returns `nextCoef`. -/
def xCodeScalingListDC (scalingList : ScalingList) (scalingListId : Nat) (isPredictor : Bool)
    (nextCoef : Int) : BitWriter Int :=
  if scalingListId ≥ SCALING_LIST_1D_START_16x16 then
    if isPredictor then do
      xWriteSvlc (Int.bmod (scalingList.deltasrcDC scalingListId) 256)
      return scalingList.deltasrcDC scalingListId
    else do
      xWriteSvlc (Int.bmod (scalingList.scalingListDC scalingListId - nextCoef) 256)
      return scalingList.scalingListDC scalingListId
  else return nextCoef

/-- A round of the coefficient loop in `xCodeScalingList`. -/
def xCodeScalingListCoef (scalingList : ScalingList) (scalingListId : Nat) (isPredictor : Bool)
    (nextCoef : Int) (i : Nat) : BitWriter Int :=
  if zeroedOut scalingListId i then return nextCoef
  else if isPredictor then do
    xWriteSvlc (Int.bmod (scalingList.deltasrc scalingListId i - nextCoef) 256)
    return scalingList.deltasrc scalingListId i
  else do
    xWriteSvlc (Int.bmod
      (scalingList.scalingListCoef scalingListId (scanIdx scalingListId i) - nextCoef) 256)
    return scalingList.scalingListCoef scalingListId (scanIdx scalingListId i)

def xCodeScalingList (scalingList : ScalingList) (scalingListId : Nat) (isPredictor : Bool) :
    BitWriter Unit := do
  let nextCoef := if isPredictor then 0 else SCALING_LIST_START_VALUE
  let nextCoef ← scalingList.xCodeScalingListDC scalingListId isPredictor nextCoef
  let _ ← (List.range' 0 (coefNum scalingListId)).foldlM
    (scalingList.xCodeScalingListCoef scalingListId isPredictor) nextCoef
  return ()

/-- The reference of a list in `codeScalingList`. -/
def codeRefMatrixId (scalingList : ScalingList) (scalingListId : Nat) : BitWriter Unit :=
  if (scalingList.scalingListPredModeFlagIsCopy scalingListId ||
      scalingList.scalingListPreditorModeFlag scalingListId) && !startsSize scalingListId then
    xWriteUvlc
      (((scalingListId : Int) - (scalingList.refMatrixId scalingListId : Int)) % 2 ^ 32).toNat
  else return ()

/-- A round of `codeScalingList`. -/
def codeScalingListId (scalingList : ScalingList) (scalingListId : Nat) : BitWriter Unit := do
  let scalingListCopyModeFlag := scalingList.scalingListPredModeFlagIsCopy scalingListId
  xWriteBool scalingListCopyModeFlag
  if scalingListCopyModeFlag then
    scalingList.codeRefMatrixId scalingListId
  else
    xWriteBool (scalingList.scalingListPreditorModeFlag scalingListId)
    scalingList.codeRefMatrixId scalingListId
    scalingList.xCodeScalingList scalingListId
      (scalingList.scalingListPreditorModeFlag scalingListId)

def codeScalingList (scalingList : ScalingList) : BitWriter Unit := do
  xWriteBool scalingList.disableScalingMatrixForLfnstBlks
  (List.range' 0 28).foldlM (fun _ => scalingList.codeScalingListId) ()

end Vtm.ScalingList
