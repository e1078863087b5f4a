import Vtm.Decoder.VLCReader
import Vtm.Common.ScalingList

/-!
# Reading scaling lists

`parseScalingList` and `decodeScalingList`. The differences of a list are added up
without a bound; only the sum with the predictor is reduced modulo 256.
-/

namespace Vtm.ScalingList

open Vtm.Std Vtm.VLCReader

/-- The DC value of a list in `decodeScalingList`; returns `nextCoef`. -/
def decodeScalingListDC (scalingList : ScalingList) (scalingListId : Nat) (isPredictor : Bool)
    (nextCoef : Int) : BitReader (Int × ScalingList) :=
  let PredListId := scalingList.refMatrixId scalingListId
  let srcPred := scalingList.refAddress scalingListId PredListId
  if scalingListId ≥ SCALING_LIST_1D_START_16x16 then do
    let scalingListDcCoefMinus8 ← xReadSvlc
    let nextCoef := nextCoef + scalingListDcCoefMinus8
    let predCoef :=
      if isPredictor then
        if PredListId ≥ SCALING_LIST_1D_START_16x16 then scalingList.scalingListDC PredListId
        else srcPred 0
      else 0
    return (nextCoef, scalingList.setScalingListDC scalingListId
      (Int.tmod (nextCoef + predCoef + 256) 256))
  else return (nextCoef, scalingList)

/-- A round of the coefficient loop in `decodeScalingList`. The list behind `srcPred` is
not the one that is written. -/
def decodeScalingListCoef (scalingListId : Nat) (isPredictor : Bool) (srcPred : Nat → Int)
    (state : Int × ScalingList) (i : Nat) : BitReader (Int × ScalingList) :=
  if zeroedOut scalingListId i then
    return (state.1, state.2.setCoef scalingListId (scanIdx scalingListId i) 0)
  else do
    let data ← xReadSvlc
    let nextCoef := state.1 + data
    let predCoef := if isPredictor then srcPred (scanIdx scalingListId i) else 0
    return (nextCoef, state.2.setCoef scalingListId (scanIdx scalingListId i)
      (Int.tmod (nextCoef + predCoef + 256) 256))

def decodeScalingList (scalingList : ScalingList) (scalingListId : Nat) (isPredictor : Bool) :
    BitReader ScalingList := do
  let nextCoef := if isPredictor then 0 else SCALING_LIST_START_VALUE
  let PredListId := scalingList.refMatrixId scalingListId
  check (isPredictor ∧ PredListId > scalingListId) "Scaling List error predictor!"
  let srcPred := scalingList.refAddress scalingListId PredListId
  let state ← scalingList.decodeScalingListDC scalingListId isPredictor nextCoef
  let state ← (List.range' 0 (coefNum scalingListId)).foldlM
    (decodeScalingListCoef scalingListId isPredictor srcPred) state
  return state.2

/-- The reference of a list in `parseScalingList`. -/
def parseRefMatrixId (scalingList : ScalingList) (scalingListId : Nat) : BitReader ScalingList :=
  if (scalingList.scalingListPredModeFlagIsCopy scalingListId ||
      scalingList.scalingListPreditorModeFlag scalingListId) && !startsSize scalingListId then do
    let code ← xReadUvlc
    return scalingList.setRefMatrixId scalingListId
      (((scalingListId : Int) - (code : Int)) % 2 ^ 32).toNat
  else if scalingList.scalingListPredModeFlagIsCopy scalingListId ||
      scalingList.scalingListPreditorModeFlag scalingListId then
    return scalingList.setRefMatrixId scalingListId scalingListId
  else return scalingList

/-- The copy of a list in `parseScalingList`. -/
def copyRefMatrix (scalingList : ScalingList) (scalingListId : Nat) : ScalingList :=
  let refListId := scalingList.refMatrixId scalingListId
  let scalingList :=
    if scalingListId ≥ SCALING_LIST_1D_START_16x16 then
      scalingList.setScalingListDC scalingListId
        (if scalingListId = refListId then 16
        else if refListId < SCALING_LIST_1D_START_16x16 then
          scalingList.scalingListCoef refListId 0
        else scalingList.scalingListDC refListId)
    else scalingList
  scalingList.processRefMatrix scalingListId refListId

/-- A round of `parseScalingList`. -/
def parseScalingListId (scalingList : ScalingList) (scalingListId : Nat) :
    BitReader ScalingList := do
  let scalingListCopyModeFlag ← xReadBool
  let scalingList :=
    (scalingList.setScalingListCopyModeFlag scalingListId scalingListCopyModeFlag
      ).setScalingListPreditorModeFlag scalingListId false
  if scalingListCopyModeFlag then
    let scalingList ← scalingList.parseRefMatrixId scalingListId
    return scalingList.copyRefMatrix scalingListId
  else
    let code ← xReadBool
    let scalingList ←
      (scalingList.setScalingListPreditorModeFlag scalingListId code).parseRefMatrixId
        scalingListId
    scalingList.decodeScalingList scalingListId
      (scalingList.scalingListPreditorModeFlag scalingListId)

def parseScalingList (scalingList : ScalingList) : BitReader ScalingList := do
  let code ← xReadBool
  (List.range' 0 28).foldlM parseScalingListId
    (scalingList.setDisableScalingMatrixForLfnstBlks code)

end Vtm.ScalingList
