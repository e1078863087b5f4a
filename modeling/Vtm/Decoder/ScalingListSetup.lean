import Vtm.Common.Dequant
import Vtm.Common.ParameterSetMap

/-!
# The scaling list of a picture

`activateAPS` looks the scaling list APS of a picture up and leaves a pointer to it in the
picture header, and `xDecodeSlice` sets the quantiser up. The picture header of the slice, of
the coding structure and of the decoder are one object.
-/

namespace Vtm

namespace ScalingList

def SCALING_LIST_DC : Int := 16

/-- The constructor; the other members are left as the memory holds them. -/
def construct (memory : ScalingList) : ScalingList :=
  { memory with
    disableScalingMatrixForLfnstBlks := true
    scalingListCoef := fun _ _ => 0 }

def processDefaultMatrix (scalingList : ScalingList) (scalingListId : Nat) : ScalingList :=
  setScalingListDC
    { scalingList with
      scalingListCoef := Function.update scalingList.scalingListCoef scalingListId fun idx =>
        if idx < coefNum scalingListId then getScalingListDefaultAddress scalingListId idx
        else scalingList.scalingListCoef scalingListId idx }
    scalingListId SCALING_LIST_DC

def setDefaultScalingList (scalingList : ScalingList) : ScalingList :=
  (List.range 28).foldl processDefaultMatrix scalingList

end ScalingList

/-- What the decoder has when it begins a slice: the flag of the SPS, the scaling list members
of the picture header, the stored APSs and the temporal layer of the slice. `memory` is where
the local `ScalingList` is constructed. -/
structure ScalingListSetup (AlfParam SliceReshapeInfo : Type) where
  scalingListFlag : Bool
  scalingListPresentFlag : Bool
  scalingListApsId : Nat
  apsMap : ApsMap AlfParam SliceReshapeInfo
  tLayer : Nat
  memory : ScalingList

namespace ScalingListSetup

variable {AlfParam SliceReshapeInfo : Type} (setup : ScalingListSetup AlfParam SliceReshapeInfo)

/-- `activateAPS`: the pointer that it leaves in the picture header. -/
def activateScalingListAPS : Checked (Option ScalingList) :=
  if setup.scalingListPresentFlag then
    match setup.apsMap.getAPS setup.scalingListApsId .SCALING_LIST_APS with
    | none => .error "No SCALING LIST APS present"
    | some scalingListAPS => do
        CHECK (scalingListAPS.temporalId > setup.tLayer)
          "TemporalId shall be less than or equal to the TemporalId of the coded slice NAL unit"
        return some scalingListAPS.scalingListApsInfo
  else return none

/-- The list that `xDecodeSlice` passes to the quantiser, for the pointer in the picture
header. -/
def scalingList (scalingListAPS : Option ScalingList) : Checked ScalingList :=
  if setup.scalingListPresentFlag then
    match scalingListAPS with
    | some scalingList => .ok scalingList
    | none => .error "null scaling list APS"
  else .ok (ScalingList.construct setup.memory).setDefaultScalingList

/-- The setup of the quantiser in `xDecodeSlice`. -/
def setupQuant (scalingListAPS : Option ScalingList) (quant : Quant) : Checked Quant := do
  if setup.scalingListFlag then
    let scalingList ← setup.scalingList scalingListAPS
    return (quant.setScalingListDec scalingList).setUseScalingList true
  else return quant.setUseScalingList false

/-- What the dequantisers read of the SPS and the picture header in a slice. -/
@[grind =] def params (scalingListAPS : Option ScalingList) (channelBitDepth : Int)
    (depQuantEnabledFlag : Bool) : Quant.PictureParams where
  channelBitDepth := channelBitDepth
  scalingListFlag := setup.scalingListFlag
  scalingListAPS := scalingListAPS
  depQuantEnabledFlag := depQuantEnabledFlag

end ScalingListSetup

end Vtm
