import Vtm.Common.HRD
import Vtm.Encoder.VLCWriter

/-!
# Writing the hypothetical reference decoder parameters
-/

namespace Vtm.HRD

open Vtm.Std Vtm.VLCWriter

/-- One coded picture buffer of a sub-layer. -/
def codeCpb (info : HrdSubLayerInfo) (nalOrVcl j : Nat) : BitWriter Unit := do
  xWriteUvlc (info.bitRateValueMinus1 j nalOrVcl)
  xWriteUvlc (info.cpbSizeValue j nalOrVcl)
  xWriteBool (info.cbrFlag j nalOrVcl)

/-- The loop over `j` for one value of `nalOrVcl`. -/
@[grind =] def codeCpbs (present : Nat → Bool) (info : HrdSubLayerInfo) (nalOrVcl : Nat) : BitWriter Unit :=
  if present nalOrVcl then
    (List.range' 0 (info.cpbCntMinus1 + 1)).foldlM (fun _ j => codeCpb info nalOrVcl j) ()
  else return ()

/-- `fixed_pic_rate_within_cvs_flag`, with the value the writer goes on with. -/
def codeWithinCvs (info : HrdSubLayerInfo) : BitWriter Bool := do
  if !info.fixedPicRateFlag then
    xWriteBool info.fixedPicRateWithinCvsFlag
    return info.fixedPicRateWithinCvsFlag
  else return true

/-- `elemental_duration_in_tc_minus1` or `low_delay_hrd_flag`. -/
def codeDuration (info : HrdSubLayerInfo) (fixedPixRateWithinCvsFlag : Bool) : BitWriter Unit :=
  if fixedPixRateWithinCvsFlag then xWriteUvlc info.picDurationInTcMinus1
  else xWriteBool info.lowDelayHrdFlag

/-- `cpb_cnt_minus1`. -/
def codeCpbCnt (info : HrdSubLayerInfo) : BitWriter Unit :=
  if !info.lowDelayHrdFlag then xWriteUvlc info.cpbCntMinus1 else return ()

/-- The body of the loop over the sub-layers. -/
def codeSubLayer (present : Nat → Bool) (info : HrdSubLayerInfo) : BitWriter Unit := do
  xWriteBool info.fixedPicRateFlag
  let fixedPixRateWithinCvsFlag ← codeWithinCvs info
  codeDuration info fixedPixRateWithinCvsFlag
  codeCpbCnt info
  codeCpbs present info 0
  codeCpbs present info 1

/-- A value that is written with the decoding unit parameters only. -/
def codeDecodingUnit (hrd : HRDParameters) (value length : Nat) : BitWriter Unit :=
  if hrd.generalDecodingUnitHrdParamsPresentFlag then xWriteCode value length else return ()

def codeHrdParameters (hrd : HRDParameters) (firstSubLayer maxNumSubLayersMinus1 : Nat) :
    BitWriter Unit := do
  xWriteBool hrd.nalHrdParametersPresentFlag
  xWriteBool hrd.vclHrdParametersPresentFlag
  xWriteBool hrd.generalDecodingUnitHrdParamsPresentFlag
  codeDecodingUnit hrd hrd.tickDivisorMinus2 8
  xWriteCode hrd.bitRateScale 4
  xWriteCode hrd.cpbSizeScale 4
  codeDecodingUnit hrd hrd.cpbSizeDuScale 4
  (List.range' firstSubLayer (maxNumSubLayersMinus1 + 1 - firstSubLayer)).foldlM
    (fun _ i => codeSubLayer hrd.present (hrd.m_HRD i)) ()

end Vtm.HRD
