import Vtm.Common.HRD
import Vtm.Decoder.VLCReader

/-!
# Reading the hypothetical reference decoder parameters

The parameters are read into an object that already has values; what is neither
read nor inferred keeps its value.
-/

namespace Vtm.HRD

open Vtm.Std Vtm.VLCReader

/-- One coded picture buffer of a sub-layer. -/
def parseCpb (nalOrVcl : Nat) (info : HrdSubLayerInfo) (j : Nat) : BitReader HrdSubLayerInfo := do
  let symbol ← xReadUvlc
  let info := { info with
    bitRateValueMinus1 := setEntry info.bitRateValueMinus1 j nalOrVcl symbol }
  let symbol ← xReadUvlc
  let info := { info with cpbSizeValue := setEntry info.cpbSizeValue j nalOrVcl symbol }
  let symbol ← xReadBool
  return { info with cbrFlag := setEntry info.cbrFlag j nalOrVcl symbol }

/-- The loop over `j` for one value of `nalOrVcl`. -/
@[grind =] def parseCpbs (present : Nat → Bool) (info : HrdSubLayerInfo) (nalOrVcl : Nat) :
    BitReader HrdSubLayerInfo :=
  if present nalOrVcl then
    (List.range' 0 (info.cpbCntMinus1 + 1)).foldlM (parseCpb nalOrVcl) info
  else return info

/-- `fixed_pic_rate_within_cvs_flag`, inferred to be 1 behind `fixed_pic_rate_general_flag`. -/
def parseWithinCvs (info : HrdSubLayerInfo) : BitReader HrdSubLayerInfo := do
  if !info.fixedPicRateFlag then
    let symbol ← xReadBool
    return { info with fixedPicRateWithinCvsFlag := symbol }
  else return { info with fixedPicRateWithinCvsFlag := true }

/-- `elemental_duration_in_tc_minus1` or `low_delay_hrd_flag`. -/
def parseDuration (info : HrdSubLayerInfo) : BitReader HrdSubLayerInfo := do
  if info.fixedPicRateWithinCvsFlag then
    let symbol ← xReadUvlc
    return { info with picDurationInTcMinus1 := symbol }
  else
    let symbol ← xReadBool
    return { info with lowDelayHrdFlag := symbol }

/-- `cpb_cnt_minus1`. -/
def parseCpbCnt (info : HrdSubLayerInfo) : BitReader HrdSubLayerInfo := do
  if !info.lowDelayHrdFlag then
    let symbol ← xReadUvlc
    return { info with cpbCntMinus1 := symbol }
  else return info

/-- The body of the loop over the sub-layers. -/
def parseSubLayer (present : Nat → Bool) (info : HrdSubLayerInfo) : BitReader HrdSubLayerInfo := do
  let symbol ← xReadBool
  let info ← parseWithinCvs { info with fixedPicRateFlag := symbol }
  -- inferred to be 0 when not present
  let info ← parseDuration { info with lowDelayHrdFlag := false, cpbCntMinus1 := 0 }
  let info ← parseCpbCnt info
  let info ← parseCpbs present info 0
  parseCpbs present info 1

/-- The copy of the last sub-layer's values to one that is not coded. -/
def copyCpbs (present : Nat → Bool) (last info : HrdSubLayerInfo) : HrdSubLayerInfo :=
  let copied (j nalOrVcl : Nat) : Bool := present nalOrVcl && j ≤ info.cpbCntMinus1
  { info with
    bitRateValueMinus1 := fun j nalOrVcl =>
      if copied j nalOrVcl then last.bitRateValueMinus1 j nalOrVcl
      else info.bitRateValueMinus1 j nalOrVcl
    cpbSizeValue := fun j nalOrVcl =>
      if copied j nalOrVcl then last.cpbSizeValue j nalOrVcl else info.cpbSizeValue j nalOrVcl
    cbrFlag := fun j nalOrVcl =>
      if copied j nalOrVcl then last.cbrFlag j nalOrVcl else info.cbrFlag j nalOrVcl }

/-- A value that is read with the decoding unit parameters only, else kept. -/
def parseDecodingUnit (hrd : HRDParameters) (value length : Nat) : BitReader Nat :=
  if hrd.generalDecodingUnitHrdParamsPresentFlag then xReadCode length else return value

/-- The loop over the coded sub-layers. -/
def parseSubLayers (hrd : HRDParameters) (firstSubLayer maxNumSubLayersMinus1 : Nat) :
    BitReader HRDParameters :=
  (List.range' firstSubLayer (maxNumSubLayersMinus1 + 1 - firstSubLayer)).foldlM
    (fun hrd i => do
      let info ← parseSubLayer hrd.present (hrd.m_HRD i)
      return hrd.setLayer i info) hrd

/-- The sub-layers that are not coded take the values of the last one. -/
def copySubLayers (hrd : HRDParameters) (firstSubLayer maxNumSubLayersMinus1 : Nat) :
    HRDParameters :=
  (List.range firstSubLayer).foldl (fun hrd i =>
    hrd.setLayer i (copyCpbs hrd.present (hrd.m_HRD maxNumSubLayersMinus1) (hrd.m_HRD i))) hrd

def parseHrdParameters (hrd : HRDParameters) (firstSubLayer maxNumSubLayersMinus1 : Nat) :
    BitReader HRDParameters := do
  let nal ← xReadBool
  let vcl ← xReadBool
  let du ← xReadBool
  let hrd := { hrd with
    nalHrdParametersPresentFlag := nal
    vclHrdParametersPresentFlag := vcl
    generalDecodingUnitHrdParamsPresentFlag := du }
  let symbol ← parseDecodingUnit hrd hrd.tickDivisorMinus2 8
  let hrd := { hrd with tickDivisorMinus2 := symbol }
  let symbol ← xReadCode 4
  let hrd := { hrd with bitRateScale := symbol }
  let symbol ← xReadCode 4
  let hrd := { hrd with cpbSizeScale := symbol }
  let symbol ← parseDecodingUnit hrd hrd.cpbSizeDuScale 4
  let hrd := { hrd with cpbSizeDuScale := symbol }
  let hrd ← parseSubLayers hrd firstSubLayer maxNumSubLayersMinus1
  return copySubLayers hrd firstSubLayer maxNumSubLayersMinus1

end Vtm.HRD
