import Vtm.Common.PicHeader
import Vtm.Decoder.SliceRefPicLists

/-!
# Reading the picture header

`parsePictureHeader`, into an object that keeps what an earlier picture left in it.
-/

namespace Vtm.PicHeaders

open Vtm.Std Vtm.VLCReader Vtm.RefPics

/-! ## Elements with an inferred value -/

/-- A flag that is read when `present` and set to `inferred` otherwise. -/
def readFlagOr (present inferred : Bool) : BitReader Bool :=
  if present then xReadBool else return inferred

/-- A number that is read when `present` and set to zero otherwise. -/
def readUvlcOr (present : Bool) : BitReader Nat :=
  if present then xReadUvlc else return 0

/-! ## Start of the header -/

/-- From `non_reference_picture_flag` to the parameter set. -/
def parsePicStart : BitReader PicStart := do
  let nonReferencePictureFlag ← xReadBool
  let gdrPicFlag ← xReadBool
  let noOutputOfPriorPicsFlag ← xReadBool
  let recoveryPocCnt ← readUvlcOr gdrPicFlag
  let ppsId ← xReadUvlc
  return { nonReferencePictureFlag, gdrPicFlag, noOutputOfPriorPicsFlag, recoveryPocCnt, ppsId }

/-- The parameter sets that the header refers to. -/
def lookupParameterSets (sets : ParameterSets) (ppsId : Nat) :
    BitReader (HeaderSPS × HeaderPPS) :=
  match sets.getPPS ppsId with
  | none => fun _ => .error "Invalid PPS"
  | some pps =>
      match sets.getSPS pps.spsId with
      | none => fun _ => .error "Invalid SPS"
      | some sps => return (sps, pps)

/-- The sub-picture ids that are carried in the header. -/
def parseOwnSubPicIds (sps : HeaderSPS) (subPics : SubPicIds) : BitReader SubPicIds := do
  let uiCode ← xReadUvlc
  let subPics := { subPics with subPicIdLen := (uiCode + 1) % 2 ^ 32 }
  check (uiCode > 15) "Invalid ph_subpic_id_len_minus1 signalled"
  (List.range sps.numSubPics).foldlM (fun subPics picIdx => do
    let uiCode ← xReadCode subPics.subPicIdLen
    check (picIdx ≥ MAX_NUM_SUB_PICS) "Sub-pic index exceeds valid range"
    return { subPics with
      subPicId := Function.update subPics.subPicId picIdx (UInt8.ofNat uiCode) }) subPics

/-- Sub-picture ids. -/
def parseSubPicIds (sps : HeaderSPS) (pps : HeaderPPS) (subPics : SubPicIds) :
    BitReader SubPicIds :=
  if sps.subPicIdPresentFlag then
    if sps.subPicIdSignallingPresentFlag then setSubPicIds sps.numSubPics sps.subPicId subPics
    else do
      let present ← xReadBool
      let subPics := { subPics with subPicIdSignallingPresentFlag := present }
      if present then parseOwnSubPicIds sps subPics
      else setSubPicIds sps.numSubPics pps.subPicId subPics
  else setSubPicIds sps.numSubPics (fun picIdx => UInt8.ofNat picIdx) subPics

/-- The positions of the virtual boundaries in one direction. -/
def parseBoundaries (pos : Nat → Nat) : BitReader (Nat × (Nat → Nat)) := do
  let num ← xReadCode 2
  let pos ← (List.range num).foldlM (fun pos i => do
    let uiCode ← xReadCode 13
    check (i ≥ 3) "boundary index exceeds valid range"
    return Function.update pos i (uiCode <<< 3)) pos
  return (num, pos)

/-- Virtual boundaries. -/
def parseVirtualBoundaries (sps : HeaderSPS) (bounds : VirtualBoundaries) :
    BitReader VirtualBoundaries :=
  if ¬ sps.loopFilterAcrossVirtualBoundariesDisabledFlag then do
    let disabled ← xReadBool
    if disabled then
      let (numVer, posX) ← parseBoundaries bounds.virtualBoundariesPosX
      let (numHor, posY) ← parseBoundaries bounds.virtualBoundariesPosY
      return {
        loopFilterAcrossVirtualBoundariesDisabledFlag := disabled
        numVerVirtualBoundaries := numVer
        numHorVirtualBoundaries := numHor
        virtualBoundariesPosX := posX
        virtualBoundariesPosY := posY }
    else return { bounds with
      loopFilterAcrossVirtualBoundariesDisabledFlag := disabled
      numVerVirtualBoundaries := 0
      numHorVirtualBoundaries := 0 }
  else return sps.boundaries bounds

/-- `colour_plane_id`. -/
def parseColourPlaneId (sps : HeaderSPS) : BitReader Nat :=
  if sps.separateColourPlaneFlag then do
    let uiCode ← xReadCode 2
    check (uiCode > 2) "colour_plane_id exceeds valid range"
    return uiCode
  else return 0

/-- Colour plane and output flag. -/
def parsePicOutput (sps : HeaderSPS) (pps : HeaderPPS) : BitReader PicOutput := do
  let colourPlaneId ← parseColourPlaneId sps
  let picOutputFlag ← readFlagOr pps.outputFlagPresentFlag true
  return { colourPlaneId, picOutputFlag }

/-! ## Reference picture lists -/

/-- A list of the parameter set with an index of its own. -/
def parseOwnCandidate (sps : HeaderSPS) (X : RefPicList) (picList : PicList) :
    BitReader PicList :=
  if (sps.rplList X).length > 1 then do
    let uiCode ← xReadCode (ceilLog2 (sps.rplList X).length).toNat
    useCandidate sps X picList uiCode
  else useCandidate sps X picList 0

/-- A list in the header. -/
def parseHeaderList (sps : HeaderSPS) (picList : PicList) : BitReader PicList := do
  let list ← parseExplicitList sps.toRplSPS picList.list
  return { rplIdx := -1, list := list }

/-- A list with an index of its own. -/
def parseOwnList (sps : HeaderSPS) (pps : HeaderPPS) (X : RefPicList) (picList : PicList) :
    BitReader PicList := do
  let uiCode ← parseRefPicListSpsFlag sps.toRplSPS pps.toRplPPS X
  if uiCode = 0 then parseHeaderList sps picList
  else parseOwnCandidate sps X picList

/-- List 1 without an index of its own, which goes by list 0. -/
def parseCopiedList (sps : HeaderSPS) (list0 list1 : PicList) : BitReader PicList :=
  if list0.rplIdx ≠ -1 then useCandidate sps .REF_PIC_LIST_1 list1 list0.rplIdx
  else parseHeaderList sps list1

/-- List 0. -/
def parseList0 (sps : HeaderSPS) (pps : HeaderPPS) (list0 : PicList) : BitReader PicList := do
  let list0 ← parseOwnList sps pps .REF_PIC_LIST_0 list0
  let list ← parseLongTermEntries sps.toRplSPS .REF_PIC_LIST_0 list0.list
  return { list0 with list := list }

/-- List 1 by itself or by list 0. -/
def parseList1Choice (sps : HeaderSPS) (pps : HeaderPPS) (list0 list1 : PicList) :
    BitReader PicList :=
  if ¬ pps.rpl1IdxPresentFlag then parseCopiedList sps list0 list1
  else parseOwnList sps pps .REF_PIC_LIST_1 list1

/-- List 1. -/
def parseList1 (sps : HeaderSPS) (pps : HeaderPPS) (list0 list1 : PicList) : BitReader PicList := do
  let list1 ← parseList1Choice sps pps list0 list1
  let list ← parseLongTermEntries sps.toRplSPS .REF_PIC_LIST_1 list1.list
  return { list1 with list := list }

/-- Reference picture lists. -/
def parsePicLists (sps : HeaderSPS) (pps : HeaderPPS) (lists : PicLists) : BitReader PicLists := do
  let present ← xReadBool
  if present then
    let list0 ← parseList0 sps pps lists.list0
    let list1 ← parseList1 sps pps list0 lists.list1
    return { picRplPresentFlag := present, list0 := list0, list1 := list1 }
  else return { lists with picRplPresentFlag := present }

/-! ## Partitioning and quantization groups -/

/-- A difference to the minimum size, which the coding tree unit may limit. -/
def parseMaxSize (limit : Option Nat) (minQT : Nat) : BitReader Nat := do
  let uiCode ← xReadUvlc
  check (limit.any fun bound => uiCode > bound) "Invalid code"
  return (minQT <<< uiCode) % 2 ^ 32

/-- The maximum sizes of one kind of blocks, where its other sizes are known. -/
def parseMaxSizes (limit : Option Nat) (minQT maxBTD : Nat) : BitReader BlockSizes :=
  if maxBTD ≠ 0 then do
    let maxBTSize ← parseMaxSize limit minQT
    let maxTTSize ← parseMaxSize limit minQT
    return ⟨minQT, maxBTD, maxBTSize, maxTTSize⟩
  else return ⟨minQT, maxBTD, minQT, minQT⟩

/-- The logarithm of a minimum size. -/
def parseMinQtLog2Size (sps : HeaderSPS) : BitReader Nat := do
  let uiCode ← xReadUvlc
  return (uiCode + sps.log2MinCodingBlockSize) % 2 ^ 32

/-- `ctbLog2SizeY - minQtLog2Size`, as unsigned numbers. -/
def HeaderSPS.log2Limit (sps : HeaderSPS) (minQtLog2Size : Nat) : Nat :=
  word (floorLog2 sps.ctuSize - minQtLog2Size)

/-- The constraints of chroma in I slices. -/
def parseChromaSizes (sps : HeaderSPS) : BitReader BlockSizes :=
  if sps.useDualITree then do
    let minQtLog2Size ← parseMinQtLog2Size sps
    let maxBTD ← xReadUvlc
    parseMaxSizes none ((1 <<< minQtLog2Size) % 2 ^ 32) maxBTD
  else return .zero

/-- The constraints that override those of the sequence. -/
def parsePartitionSizes (sps : HeaderSPS) : BitReader PartitionSizes := do
  let minQtLog2SizeIntraY ← parseMinQtLog2Size sps
  let minQtLog2SizeInterY ← parseMinQtLog2Size sps
  let maxBTDInter ← xReadUvlc
  let maxBTDIntra ← xReadUvlc
  let intraLuma ← parseMaxSizes (some (sps.log2Limit minQtLog2SizeIntraY))
    ((1 <<< minQtLog2SizeIntraY) % 2 ^ 32) maxBTDIntra
  let inter ← parseMaxSizes (some (sps.log2Limit minQtLog2SizeInterY))
    ((1 <<< minQtLog2SizeInterY) % 2 ^ 32) maxBTDInter
  let intraChroma ← parseChromaSizes sps
  return { intraLuma, inter, intraChroma }

/-- Partitioning constraints. -/
def parsePartitionConstraints (sps : HeaderSPS) : BitReader PartitionConstraints := do
  let override ← readFlagOr sps.splitConsOverrideEnabledFlag false
  if override then
    let sizes ← parsePartitionSizes sps
    return { splitConsOverrideFlag := true, sizes := sizes }
  else return { splitConsOverrideFlag := false, sizes := sps.sizes }

/-- Quantization group depths. -/
def parseQpSubdiv (pps : HeaderPPS) : BitReader QpSubdiv := do
  let cuQpDeltaSubdivIntra ← readUvlcOr pps.useDQP
  let cuQpDeltaSubdivInter ← readUvlcOr pps.useDQP
  let cuChromaQpOffsetSubdivIntra ← readUvlcOr pps.cuChromaQpOffsetEnabledFlag
  let cuChromaQpOffsetSubdivInter ← readUvlcOr pps.cuChromaQpOffsetEnabledFlag
  return {
    cuQpDeltaSubdivIntra, cuQpDeltaSubdivInter
    cuChromaQpOffsetSubdivIntra, cuChromaQpOffsetSubdivInter }

/-! ## Inter prediction -/

/-- `pic_six_minus_max_num_merge_cand`. -/
def parseMaxNumMergeCand (pps : HeaderPPS) : BitReader Nat := do
  let uiCode ←
    if pps.ppsSixMinusMaxNumMergeCandPlus1 = 0 then xReadUvlc
    else pure (pps.ppsSixMinusMaxNumMergeCandPlus1 - 1)
  check (MRG_MAX_NUM_CANDS ≤ uiCode) "Incorrrect max number of merge candidates!"
  return MRG_MAX_NUM_CANDS - uiCode

/-- `pic_five_minus_max_num_subblock_merge_cand`. -/
def parseMaxNumAffineMergeCand (sps : HeaderSPS) (enableTMVPFlag : Bool) : BitReader Nat :=
  if sps.useAffine then do
    let uiCode ← xReadUvlc
    check (AFFINE_MRG_MAX_NUM_CANDS < uiCode) "Incorrrect max number of affine merge candidates!"
    return AFFINE_MRG_MAX_NUM_CANDS - uiCode
  else return (sps.sbtmvpEnabledFlag && enableTMVPFlag).toNat

/-- From `pic_temporal_mvp_enabled_flag` to `pic_disable_prof_flag`. -/
def parseInterTools (sps : HeaderSPS) (pps : HeaderPPS) : BitReader InterTools := do
  let enableTMVPFlag ← readFlagOr sps.spsTemporalMVPEnabledFlag false
  let mvdL1ZeroFlag ← readFlagOr (pps.ppsMvdL1ZeroIdc = 0) (pps.ppsMvdL1ZeroIdc - 1 ≠ 0)
  let maxNumMergeCand ← parseMaxNumMergeCand pps
  let maxNumAffineMergeCand ← parseMaxNumAffineMergeCand sps enableTMVPFlag
  let disFracMMVD ← readFlagOr sps.fpelMmvdEnabledFlag false
  let disBdofFlag ← readFlagOr sps.bdofControlPresentFlag false
  let disDmvrFlag ← readFlagOr sps.dmvrControlPresentFlag false
  let disProfFlag ← readFlagOr sps.profControlPresentFlag false
  return {
    enableTMVPFlag, mvdL1ZeroFlag, maxNumMergeCand, maxNumAffineMergeCand
    disFracMMVD, disBdofFlag, disDmvrFlag, disProfFlag }

/-- `pic_max_num_merge_cand_minus_max_num_triangle_cand`. -/
def parseMaxNumTriangleCand (sps : HeaderSPS) (pps : HeaderPPS) (maxNumMergeCand : Nat) :
    BitReader Nat :=
  if sps.useTriangle && maxNumMergeCand ≥ 2 then do
    let uiCode ←
      if pps.ppsMaxNumMergeCandMinusMaxNumTriangleCandPlus1 = 0 then xReadUvlc
      else pure (pps.ppsMaxNumMergeCandMinusMaxNumTriangleCandPlus1 - 1)
    check (maxNumMergeCand < uiCode) "Incorrrect max number of triangle candidates!"
    return maxNumMergeCand - uiCode
  else return 0

/-- `pic_six_minus_max_num_ibc_merge_cand`. -/
def parseMaxNumIBCMergeCand (sps : HeaderSPS) : BitReader Nat :=
  if sps.ibcFlag then do
    let uiCode ← xReadUvlc
    check (IBC_MRG_MAX_NUM_CANDS ≤ uiCode) "Incorrrect max number of IBC merge candidates!"
    return IBC_MRG_MAX_NUM_CANDS - uiCode
  else return 0

/-- From the triangle merge list to `pic_joint_cbcr_sign_flag`. -/
def parseToolLists (sps : HeaderSPS) (pps : HeaderPPS) (maxNumMergeCand : Nat) :
    BitReader ToolLists := do
  let maxNumTriangleCand ← parseMaxNumTriangleCand sps pps maxNumMergeCand
  let maxNumIBCMergeCand ← parseMaxNumIBCMergeCand sps
  let jointCbCrSignFlag ← readFlagOr sps.jointCbCrEnabledFlag false
  return { maxNumTriangleCand, maxNumIBCMergeCand, jointCbCrSignFlag }

/-! ## Loop filters -/

/-- Sample adaptive offset. -/
def parseSaoFlags (sps : HeaderSPS) (sao : SaoFlags) : BitReader SaoFlags :=
  if sps.saoEnabledFlag then do
    let present ← xReadBool
    if present then
      let luma ← xReadBool
      let chroma ← if sps.hasChroma then xReadBool else pure sao.saoEnabledFlagChroma
      return ⟨present, luma, chroma⟩
    else return ⟨present, true, sps.hasChroma⟩
  else return { sao with saoEnabledFlagLuma := false, saoEnabledFlagChroma := false }

/-- The luma parameter sets of the adaptive loop filter. -/
def parseAlfApsIds : BitReader (List Nat) := do
  let numAps ← xReadCode 3
  (List.range numAps).foldlM (fun apsId _ => do return apsId ++ [← xReadCode 3]) []

/-- `pic_alf_chroma_idc`. -/
def parseAlfChromaIdc (sps : HeaderSPS) : BitReader Nat :=
  if sps.hasChroma then xReadCode 2 else return 0

/-- `pic_alf_aps_id_chroma`. -/
def parseAlfChromaApsId (alfChromaIdc alfChromaApsId : Nat) : BitReader Nat :=
  if alfChromaIdc ≠ 0 then xReadCode 3 else return alfChromaApsId

/-- All components of the adaptive loop filter. -/
def parseAlfComponents (sps : HeaderSPS) (alf : AlfFlags) : BitReader AlfFlags := do
  let luma ← xReadBool
  if luma then
    let apsId ← parseAlfApsIds
    let alfChromaIdc ← parseAlfChromaIdc sps
    let alfChromaApsId ← parseAlfChromaApsId alfChromaIdc alf.alfChromaApsId
    return {
      alfEnabledPresentFlag := alf.alfEnabledPresentFlag
      alfEnabledFlagY := luma
      alfEnabledFlagCb := alfChromaIdc % 2 ≠ 0
      alfEnabledFlagCr := alfChromaIdc >>> 1 ≠ 0
      numAlfAps := apsId.length
      alfApsId := apsId
      alfChromaApsId := alfChromaApsId }
  else return { alf with
    alfEnabledFlagY := luma
    alfEnabledFlagCb := false
    alfEnabledFlagCr := false
    numAlfAps := 0 }

/-- Adaptive loop filter. -/
def parseAlfFlags (sps : HeaderSPS) (alf : AlfFlags) : BitReader AlfFlags :=
  if sps.alfEnabledFlag then do
    let present ← xReadBool
    let alf := { alf with alfEnabledPresentFlag := present }
    if present then parseAlfComponents sps alf
    else return alf.setAll true
  else return alf.setAll false

/-- Dependent quantization and sign data hiding. -/
def parseQuantTools (pps : HeaderPPS) : BitReader QuantTools := do
  let depQuantEnabledFlag ←
    readFlagOr (pps.ppsDepQuantEnabledIdc = 0) (pps.ppsDepQuantEnabledIdc - 1 ≠ 0)
  let signDataHidingEnabledFlag ← readFlagOr (!depQuantEnabledFlag) false
  return { depQuantEnabledFlag, signDataHidingEnabledFlag }

/-- `pic_deblocking_filter_override_present_flag` and `pic_deblocking_filter_override_flag`. -/
def parseDeblockingOverride (pps : HeaderPPS) (deblocking : Deblocking) : BitReader Deblocking := do
  let present ← readFlagOr pps.deblockingFilterOverrideEnabledFlag false
  let override ← readFlagOr present false
  return { deblocking with
    deblockingFilterOverridePresentFlag := present
    deblockingFilterOverrideFlag := override }

/-- The deblocking parameters of the header. The checks of the offsets ask for a number below
-6 and above 6. -/
def parseDeblockingParams (deblocking : Deblocking) : BitReader Deblocking := do
  let disable ← xReadBool
  if ¬ disable then
    let beta ← xReadSvlc
    check (beta < -6 ∧ beta > 6) "Invalid deblocking filter configuration"
    let tc ← xReadSvlc
    check (tc < -6 ∧ tc > 6) "Invalid deblocking filter configuration"
    return { deblocking with
      deblockingFilterDisable := disable
      deblockingFilterBetaOffsetDiv2 := beta
      deblockingFilterTcOffsetDiv2 := tc }
  else return { deblocking with deblockingFilterDisable := disable }

/-- Deblocking filter. -/
def parseDeblocking (pps : HeaderPPS) (deblocking : Deblocking) : BitReader Deblocking :=
  if pps.deblockingFilterControlPresentFlag then do
    let deblocking ← parseDeblockingOverride pps deblocking
    if deblocking.deblockingFilterOverrideFlag then parseDeblockingParams deblocking
    else return { deblocking with
      deblockingFilterDisable := pps.ppsDeblockingFilterDisabledFlag
      deblockingFilterBetaOffsetDiv2 := pps.deblockingFilterBetaOffsetDiv2
      deblockingFilterTcOffsetDiv2 := pps.deblockingFilterTcOffsetDiv2 }
  else return { deblocking with
    deblockingFilterDisable := false
    deblockingFilterBetaOffsetDiv2 := 0
    deblockingFilterTcOffsetDiv2 := 0 }

/-! ## Parameters from other parameter sets -/

/-- Luma mapping with chroma scaling. -/
def parseLmcs (sps : HeaderSPS) (lmcs : Lmcs) : BitReader Lmcs :=
  if sps.useReshaper then do
    let enabled ← xReadBool
    if enabled then
      let apsId ← xReadCode 2
      let scale ← readFlagOr sps.hasChroma false
      return ⟨enabled, apsId, scale⟩
    else return { lmcs with lmcsEnabledFlag := enabled }
  else return { lmcs with lmcsEnabledFlag := false, lmcsChromaResidualScaleFlag := false }

/-- Scaling lists. -/
def parseScalingLists (sps : HeaderSPS) (lists : ScalingLists) : BitReader ScalingLists := do
  let present ← readFlagOr sps.scalingListFlag false
  if present then
    let apsId ← xReadCode 3
    return ⟨present, apsId⟩
  else return { lists with scalingListPresentFlag := present }

/-- The extension, which is skipped. -/
def parseHeaderExtension (pps : HeaderPPS) : BitReader Unit :=
  if pps.pictureHeaderExtensionPresentFlag then do
    let uiCode ← xReadUvlc
    (List.range uiCode).foldlM (fun _ _ => do
      let _ ← xReadCode 8
      return ()) ()
  else return ()

/-! ## The header -/

/-- All syntax elements of the header. -/
def parsePicHeaderElements (sets : ParameterSets) (picHeader : PicHeader) :
    BitReader PicHeader := do
  let start ← parsePicStart
  let (sps, pps) ← lookupParameterSets sets start.ppsId
  let subPics ← parseSubPicIds sps pps picHeader.toSubPicIds
  let bounds ← parseVirtualBoundaries sps picHeader.toVirtualBoundaries
  let output ← parsePicOutput sps pps
  let lists ← parsePicLists sps pps picHeader.toPicLists
  let constraints ← parsePartitionConstraints sps
  let subdiv ← parseQpSubdiv pps
  let tools ← parseInterTools sps pps
  let toolLists ← parseToolLists sps pps tools.maxNumMergeCand
  let sao ← parseSaoFlags sps picHeader.toSaoFlags
  let alf ← parseAlfFlags sps picHeader.toAlfFlags
  let quant ← parseQuantTools pps
  let deblocking ← parseDeblocking pps picHeader.toDeblocking
  let lmcs ← parseLmcs sps picHeader.toLmcs
  let scalingLists ← parseScalingLists sps picHeader.toScalingLists
  parseHeaderExtension pps
  return ⟨start, subPics, bounds, output, lists, constraints, subdiv, tools, toolLists, sao, alf,
    quant, deblocking, lmcs, scalingLists⟩

def parsePictureHeader (sets : ParameterSets) (picHeader : PicHeader) : BitReader PicHeader := do
  let picHeader ← parsePicHeaderElements sets picHeader
  xReadRbspTrailingBits
  return picHeader

end Vtm.PicHeaders
