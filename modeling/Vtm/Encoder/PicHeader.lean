import Vtm.Common.PicHeader
import Vtm.Encoder.RefPicListStruct

/-!
# Writing the picture header

`codePictureHeader`. The writer also sets the fields that it does not write to the values
that it infers for them, so each part returns its group of fields.
-/

namespace Vtm.PicHeaders

open Vtm.Std Vtm.VLCWriter Vtm.RefPics

/-! ## Elements with an inferred value -/

/-- A flag that is written when `present` and set to `inferred` otherwise. -/
def writeFlagOr (present flag inferred : Bool) : BitWriter Bool :=
  if present then do
    xWriteBool flag
    return flag
  else return inferred

/-- A number that is written when `present` and set to zero otherwise. -/
def writeUvlcOr (present : Bool) (value : Nat) : BitWriter Nat :=
  if present then do
    xWriteUvlc value
    return value
  else return 0

/-! ## Start of the header -/

/-- From `non_reference_picture_flag` to the parameter set. -/
def codePicStart (start : PicStart) : BitWriter PicStart := do
  xWriteBool start.nonReferencePictureFlag
  xWriteBool start.gdrPicFlag
  xWriteBool start.noOutputOfPriorPicsFlag
  let written ← writeUvlcOr start.gdrPicFlag start.getRecoveryPocCnt.toNat
  xWriteUvlc start.ppsId
  return { start with recoveryPocCnt := if start.gdrPicFlag then start.recoveryPocCnt else written }

/-- The sub-picture ids that are written in the header. -/
def codeOwnSubPicIds (sps : HeaderSPS) (subPics : SubPicIds) : BitWriter Unit := do
  xWriteUvlc (word ((subPics.subPicIdLen : Int) - 1))
  (List.range sps.numSubPics).foldlM (fun _ picIdx => do
    check (picIdx ≥ MAX_NUM_SUB_PICS) "Sub-pic index exceeds valid range"
    xWriteCode (subPics.subPicId picIdx).toNat subPics.subPicIdLen) ()

/-- Sub-picture ids. -/
def codeSubPicIds (sps : HeaderSPS) (pps : HeaderPPS) (subPics : SubPicIds) :
    BitWriter SubPicIds :=
  if sps.subPicIdPresentFlag then
    if sps.subPicIdSignallingPresentFlag then setSubPicIds sps.numSubPics sps.subPicId subPics
    else do
      xWriteBool subPics.subPicIdSignallingPresentFlag
      if subPics.subPicIdSignallingPresentFlag then
        codeOwnSubPicIds sps subPics
        return subPics
      else setSubPicIds pps.numSubPics pps.subPicId subPics
  else setSubPicIds sps.numSubPics (fun picIdx => UInt8.ofNat picIdx) subPics

/-- The positions of the virtual boundaries in one direction. -/
def codeBoundaries (num : Nat) (pos : Nat → Nat) : BitWriter Unit := do
  xWriteCode num 2
  (List.range num).foldlM (fun _ i => do
    check (i ≥ 3) "boundary index exceeds valid range"
    xWriteCode (pos i >>> 3) 13) ()

/-- Virtual boundaries. -/
def codeVirtualBoundaries (sps : HeaderSPS) (bounds : VirtualBoundaries) :
    BitWriter VirtualBoundaries :=
  if ¬ sps.loopFilterAcrossVirtualBoundariesDisabledFlag then do
    xWriteBool bounds.loopFilterAcrossVirtualBoundariesDisabledFlag
    if bounds.loopFilterAcrossVirtualBoundariesDisabledFlag then
      codeBoundaries bounds.numVerVirtualBoundaries bounds.virtualBoundariesPosX
      codeBoundaries bounds.numHorVirtualBoundaries bounds.virtualBoundariesPosY
      return bounds
    else return { bounds with
      loopFilterAcrossVirtualBoundariesDisabledFlag := false
      numVerVirtualBoundaries := 0
      numHorVirtualBoundaries := 0 }
  else return sps.boundaries bounds

/-- Colour plane and output flag. -/
def codePicOutput (sps : HeaderSPS) (pps : HeaderPPS) (output : PicOutput) :
    BitWriter PicOutput := do
  if sps.separateColourPlaneFlag then xWriteCode output.colourPlaneId 2
  let picOutputFlag ← writeFlagOr pps.outputFlagPresentFlag output.picOutputFlag true
  return {
    colourPlaneId := if sps.separateColourPlaneFlag then output.colourPlaneId else 0
    picOutputFlag := picOutputFlag }

/-! ## Reference picture lists -/

/-- `pic_rpl_sps_flag` of a list with an index of its own; returns the index that is used. -/
@[grind =] def codeRplSpsFlag (sps : HeaderSPS) (pps : HeaderPPS) (X : RefPicList) (rplIdx : Int) :
    BitWriter Int :=
  if (sps.rplList X).length > 0 then
    if pps.ppsRefPicListSPSIdc X = 0 then do
      xWriteBool (rplIdx ≠ -1)
      return rplIdx
    else if pps.ppsRefPicListSPSIdc X = 1 then return -1
    else return rplIdx
  else return -1

/-- A list of the parameter set with an index of its own. -/
def codeCandidateIdx (sps : HeaderSPS) (X : RefPicList) (picList : PicList) (rplIdx : Int) :
    BitWriter PicList :=
  if (sps.rplList X).length > 1 then do
    xWriteCode (word rplIdx) (ceilLog2 (sps.rplList X).length).toNat
    useCandidate sps X picList rplIdx
  else useCandidate sps X picList 0

/-- A list in the header. -/
def codeExplicitList (sps : HeaderSPS) (X : RefPicList) (picList : PicList) :
    BitWriter PicList := do
  xCodeRefPicList (picList.list.getRPL sps.toRplSPS X) sps.longTermRefsPresent sps.bitsForPOC
    (!sps.useWP && !sps.useWPBiPred)
  return { picList with rplIdx := -1 }

/-- The LSBs of long-term entry `i`. -/
def codePicPocLsb (sps : HeaderSPS) (rpl : RefPicListStruct) (i : Nat) : BitWriter Unit :=
  if rpl.ltrpInSliceHeaderFlag then xWriteCode (word (rpl.refPicIdentifier i)) sps.bitsForPOC
  else return ()

/-- The LSBs and MSBs of long-term entry `i`. -/
def codeLongTermEntry (sps : HeaderSPS) (X : RefPicList) (list : SliceList) (i : Nat) :
    BitWriter Unit := do
  let rpl := list.getRPL sps.toRplSPS X
  if rpl.isRefPicLongterm i then
    codePicPocLsb sps rpl i
    xWriteBool (list.localRPL.deltaPocMSBPresentFlag i)
    if list.localRPL.deltaPocMSBPresentFlag i then
      xWriteUvlc (word (list.localRPL.deltaPocMSBCycleLT i))

/-- What follows a list: the LSBs and MSBs of its long-term entries. -/
def codeLongTermEntries (sps : HeaderSPS) (X : RefPicList) (list : SliceList) : BitWriter Unit :=
  let rpl := list.getRPL sps.toRplSPS X
  if rpl.numberOfLongtermPictures ≠ 0 then
    (List.range (rpl.numberOfLongtermPictures + rpl.numberOfShorttermPictures)).foldlM
      (fun _ i => codeLongTermEntry sps X list i) ()
  else return ()

/-- A list with an index of its own. -/
@[grind =] def codeOwnList (sps : HeaderSPS) (pps : HeaderPPS) (X : RefPicList) (picList : PicList) :
    BitWriter PicList := do
  let rplIdx ← codeRplSpsFlag sps pps X picList.rplIdx
  if rplIdx ≠ -1 then codeCandidateIdx sps X picList rplIdx
  else codeExplicitList sps X picList

/-- List 1 without an index of its own, which goes by list 0. -/
def codeCopiedList (sps : HeaderSPS) (list0 list1 : PicList) : BitWriter PicList :=
  if list0.rplIdx ≠ -1 then useCandidate sps .REF_PIC_LIST_1 list1 list0.rplIdx
  else codeExplicitList sps .REF_PIC_LIST_1 list1

/-- List 0. -/
def codeList0 (sps : HeaderSPS) (pps : HeaderPPS) (list0 : PicList) : BitWriter PicList := do
  let list0 ← codeOwnList sps pps .REF_PIC_LIST_0 list0
  codeLongTermEntries sps .REF_PIC_LIST_0 list0.list
  return list0

/-- List 1 by itself or by list 0. -/
@[grind =] def codeList1Choice (sps : HeaderSPS) (pps : HeaderPPS) (list0 list1 : PicList) :
    BitWriter PicList :=
  if ¬ pps.rpl1IdxPresentFlag then codeCopiedList sps list0 list1
  else codeOwnList sps pps .REF_PIC_LIST_1 list1

/-- List 1. -/
def codeList1 (sps : HeaderSPS) (pps : HeaderPPS) (list0 list1 : PicList) : BitWriter PicList := do
  let list1 ← codeList1Choice sps pps list0 list1
  codeLongTermEntries sps .REF_PIC_LIST_1 list1.list
  return list1

/-- Reference picture lists. -/
@[grind =] def codePicLists (sps : HeaderSPS) (pps : HeaderPPS) (lists : PicLists) : BitWriter PicLists := do
  xWriteBool lists.picRplPresentFlag
  if lists.picRplPresentFlag then
    let list0 ← codeList0 sps pps lists.list0
    let list1 ← codeList1 sps pps list0 lists.list1
    return { lists with list0 := list0, list1 := list1 }
  else return lists

/-! ## Partitioning and quantization groups -/

/-- The maximum sizes of one kind of blocks. -/
def codeMaxSizes (sizes : BlockSizes) : BitWriter Unit := do
  if sizes.maxMTTHierarchyDepth ≠ 0 then
    xWriteUvlc (word (floorLog2 sizes.maxBTSize - floorLog2 sizes.minQT))
    xWriteUvlc (word (floorLog2 sizes.maxTTSize - floorLog2 sizes.minQT))

/-- The minimum size of one kind of blocks. -/
def codeMinQT (sps : HeaderSPS) (sizes : BlockSizes) : BitWriter Unit :=
  xWriteUvlc (word (floorLog2 sizes.minQT - sps.log2MinCodingBlockSize))

/-- The constraints of chroma in I slices. -/
def codeChromaSizes (sps : HeaderSPS) (sizes : BlockSizes) : BitWriter Unit := do
  if sps.useDualITree then
    codeMinQT sps sizes
    xWriteUvlc sizes.maxMTTHierarchyDepth
    codeMaxSizes sizes

/-- The constraints that override those of the sequence. -/
def codePartitionSizes (sps : HeaderSPS) (sizes : PartitionSizes) : BitWriter Unit := do
  codeMinQT sps sizes.intraLuma
  codeMinQT sps sizes.inter
  xWriteUvlc sizes.inter.maxMTTHierarchyDepth
  xWriteUvlc sizes.intraLuma.maxMTTHierarchyDepth
  codeMaxSizes sizes.intraLuma
  codeMaxSizes sizes.inter
  codeChromaSizes sps sizes.intraChroma

/-- Partitioning constraints. -/
def codePartitionConstraints (sps : HeaderSPS) (constraints : PartitionConstraints) :
    BitWriter PartitionConstraints := do
  let override ← writeFlagOr sps.splitConsOverrideEnabledFlag constraints.splitConsOverrideFlag false
  if override then
    codePartitionSizes sps constraints.sizes
    return { splitConsOverrideFlag := true, sizes := constraints.sizes }
  else return { splitConsOverrideFlag := false, sizes := sps.sizes }

/-- Quantization group depths. -/
def codeQpSubdiv (pps : HeaderPPS) (subdiv : QpSubdiv) : BitWriter QpSubdiv := do
  let cuQpDeltaSubdivIntra ← writeUvlcOr pps.useDQP subdiv.cuQpDeltaSubdivIntra
  let cuQpDeltaSubdivInter ← writeUvlcOr pps.useDQP subdiv.cuQpDeltaSubdivInter
  let cuChromaQpOffsetSubdivIntra ←
    writeUvlcOr pps.cuChromaQpOffsetEnabledFlag subdiv.cuChromaQpOffsetSubdivIntra
  let cuChromaQpOffsetSubdivInter ←
    writeUvlcOr pps.cuChromaQpOffsetEnabledFlag subdiv.cuChromaQpOffsetSubdivInter
  return {
    cuQpDeltaSubdivIntra, cuQpDeltaSubdivInter
    cuChromaQpOffsetSubdivIntra, cuChromaQpOffsetSubdivInter }

/-! ## Inter prediction -/

/-- `pic_six_minus_max_num_merge_cand`. -/
def codeMaxNumMergeCand (pps : HeaderPPS) (maxNumMergeCand : Nat) : BitWriter Nat :=
  if pps.ppsSixMinusMaxNumMergeCandPlus1 = 0 then do
    check (maxNumMergeCand > MRG_MAX_NUM_CANDS) "More merge candidates signalled than supported"
    xWriteUvlc (MRG_MAX_NUM_CANDS - maxNumMergeCand)
    return maxNumMergeCand
  else return word (MRG_MAX_NUM_CANDS - ((pps.ppsSixMinusMaxNumMergeCandPlus1 : Int) - 1))

/-- `pic_five_minus_max_num_subblock_merge_cand`. -/
def codeMaxNumAffineMergeCand (sps : HeaderSPS) (enableTMVPFlag : Bool)
    (maxNumAffineMergeCand : Nat) : BitWriter Nat :=
  if sps.useAffine then do
    check (maxNumAffineMergeCand > AFFINE_MRG_MAX_NUM_CANDS)
      "More affine merge candidates signalled than supported"
    xWriteUvlc (AFFINE_MRG_MAX_NUM_CANDS - maxNumAffineMergeCand)
    return maxNumAffineMergeCand
  else return (sps.sbtmvpEnabledFlag && enableTMVPFlag).toNat

/-- From `pic_temporal_mvp_enabled_flag` to `pic_disable_prof_flag`. -/
def codeInterTools (sps : HeaderSPS) (pps : HeaderPPS) (tools : InterTools) :
    BitWriter InterTools := do
  let enableTMVPFlag ← writeFlagOr sps.spsTemporalMVPEnabledFlag tools.enableTMVPFlag false
  let mvdL1ZeroFlag ←
    writeFlagOr (pps.ppsMvdL1ZeroIdc = 0) tools.mvdL1ZeroFlag (pps.ppsMvdL1ZeroIdc - 1 ≠ 0)
  let maxNumMergeCand ← codeMaxNumMergeCand pps tools.maxNumMergeCand
  let maxNumAffineMergeCand ←
    codeMaxNumAffineMergeCand sps enableTMVPFlag tools.maxNumAffineMergeCand
  let disFracMMVD ← writeFlagOr sps.fpelMmvdEnabledFlag tools.disFracMMVD false
  let disBdofFlag ← writeFlagOr sps.bdofControlPresentFlag tools.disBdofFlag false
  let disDmvrFlag ← writeFlagOr sps.dmvrControlPresentFlag tools.disDmvrFlag false
  let disProfFlag ← writeFlagOr sps.profControlPresentFlag tools.disProfFlag false
  return {
    enableTMVPFlag, mvdL1ZeroFlag, maxNumMergeCand, maxNumAffineMergeCand
    disFracMMVD, disBdofFlag, disDmvrFlag, disProfFlag }

/-- `pic_max_num_merge_cand_minus_max_num_triangle_cand`. -/
def codeMaxNumTriangleCand (sps : HeaderSPS) (pps : HeaderPPS)
    (maxNumMergeCand maxNumTriangleCand : Nat) : BitWriter Nat :=
  if sps.useTriangle && maxNumMergeCand ≥ 2 then
    if pps.ppsMaxNumMergeCandMinusMaxNumTriangleCandPlus1 = 0 then do
      check (maxNumMergeCand < maxNumTriangleCand) "Incorrrect max number of triangle candidates!"
      xWriteUvlc (maxNumMergeCand - maxNumTriangleCand)
      return maxNumTriangleCand
    else return word (maxNumMergeCand -
      ((pps.ppsMaxNumMergeCandMinusMaxNumTriangleCandPlus1 : Int) - 1))
  else return maxNumTriangleCand

/-- `pic_six_minus_max_num_ibc_merge_cand`. -/
def codeMaxNumIBCMergeCand (sps : HeaderSPS) (maxNumIBCMergeCand : Nat) : BitWriter Unit := do
  if sps.ibcFlag then
    check (maxNumIBCMergeCand > IBC_MRG_MAX_NUM_CANDS)
      "More IBC merge candidates signalled than supported"
    xWriteUvlc (IBC_MRG_MAX_NUM_CANDS - maxNumIBCMergeCand)

/-- From the triangle merge list to `pic_joint_cbcr_sign_flag`. -/
def codeToolLists (sps : HeaderSPS) (pps : HeaderPPS) (maxNumMergeCand : Nat) (lists : ToolLists) :
    BitWriter ToolLists := do
  let maxNumTriangleCand ← codeMaxNumTriangleCand sps pps maxNumMergeCand lists.maxNumTriangleCand
  codeMaxNumIBCMergeCand sps lists.maxNumIBCMergeCand
  let jointCbCrSignFlag ← writeFlagOr sps.jointCbCrEnabledFlag lists.jointCbCrSignFlag false
  return {
    maxNumTriangleCand := maxNumTriangleCand
    maxNumIBCMergeCand := lists.maxNumIBCMergeCand
    jointCbCrSignFlag := jointCbCrSignFlag }

/-! ## Loop filters -/

/-- Sample adaptive offset. -/
def codeSaoFlags (sps : HeaderSPS) (sao : SaoFlags) : BitWriter SaoFlags :=
  if sps.saoEnabledFlag then do
    xWriteBool sao.saoEnabledPresentFlag
    if sao.saoEnabledPresentFlag then
      xWriteBool sao.saoEnabledFlagLuma
      if sps.hasChroma then xWriteBool sao.saoEnabledFlagChroma
      return sao
    else return { sao with saoEnabledFlagLuma := true, saoEnabledFlagChroma := true }
  else return { sao with saoEnabledFlagLuma := false, saoEnabledFlagChroma := false }

/-- The luma parameter sets of the adaptive loop filter. -/
def codeAlfApsIds (alf : AlfFlags) : BitWriter Unit := do
  xWriteCode alf.numAlfAps 3
  (List.range alf.numAlfAps).foldlM (fun _ i => xWriteCode (alf.alfApsId.getD i 0) 3) ()

/-- The chroma part of the adaptive loop filter. -/
def codeAlfChroma (sps : HeaderSPS) (alf : AlfFlags) : BitWriter Unit := do
  let alfChromaIdc := alf.alfEnabledFlagCb.toNat + alf.alfEnabledFlagCr.toNat * 2
  if sps.hasChroma then xWriteCode alfChromaIdc 2
  if alfChromaIdc ≠ 0 then xWriteCode alf.alfChromaApsId 3

/-- All components of the adaptive loop filter. -/
def codeAlfComponents (sps : HeaderSPS) (alf : AlfFlags) : BitWriter Unit := do
  xWriteBool alf.alfEnabledFlagY
  if alf.alfEnabledFlagY then
    codeAlfApsIds alf
    codeAlfChroma sps alf

/-- Adaptive loop filter. -/
def codeAlfFlags (sps : HeaderSPS) (alf : AlfFlags) : BitWriter AlfFlags :=
  if sps.alfEnabledFlag then do
    xWriteBool alf.alfEnabledPresentFlag
    if alf.alfEnabledPresentFlag then
      codeAlfComponents sps alf
      return alf
    else return alf.setAll true
  else return alf.setAll false

/-- Dependent quantization and sign data hiding. -/
def codeQuantTools (pps : HeaderPPS) (tools : QuantTools) : BitWriter QuantTools := do
  let depQuantEnabledFlag ← writeFlagOr (pps.ppsDepQuantEnabledIdc = 0) tools.depQuantEnabledFlag
    (pps.ppsDepQuantEnabledIdc - 1 ≠ 0)
  let signDataHidingEnabledFlag ←
    writeFlagOr (!depQuantEnabledFlag) tools.signDataHidingEnabledFlag false
  return { depQuantEnabledFlag, signDataHidingEnabledFlag }

/-- `pic_deblocking_filter_override_present_flag` and `pic_deblocking_filter_override_flag`. -/
def codeDeblockingOverride (pps : HeaderPPS) (deblocking : Deblocking) : BitWriter Deblocking := do
  let present ← writeFlagOr pps.deblockingFilterOverrideEnabledFlag
    deblocking.deblockingFilterOverridePresentFlag false
  let override ← writeFlagOr present deblocking.deblockingFilterOverrideFlag false
  return { deblocking with
    deblockingFilterOverridePresentFlag := present
    deblockingFilterOverrideFlag := override }

/-- The deblocking parameters of the header. -/
def codeDeblockingParams (deblocking : Deblocking) : BitWriter Unit := do
  xWriteBool deblocking.deblockingFilterDisable
  if ¬ deblocking.deblockingFilterDisable then
    xWriteSvlc deblocking.deblockingFilterBetaOffsetDiv2
    xWriteSvlc deblocking.deblockingFilterTcOffsetDiv2

/-- Deblocking filter. -/
def codeDeblocking (pps : HeaderPPS) (deblocking : Deblocking) : BitWriter Deblocking :=
  if pps.deblockingFilterControlPresentFlag then do
    let deblocking ← codeDeblockingOverride pps deblocking
    if deblocking.deblockingFilterOverrideFlag then
      codeDeblockingParams deblocking
      return deblocking
    else return { deblocking with
      deblockingFilterDisable := pps.ppsDeblockingFilterDisabledFlag
      deblockingFilterBetaOffsetDiv2 := pps.deblockingFilterBetaOffsetDiv2
      deblockingFilterTcOffsetDiv2 := pps.deblockingFilterTcOffsetDiv2 }
  else return { deblocking with
    deblockingFilterDisable := false
    deblockingFilterBetaOffsetDiv2 := 0
    deblockingFilterTcOffsetDiv2 := 0 }

/-! ## Parameters from other parameter sets -/

/-- Luma mapping with chroma scaling. -/
def codeLmcs (sps : HeaderSPS) (lmcs : Lmcs) : BitWriter Lmcs :=
  if sps.useReshaper then do
    xWriteBool lmcs.lmcsEnabledFlag
    if lmcs.lmcsEnabledFlag then
      xWriteCode (word lmcs.lmcsApsId) 2
      let scale ← writeFlagOr sps.hasChroma lmcs.lmcsChromaResidualScaleFlag false
      return { lmcs with lmcsChromaResidualScaleFlag := scale }
    else return lmcs
  else return { lmcs with lmcsEnabledFlag := false, lmcsChromaResidualScaleFlag := false }

/-- Scaling lists. -/
def codeScalingLists (sps : HeaderSPS) (lists : ScalingLists) : BitWriter ScalingLists := do
  let present ← writeFlagOr sps.scalingListFlag lists.scalingListPresentFlag false
  if present then xWriteCode (word lists.scalingListApsId) 3
  return { lists with scalingListPresentFlag := present }

/-- The extension, which is empty. -/
def codeHeaderExtension (pps : HeaderPPS) : BitWriter Unit := do
  if pps.pictureHeaderExtensionPresentFlag then xWriteUvlc 0

/-! ## The header -/

/-- All syntax elements of the header. -/
def codePicHeaderElements (sps : HeaderSPS) (pps : HeaderPPS) (picHeader : PicHeader) :
    BitWriter PicHeader := do
  let start ← codePicStart picHeader.toPicStart
  let subPics ← codeSubPicIds sps pps picHeader.toSubPicIds
  let bounds ← codeVirtualBoundaries sps picHeader.toVirtualBoundaries
  let output ← codePicOutput sps pps picHeader.toPicOutput
  let lists ← codePicLists sps pps picHeader.toPicLists
  let constraints ← codePartitionConstraints sps picHeader.toPartitionConstraints
  let subdiv ← codeQpSubdiv pps picHeader.toQpSubdiv
  let tools ← codeInterTools sps pps picHeader.toInterTools
  let toolLists ← codeToolLists sps pps tools.maxNumMergeCand picHeader.toToolLists
  let sao ← codeSaoFlags sps picHeader.toSaoFlags
  let alf ← codeAlfFlags sps picHeader.toAlfFlags
  let quant ← codeQuantTools pps picHeader.toQuantTools
  let deblocking ← codeDeblocking pps picHeader.toDeblocking
  let lmcs ← codeLmcs sps picHeader.toLmcs
  let scalingLists ← codeScalingLists sps picHeader.toScalingLists
  codeHeaderExtension pps
  return ⟨start, subPics, bounds, output, lists, constraints, subdiv, tools, toolLists, sao, alf,
    quant, deblocking, lmcs, scalingLists⟩

def codePictureHeader (sps : HeaderSPS) (pps : HeaderPPS) (picHeader : PicHeader) :
    BitWriter PicHeader := do
  let picHeader ← codePicHeaderElements sps pps picHeader
  xWriteRbspTrailingBits
  return picHeader

end Vtm.PicHeaders
