import Vtm.Std.Codec
import Vtm.Common.PPS
import Vtm.Common.RefPicListStruct

/-!
# Picture header

`PicHeader`, cut into the groups of fields that are coded together, and the fields of the
parameter sets that decide which of them are coded.
-/

namespace Vtm.PicHeaders

open Vtm.Std Vtm.RefPics

inductive ChromaFormat where
  | CHROMA_400
  | CHROMA_420
  | CHROMA_422
  | CHROMA_444
deriving DecidableEq, Repr

def MRG_MAX_NUM_CANDS : Nat := 6
def AFFINE_MRG_MAX_NUM_CANDS : Nat := 5
def IBC_MRG_MAX_NUM_CANDS : Nat := 6
def MAX_NUM_SUB_PICS : Nat := 255

/-! ## Groups of fields -/

/-- What identifies the picture and its parameter set. -/
structure PicStart where
  nonReferencePictureFlag : Bool
  gdrPicFlag : Bool
  noOutputOfPriorPicsFlag : Bool
  recoveryPocCnt : Nat
  ppsId : Nat

/-- `getRecoveryPocCnt`, which returns a `bool`. -/
def PicStart.getRecoveryPocCnt (start : PicStart) : Bool := start.recoveryPocCnt ≠ 0

/-- Sub-picture ids. -/
structure SubPicIds where
  subPicIdSignallingPresentFlag : Bool
  subPicIdLen : Nat
  subPicId : Nat → UInt8

/-- Virtual boundaries. -/
structure VirtualBoundaries where
  loopFilterAcrossVirtualBoundariesDisabledFlag : Bool
  numVerVirtualBoundaries : Nat
  numHorVirtualBoundaries : Nat
  virtualBoundariesPosX : Nat → Nat
  virtualBoundariesPosY : Nat → Nat

/-- Colour plane and output of the picture. -/
structure PicOutput where
  colourPlaneId : Nat
  picOutputFlag : Bool

/-- One of the two reference picture lists: `m_rpl0Idx` or `m_rpl1Idx`, -1 for a list of the
header, and the list itself. -/
structure PicList where
  rplIdx : Int
  list : SliceList

/-- Reference picture lists. -/
structure PicLists where
  picRplPresentFlag : Bool
  list0 : PicList
  list1 : PicList

/-- One of the three entries of `m_minQT`, `m_maxMTTHierarchyDepth`, `m_maxBTSize` and
`m_maxTTSize`. -/
structure BlockSizes where
  minQT : Nat
  maxMTTHierarchyDepth : Nat
  maxBTSize : Nat
  maxTTSize : Nat
deriving DecidableEq, Repr

/-- Partitioning constraints, for luma of I slices, for P and B slices, and for chroma of I
slices. -/
structure PartitionSizes where
  intraLuma : BlockSizes
  inter : BlockSizes
  intraChroma : BlockSizes
deriving DecidableEq, Repr

/-- Partitioning constraints and whether they override those of the sequence. -/
structure PartitionConstraints where
  splitConsOverrideFlag : Bool
  sizes : PartitionSizes

/-- Quantization group depths. -/
structure QpSubdiv where
  cuQpDeltaSubdivIntra : Nat
  cuQpDeltaSubdivInter : Nat
  cuChromaQpOffsetSubdivIntra : Nat
  cuChromaQpOffsetSubdivInter : Nat
deriving DecidableEq, Repr

/-- Motion vector prediction and the tools that a flag switches off. -/
structure InterTools where
  enableTMVPFlag : Bool
  mvdL1ZeroFlag : Bool
  maxNumMergeCand : Nat
  maxNumAffineMergeCand : Nat
  disFracMMVD : Bool
  disBdofFlag : Bool
  disDmvrFlag : Bool
  disProfFlag : Bool

/-- The merge lists of single tools, and the sign of joint chroma residuals. -/
structure ToolLists where
  maxNumTriangleCand : Nat
  maxNumIBCMergeCand : Nat
  jointCbCrSignFlag : Bool

/-- `m_saoEnabledPresentFlag` and `m_saoEnabledFlag`. -/
structure SaoFlags where
  saoEnabledPresentFlag : Bool
  saoEnabledFlagLuma : Bool
  saoEnabledFlagChroma : Bool

/-- Adaptive loop filter. -/
structure AlfFlags where
  alfEnabledPresentFlag : Bool
  alfEnabledFlagY : Bool
  alfEnabledFlagCb : Bool
  alfEnabledFlagCr : Bool
  numAlfAps : Nat
  alfApsId : List Nat
  alfChromaApsId : Nat

/-- Quantization tools. -/
structure QuantTools where
  depQuantEnabledFlag : Bool
  signDataHidingEnabledFlag : Bool

/-- Deblocking filter. -/
structure Deblocking where
  deblockingFilterOverridePresentFlag : Bool
  deblockingFilterOverrideFlag : Bool
  deblockingFilterDisable : Bool
  deblockingFilterBetaOffsetDiv2 : Int
  deblockingFilterTcOffsetDiv2 : Int

/-- Luma mapping with chroma scaling. -/
structure Lmcs where
  lmcsEnabledFlag : Bool
  lmcsApsId : Int
  lmcsChromaResidualScaleFlag : Bool

/-- Scaling lists. -/
structure ScalingLists where
  scalingListPresentFlag : Bool
  scalingListApsId : Int

structure PicHeader extends PicStart, SubPicIds, VirtualBoundaries, PicOutput, PicLists,
    PartitionConstraints, QpSubdiv, InterTools, ToolLists, SaoFlags, AlfFlags, QuantTools,
    Deblocking, Lmcs, ScalingLists

/-! ## `initPicHeader` -/

/-- A local list keeps its entries; its numbers are reset. -/
def PicList.init (list : PicList) : PicList where
  rplIdx := 0
  list := { list.list with
    localRPL := { list.list.localRPL with
      numberOfShorttermPictures := 0
      numberOfLongtermPictures := 0
      ltrpInSliceHeaderFlag := false } }

def BlockSizes.zero : BlockSizes := ⟨0, 0, 0, 0⟩

/-- `initPicHeader`. The null pointers to the lists are left out: nothing is read through
them. -/
def PicHeader.initPicHeader (old : PicHeader) : PicHeader where
  nonReferencePictureFlag := false
  gdrPicFlag := false
  noOutputOfPriorPicsFlag := false
  recoveryPocCnt := 0
  -- the id -1 is never looked up
  ppsId := 2 ^ 32 - 1
  subPicIdSignallingPresentFlag := false
  subPicIdLen := 0
  subPicId := fun _ => 0
  loopFilterAcrossVirtualBoundariesDisabledFlag := false
  numVerVirtualBoundaries := 0
  numHorVirtualBoundaries := 0
  virtualBoundariesPosX := fun _ => 0
  virtualBoundariesPosY := fun _ => 0
  colourPlaneId := 0
  picOutputFlag := true
  picRplPresentFlag := false
  list0 := old.list0.init
  list1 := old.list1.init
  splitConsOverrideFlag := false
  sizes := ⟨.zero, .zero, .zero⟩
  cuQpDeltaSubdivIntra := 0
  cuQpDeltaSubdivInter := 0
  cuChromaQpOffsetSubdivIntra := 0
  cuChromaQpOffsetSubdivInter := 0
  enableTMVPFlag := true
  mvdL1ZeroFlag := false
  maxNumMergeCand := MRG_MAX_NUM_CANDS
  maxNumAffineMergeCand := AFFINE_MRG_MAX_NUM_CANDS
  disFracMMVD := false
  disBdofFlag := false
  disDmvrFlag := false
  disProfFlag := false
  maxNumTriangleCand := 0
  maxNumIBCMergeCand := IBC_MRG_MAX_NUM_CANDS
  jointCbCrSignFlag := false
  saoEnabledPresentFlag := false
  saoEnabledFlagLuma := false
  saoEnabledFlagChroma := false
  alfEnabledPresentFlag := false
  alfEnabledFlagY := false
  alfEnabledFlagCb := false
  alfEnabledFlagCr := false
  numAlfAps := 0
  alfApsId := []
  alfChromaApsId := 0
  depQuantEnabledFlag := false
  signDataHidingEnabledFlag := false
  deblockingFilterOverridePresentFlag := false
  deblockingFilterOverrideFlag := false
  deblockingFilterDisable := false
  deblockingFilterBetaOffsetDiv2 := 0
  deblockingFilterTcOffsetDiv2 := 0
  lmcsEnabledFlag := false
  lmcsApsId := -1
  lmcsChromaResidualScaleFlag := false
  scalingListPresentFlag := false
  scalingListApsId := -1

/-! ## Parameter sets -/

/-- `SPS`, as far as the picture header uses it. -/
structure HeaderSPS extends RplSPS where
  subPicIdPresentFlag : Bool
  subPicIdSignallingPresentFlag : Bool
  numSubPics : Nat
  subPicId : Nat → UInt8
  loopFilterAcrossVirtualBoundariesDisabledFlag : Bool
  numVerVirtualBoundaries : Nat
  numHorVirtualBoundaries : Nat
  virtualBoundariesPosX : Nat → Nat
  virtualBoundariesPosY : Nat → Nat
  separateColourPlaneFlag : Bool
  splitConsOverrideEnabledFlag : Bool
  log2MinCodingBlockSize : Nat
  ctuSize : Nat
  useDualITree : Bool
  sizes : PartitionSizes
  spsTemporalMVPEnabledFlag : Bool
  useAffine : Bool
  sbtmvpEnabledFlag : Bool
  fpelMmvdEnabledFlag : Bool
  bdofControlPresentFlag : Bool
  dmvrControlPresentFlag : Bool
  profControlPresentFlag : Bool
  useTriangle : Bool
  ibcFlag : Bool
  jointCbCrEnabledFlag : Bool
  saoEnabledFlag : Bool
  chromaFormatIdc : ChromaFormat
  alfEnabledFlag : Bool
  useReshaper : Bool
  scalingListFlag : Bool

/-- `PPS`, as far as the picture header uses it. -/
structure HeaderPPS extends RplPPS where
  spsId : Nat
  numSubPics : Nat
  subPicId : Nat → UInt8
  outputFlagPresentFlag : Bool
  useDQP : Bool
  cuChromaQpOffsetEnabledFlag : Bool
  ppsMvdL1ZeroIdc : Nat
  ppsSixMinusMaxNumMergeCandPlus1 : Nat
  ppsMaxNumMergeCandMinusMaxNumTriangleCandPlus1 : Nat
  ppsDepQuantEnabledIdc : Nat
  deblockingFilterControlPresentFlag : Bool
  deblockingFilterOverrideEnabledFlag : Bool
  ppsDeblockingFilterDisabledFlag : Bool
  deblockingFilterBetaOffsetDiv2 : Int
  deblockingFilterTcOffsetDiv2 : Int
  pictureHeaderExtensionPresentFlag : Bool

/-- `ParameterSetManager`, as far as the picture header uses it. -/
structure ParameterSets where
  getPPS : Nat → Option HeaderPPS
  getSPS : Nat → Option HeaderSPS

/-- Whether there are chroma planes. -/
def HeaderSPS.hasChroma (sps : HeaderSPS) : Bool := sps.chromaFormatIdc ≠ .CHROMA_400

/-! ## Setters -/

/-- A loop over `setSubPicId`. -/
def setSubPicIds {σ : Type} (count : Nat) (id : Nat → UInt8) (subPics : SubPicIds) :
    StateT σ Checked SubPicIds :=
  (List.range count).foldlM (fun subPics picIdx => do
    check (picIdx ≥ MAX_NUM_SUB_PICS) "Sub-pic index exceeds valid range"
    return { subPics with subPicId := Function.update subPics.subPicId picIdx (id picIdx) }) subPics

/-- The virtual boundaries of the sequence. -/
def HeaderSPS.boundaries (sps : HeaderSPS) (bounds : VirtualBoundaries) : VirtualBoundaries where
  loopFilterAcrossVirtualBoundariesDisabledFlag :=
    sps.loopFilterAcrossVirtualBoundariesDisabledFlag
  numVerVirtualBoundaries := sps.numVerVirtualBoundaries
  numHorVirtualBoundaries := sps.numHorVirtualBoundaries
  virtualBoundariesPosX := fun i =>
    if i < 3 then sps.virtualBoundariesPosX i else bounds.virtualBoundariesPosX i
  virtualBoundariesPosY := fun i =>
    if i < 3 then sps.virtualBoundariesPosY i else bounds.virtualBoundariesPosY i

/-- `setRPL` with a candidate of the parameter set. -/
def useCandidate {σ : Type} (sps : HeaderSPS) (X : RefPicList) (picList : PicList) (rplIdx : Int) :
    StateT σ Checked PicList := do
  check (rplIdx < 0 ∨ rplIdx > (sps.rplList X).length) "getReferencePictureList outside the vector"
  return { rplIdx := rplIdx, list := { picList.list with rpl := .candidate rplIdx.toNat } }

/-- The same enable flag for all components. -/
def AlfFlags.setAll (alf : AlfFlags) (flag : Bool) : AlfFlags :=
  { alf with alfEnabledFlagY := flag, alfEnabledFlagCb := flag, alfEnabledFlagCr := flag }

end Vtm.PicHeaders
