import Vtm.Common.CtuFilters
import Vtm.Decoder.Symbols

/-!
# SAO and ALF parameters of a coding tree unit: reading

`CABACReader::coding_tree_unit` in front of the coding tree. The reader changes the entries of one
unit in the picture.
-/

namespace Vtm.CABACReader

open Vtm.Std CtuFilters
open Function (update)

/-- `sao_merge_left_flag` on `sao_merge_type`. -/
def readSaoMergeLeft (leftAvail : Bool) : BinReader Int :=
  if leftAvail then do
    let flag ← decodeBin ⟨.SaoMergeFlag, 0⟩
    return -1 + flag.toNat
  else pure (-1)

/-- `sao_merge_above_flag` on `sao_merge_type`. -/
def readSaoMergeAbove (aboveAvail : Bool) (sao_merge_type : Int) : BinReader Int :=
  if sao_merge_type < 0 ∧ aboveAvail then do
    let flag ← decodeBin ⟨.SaoMergeFlag, 0⟩
    return sao_merge_type + ((flag.toNat <<< 1 : Nat) : Int)
  else pure sao_merge_type

/-- Set the parameters of a component. -/
def setPars (sao_ctu_pars : SAOBlkParam) (compID : ComponentID) (pars : SAOOffset) : SAOBlkParam :=
  update sao_ctu_pars compID pars

/-- All components off. -/
def saoOff (sao_ctu_pars : SAOBlkParam) : SAOBlkParam := fun compID =>
  { sao_ctu_pars compID with modeIdc := .SAO_MODE_OFF }

/-- The parameters of a merged unit. -/
def saoMerge (cs : CodingStructure) (sao_merge_type : Nat) (sao_ctu_pars : SAOBlkParam) :
    SAOBlkParam := fun compID =>
  if (compID.isLuma ∧ (cs.saoEnabledLuma ∨ cs.sliceSaoChromaFlag)) ∨
      (compID.isChroma ∧ cs.sliceSaoChromaFlag) then
    { sao_ctu_pars compID with modeIdc := .SAO_MODE_MERGE, typeIdc := sao_merge_type }
  else sao_ctu_pars compID

/-- The components from `firstComp` to `lastComp`. -/
def saoComponents (cs : CodingStructure) : List ComponentID :=
  let firstComp : ComponentID := if cs.saoEnabledLuma then .COMPONENT_Y else .COMPONENT_Cb
  let lastComp : ComponentID := if cs.sliceSaoChromaFlag then .COMPONENT_Cr else .COMPONENT_Y
  ComponentID.all.filter fun compID =>
    firstComp.index ≤ compID.index ∧ compID.index ≤ lastComp.index

/-- `sao_type_idx_luma` and `sao_type_idx_chroma`. Cr follows the type of Cb. -/
def readSaoTypeIdx (compID : ComponentID) (sao_ctu_pars : SAOBlkParam) : BinReader SAOOffset :=
  let sao_pars := sao_ctu_pars compID
  if compID ≠ .COMPONENT_Cr then do
    let present ← decodeBin ⟨.SaoTypeIdx, 0⟩
    if present then
      let edge ← decodeBinEP
      return { sao_pars with
        modeIdc := .SAO_MODE_NEW
        typeIdc := if edge then SAO_TYPE_START_EO else SAO_TYPE_START_BO }
    else return sao_pars
  else pure { sao_pars with
    modeIdc := (sao_ctu_pars .COMPONENT_Cb).modeIdc
    typeIdc := (sao_ctu_pars .COMPONENT_Cb).typeIdc }

/-- `sao_offset_abs`. -/
def readSaoOffsetAbs (maxOffsetQVal : Nat) : BinReader (List Nat) :=
  (List.range 4).foldlM (fun values _ => do return values ++ [← unaryMaxEqprob maxOffsetQVal]) []

/-- `sao_offset_sign`. -/
def readSaoOffsetSign (offset : Nat) : BinReader Int :=
  if offset ≠ 0 then do
    let sign ← decodeBinEP
    return if sign then -(offset : Int) else offset
  else pure 0

/-- The offsets of four bands from the first one. -/
def setBands (sao_pars : SAOOffset) (typeAuxInfo : Nat) (offset : List Int) : SAOOffset :=
  { sao_pars with
    typeAuxInfo := typeAuxInfo
    offset := (List.range 4).foldl (fun offsets k =>
      update offsets ((typeAuxInfo + k) % NUM_SAO_BO_CLASSES) (offset.getD k 0))
      sao_pars.offset }

/-- The band offset mode. -/
def readSaoBands (sao_pars : SAOOffset) (offset : List Nat) : BinReader SAOOffset := do
  let offset ← (List.range 4).foldlM (fun values k => do
    return values ++ [← readSaoOffsetSign (offset.getD k 0)]) []
  let typeAuxInfo ← decodeBinsEP NUM_SAO_BO_CLASSES_LOG2
  return setBands sao_pars typeAuxInfo offset

/-- `sao_eo_class_luma` and `sao_eo_class_chroma`. Cr follows the class of Cb. -/
def readSaoEoClass (compID : ComponentID) (typeIdc typeIdcCb : Nat) : BinReader Nat :=
  if compID ≠ .COMPONENT_Cr then do
    let eoClass ← decodeBinsEP NUM_SAO_EO_TYPES_LOG2
    return typeIdc + eoClass
  else pure typeIdcCb

/-- The offsets of the classes. -/
def setEdges (sao_pars : SAOOffset) (typeIdc : Nat) (offset : List Nat) : SAOOffset :=
  { sao_pars with
    typeIdc := typeIdc
    typeAuxInfo := 0
    offset := fun classIdx =>
      if classIdx = SAO_CLASS_EO_FULL_VALLEY then (offset.getD 0 0 : Int)
      else if classIdx = SAO_CLASS_EO_HALF_VALLEY then (offset.getD 1 0 : Int)
      else if classIdx = SAO_CLASS_EO_PLAIN then 0
      else if classIdx = SAO_CLASS_EO_HALF_PEAK then -(offset.getD 2 0 : Int)
      else if classIdx = SAO_CLASS_EO_FULL_PEAK then -(offset.getD 3 0 : Int)
      else sao_pars.offset classIdx }

/-- The edge offset mode. -/
def readSaoEdges (compID : ComponentID) (sao_pars : SAOOffset) (typeIdcCb : Nat)
    (offset : List Nat) : BinReader SAOOffset := do
  let typeIdc ← readSaoEoClass compID sao_pars.typeIdc typeIdcCb
  return setEdges sao_pars typeIdc offset

/-- The parameters of a component behind the type. -/
def readSaoNew (cs : CodingStructure) (compID : ComponentID) (sao_ctu_pars : SAOBlkParam)
    (sao_pars : SAOOffset) : BinReader SAOOffset :=
  if sao_pars.modeIdc = .SAO_MODE_OFF then pure sao_pars
  else do
    let offset ← readSaoOffsetAbs (getMaxOffsetQVal (cs.bitDepth compID))
    if sao_pars.typeIdc = SAO_TYPE_START_BO then readSaoBands sao_pars offset
    else readSaoEdges compID sao_pars (sao_ctu_pars .COMPONENT_Cb).typeIdc offset

/-- A round of the loop over the components. -/
def readSaoComponent (cs : CodingStructure) (sao_ctu_pars : SAOBlkParam) (compID : ComponentID) :
    BinReader SAOBlkParam := do
  let sao_pars ← readSaoTypeIdx compID sao_ctu_pars
  let sao_pars ← readSaoNew cs compID sao_ctu_pars sao_pars
  return setPars sao_ctu_pars compID sao_pars

/-- The parameters of a unit in a slice with SAO. -/
def saoBlockPars (cs : CodingStructure) (ctu : Ctu) (sao_ctu_pars : SAOBlkParam) :
    BinReader SAOBlkParam := do
  let sao_merge_type ← readSaoMergeLeft ctu.leftAvail
  let sao_merge_type ← readSaoMergeAbove ctu.aboveAvail sao_merge_type
  if sao_merge_type ≥ 0 then return saoMerge cs sao_merge_type.toNat sao_ctu_pars
  else (saoComponents cs).foldlM (readSaoComponent cs) sao_ctu_pars

/-- The parameters of a unit. -/
def readSaoPars (cs : CodingStructure) (ctu : Ctu) (sao_ctu_pars : SAOBlkParam) :
    BinReader SAOBlkParam :=
  if ¬ cs.saoEnabledLuma ∧ ¬ cs.sliceSaoChromaFlag then pure sao_ctu_pars
  else saoBlockPars cs ctu sao_ctu_pars

def sao (cs : CodingStructure) (ctu : Ctu) (pic : Picture) : BinReader Picture :=
  if ¬ cs.SAOEnabledFlag then pure pic
  else do
    let sao_ctu_pars ← readSaoPars cs ctu (saoOff (pic.sao ctu.ctuRsAddr))
    return { pic with sao := update pic.sao ctu.ctuRsAddr sao_ctu_pars }

/-- The index of an APS. -/
def readAlfApsIdx (numAps : Nat) : BinReader Nat :=
  if numAps > 1 then xReadTruncBinCode (numAps + NUM_FIXED_FILTER_SETS - NUM_FIXED_FILTER_SETS)
  else pure 0

/-- The set of an APS. -/
def readAlfTemporalSet (numAps : Nat) : BinReader Nat := do
  let filtIndex ← readAlfApsIdx numAps
  return filtIndex + NUM_FIXED_FILTER_SETS

/-- The filter set of a unit with ALF. -/
def readAlfFilterSet (numAps : Nat) : BinReader Nat :=
  if numAps + NUM_FIXED_FILTER_SETS > NUM_FIXED_FILTER_SETS then do
    let usePrevFilt ← decodeBin ⟨.AlfUseTemporalFilt, 0⟩
    if usePrevFilt then readAlfTemporalSet numAps else xReadTruncBinCode NUM_FIXED_FILTER_SETS
  else xReadTruncBinCode NUM_FIXED_FILTER_SETS

def readAlfCtuFilterIndex (cs : CodingStructure) (ctu : Ctu) (pic : Picture) : BinReader Picture := do
  let filtIndex ← readAlfFilterSet cs.tileGroupNumAps
  return { pic with
    alfCtbFilterIndex := update pic.alfCtbFilterIndex ctu.ctuRsAddr filtIndex }

/-- The loop of `alf_ctb_filter_alt_idx`, with `left` bins to go. -/
def readAlfAlternative (ctxId : Ctx) : Nat → Nat → BinReader Nat
  | 0, decoded => pure decoded
  | left + 1, decoded => do
      let bin ← decodeBin ctxId
      if bin then readAlfAlternative ctxId left (decoded + 1) else return decoded

/-- Set the flag of a component. -/
@[grind =] def setAlfFlag (pic : Picture) (ctu : Ctu) (compIdx : ComponentID) (flag : Bool) : Picture :=
  { pic with
    alfCtuEnableFlag := update pic.alfCtuEnableFlag compIdx
      (update (pic.alfCtuEnableFlag compIdx) ctu.ctuRsAddr flag) }

/-- Set the alternative of a component. -/
def setAlfAlternative (pic : Picture) (ctu : Ctu) (compIdx : ComponentID) (decoded : Nat) : Picture :=
  { pic with
    alfCtuAlternativeData := update pic.alfCtuAlternativeData compIdx
      (update (pic.alfCtuAlternativeData compIdx) ctu.ctuRsAddr decoded) }

/-- The alternative of a chroma component with ALF. -/
def readAlfDecoded (compIdx : ComponentID) (flag : Bool) (numAlts : Nat) : BinReader Nat :=
  if flag then readAlfAlternative ⟨.ctbAlfAlternative, compIdx.index - 1⟩ (numAlts - 1) 0 else pure 0

/-- The alternative of a chroma component. -/
def readAlfCtuAlternative (cs : CodingStructure) (ctu : Ctu) (compIdx : ComponentID) (flag : Bool)
    (pic : Picture) : BinReader Picture :=
  match cs.numAlternativesChroma with
  | none => fun _ => .error "APS not initialized"
  | some numAlts => do
      let decoded ← readAlfDecoded compIdx flag numAlts
      return setAlfAlternative pic ctu compIdx decoded

/-- What follows the flag of a component. -/
def readAlfChoice (cs : CodingStructure) (ctu : Ctu) (compIdx : ComponentID) (flag : Bool)
    (pic : Picture) : BinReader Picture :=
  if compIdx.isLuma then if flag then readAlfCtuFilterIndex cs ctu pic else pure pic
  else readAlfCtuAlternative cs ctu compIdx flag pic

/-- A round of the loop over the components. -/
def readAlfComponent (cs : CodingStructure) (ctu : Ctu) (pic : Picture) (compIdx : ComponentID) :
    BinReader Picture :=
  if cs.tileGroupAlfEnabledFlag compIdx then do
    let flag ← decodeBin (alfCtx cs pic ctu compIdx)
    readAlfChoice cs ctu compIdx flag (setAlfFlag pic ctu compIdx flag)
  else pure pic

/-- The ALF parameters: those of the chroma components are only looked for with luma. -/
def readAlf (cs : CodingStructure) (ctu : Ctu) (pic : Picture) : BinReader Picture :=
  if cs.ALFEnabledFlag ∧ cs.tileGroupAlfEnabledFlag .COMPONENT_Y then
    ComponentID.all.foldlM (readAlfComponent cs ctu) pic
  else pure pic

/-- `coding_tree_unit`, up to the coding tree. -/
def codingTreeUnit (cs : CodingStructure) (ctu : Ctu) (pic : Picture) : BinReader Picture := do
  let pic ← sao cs ctu pic
  readAlf cs ctu pic

end Vtm.CABACReader
