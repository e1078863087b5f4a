import Vtm.Common.CtuFilters
import Vtm.Encoder.Symbols

/-!
# SAO and ALF parameters of a coding tree unit: writing

`CABACWriter::coding_tree_unit` in front of the coding tree.
-/

namespace Vtm.CABACWriter

open Vtm.Std CtuFilters

/-- `sao_type_idx_luma` and `sao_type_idx_chroma`. -/
def codeSaoTypeIdx (ctbPars : SAOOffset) : BinWriter Unit :=
  if ctbPars.modeIdc = .SAO_MODE_OFF then encodeBin false ⟨.SaoTypeIdx, 0⟩
  else if ctbPars.typeIdc = SAO_TYPE_START_BO then do
    encodeBin true ⟨.SaoTypeIdx, 0⟩
    encodeBinEP false
  else do
    check (¬ ctbPars.typeIdc < SAO_TYPE_START_BO) "Unspecified error"
    encodeBin true ⟨.SaoTypeIdx, 0⟩
    encodeBinEP true

/-- `offset[k]`: of four bands from the first one, or of the four classes that are not plain. -/
def saoOffset (ctbPars : SAOOffset) (k : Nat) : Int :=
  if ctbPars.typeIdc = SAO_TYPE_START_BO then
    ctbPars.offset ((ctbPars.typeAuxInfo + k) % NUM_SAO_BO_CLASSES)
  else ctbPars.offset (if k < SAO_CLASS_EO_PLAIN then k else k + 1)

/-- `sao_offset_abs`. -/
def codeSaoOffsetAbs (ctbPars : SAOOffset) (maxOffsetQVal : Nat) : BinWriter Unit :=
  (List.range 4).foldlM (fun _ i => unaryMaxEqprob (saoOffset ctbPars i).natAbs maxOffsetQVal) ()

/-- `sao_offset_sign`. -/
def codeSaoOffsetSign (offset : Int) : BinWriter Unit :=
  if offset ≠ 0 then encodeBinEP (offset < 0) else pure ()

/-- What comes behind the magnitudes: the signs and the position of the bands, or the class of the
edges with the first component of a channel type. -/
def codeSaoClass (ctbPars : SAOOffset) (compID : ComponentID) : BinWriter Unit :=
  if ctbPars.typeIdc = SAO_TYPE_START_BO then do
    (List.range 4).foldlM (fun _ i => codeSaoOffsetSign (saoOffset ctbPars i)) ()
    encodeBinsEP ctbPars.typeAuxInfo NUM_SAO_BO_CLASSES_LOG2
  else if compID.isFirstCompOfChType then do
    check (ctbPars.typeIdc < SAO_TYPE_START_EO) "sao edge offset class is outside valid range"
    encodeBinsEP (ctbPars.typeIdc - SAO_TYPE_START_EO) NUM_SAO_EO_TYPES_LOG2
  else pure ()

/-- The offsets of a component with parameters of its own. -/
def codeSaoNew (ctbPars : SAOOffset) (compID : ComponentID) (bitDepth : Nat) : BinWriter Unit :=
  if ctbPars.modeIdc = .SAO_MODE_NEW then do
    codeSaoOffsetAbs ctbPars (getMaxOffsetQVal bitDepth)
    codeSaoClass ctbPars compID
  else pure ()

/-- The type of a component, which Cr shares with Cb. -/
def codeSaoType (ctbPars : SAOOffset) (compID : ComponentID) : BinWriter Unit :=
  if compID.isFirstCompOfChType then codeSaoTypeIdx ctbPars else pure ()

/-- `sao_offset_pars`. -/
def saoOffsetPars (ctbPars : SAOOffset) (compID : ComponentID) (sliceEnabled : Bool)
    (bitDepth : Nat) : BinWriter Unit :=
  if ¬ sliceEnabled then
    check (ctbPars.modeIdc ≠ .SAO_MODE_OFF) "Sao must be off, if it is disabled on slice level"
  else do
    codeSaoType ctbPars compID
    codeSaoNew ctbPars compID bitDepth

/-- `sao_merge_left_flag`: whether the parameters are those of the unit to the left. -/
def codeSaoMergeLeft (saoPars : SAOBlkParam) (leftMergeAvail : Bool) : BinWriter Bool :=
  if leftMergeAvail then do
    let isLeftMerge : Bool := (saoPars .COMPONENT_Y).modeIdc = .SAO_MODE_MERGE ∧
      (saoPars .COMPONENT_Y).typeIdc = SAO_MERGE_LEFT
    encodeBin isLeftMerge ⟨.SaoMergeFlag, 0⟩
    return isLeftMerge
  else pure false

/-- `sao_merge_above_flag`. -/
def codeSaoMergeAbove (saoPars : SAOBlkParam) (aboveMergeAvail isLeftMerge : Bool) :
    BinWriter Bool :=
  if aboveMergeAvail ∧ ¬ isLeftMerge then do
    let isAboveMerge : Bool := (saoPars .COMPONENT_Y).modeIdc = .SAO_MODE_MERGE ∧
      (saoPars .COMPONENT_Y).typeIdc = SAO_MERGE_ABOVE
    encodeBin isAboveMerge ⟨.SaoMergeFlag, 0⟩
    return isAboveMerge
  else pure false

/-- `sao_block_pars`, not only for the rate of the merge flags. -/
def saoBlockPars (cs : CodingStructure) (saoPars : SAOBlkParam)
    (leftMergeAvail aboveMergeAvail : Bool) : BinWriter Unit := do
  let isLeftMerge ← codeSaoMergeLeft saoPars leftMergeAvail
  let isAboveMerge ← codeSaoMergeAbove saoPars aboveMergeAvail isLeftMerge
  if ¬ isLeftMerge ∧ ¬ isAboveMerge then
    ComponentID.all.foldlM (fun _ compID =>
      saoOffsetPars (saoPars compID) compID (cs.sliceEnabled compID) (cs.bitDepth compID)) ()

def sao (cs : CodingStructure) (pic : Picture) (ctu : Ctu) : BinWriter Unit :=
  if ¬ cs.SAOEnabledFlag then pure ()
  else if ¬ cs.saoEnabledLuma ∧ ¬ cs.sliceSaoChromaFlag then pure ()
  else saoBlockPars cs (pic.sao ctu.ctuRsAddr) ctu.leftAvail ctu.aboveAvail

/-- `codeAlfCtuEnableFlag`, with the flags of the slice. -/
def codeAlfCtuEnableFlag (cs : CodingStructure) (pic : Picture) (ctu : Ctu) (compIdx : ComponentID) :
    BinWriter Unit :=
  if cs.ALFEnabledFlag ∧ cs.tileGroupAlfEnabledFlag compIdx then
    encodeBin (pic.alfCtuEnableFlag compIdx ctu.ctuRsAddr) (alfCtx cs pic ctu compIdx)
  else pure ()

/-- The set of an APS. -/
def codeAlfTemporalSet (filterSetIdx numAps : Nat) : BinWriter Unit := do
  let numAvailableFiltSets := numAps + NUM_FIXED_FILTER_SETS
  check (filterSetIdx - NUM_FIXED_FILTER_SETS ≥ numAvailableFiltSets - NUM_FIXED_FILTER_SETS)
    "temporal non-latest set"
  if numAps > 1 then
    xWriteTruncBinCode (filterSetIdx - NUM_FIXED_FILTER_SETS)
      (numAvailableFiltSets - NUM_FIXED_FILTER_SETS)

/-- A fixed set. -/
def codeAlfFixedSet (filterSetIdx : Nat) (message : String) : BinWriter Unit := do
  check (filterSetIdx ≥ NUM_FIXED_FILTER_SETS) message
  xWriteTruncBinCode filterSetIdx NUM_FIXED_FILTER_SETS

/-- The filter set of a unit with ALF. -/
def codeAlfFilterSet (filterSetIdx numAps : Nat) : BinWriter Unit :=
  if numAps + NUM_FIXED_FILTER_SETS > NUM_FIXED_FILTER_SETS then do
    let useTemporalFilt : Bool := filterSetIdx ≥ NUM_FIXED_FILTER_SETS
    encodeBin useTemporalFilt ⟨.AlfUseTemporalFilt, 0⟩
    if useTemporalFilt then codeAlfTemporalSet filterSetIdx numAps
    else codeAlfFixedSet filterSetIdx "fixed set larger than temporal"
  else codeAlfFixedSet filterSetIdx "fixed set numavail < num_fixed"

def codeAlfCtuFilterIndex (cs : CodingStructure) (pic : Picture) (ctu : Ctu) (alfEnableLuma : Bool) :
    BinWriter Unit :=
  if ¬ cs.ALFEnabledFlag ∨ ¬ alfEnableLuma then pure ()
  else if ¬ pic.alfCtuEnableFlag .COMPONENT_Y ctu.ctuRsAddr then pure ()
  else codeAlfFilterSet (pic.alfCtbFilterIndex ctu.ctuRsAddr) cs.tileGroupNumAps

/-- The ones of `alf_ctb_filter_alt_idx`. -/
def codeAlfOnes (ctxId : Ctx) : Nat → BinWriter Unit
  | 0 => pure ()
  | numOnes + 1 => do
      encodeBin true ctxId
      codeAlfOnes ctxId numOnes

/-- The bins of `alf_ctb_filter_alt_idx`. -/
def codeAlfAlternative (ctxId : Ctx) (numOnes numAlts : Nat) : BinWriter Unit := do
  check (¬ numOnes < numAlts) "ctbAlfAlternative[ctuRsAddr] < numAlts"
  codeAlfOnes ctxId numOnes
  if numOnes < numAlts - 1 then encodeBin false ctxId

/-- `codeAlfCtuAlternative`. It reads the APS in front of its checks. -/
def codeAlfCtuAlternative (cs : CodingStructure) (pic : Picture) (ctu : Ctu)
    (compIdx : ComponentID) : BinWriter Unit :=
  match cs.numAlternativesChroma with
  | none => fun _ => .error "no APS"
  | some numAlts =>
      if cs.ALFEnabledFlag ∧ cs.tileGroupAlfEnabledFlag compIdx then
        if pic.alfCtuEnableFlag compIdx ctu.ctuRsAddr then
          codeAlfAlternative ⟨.ctbAlfAlternative, compIdx.index - 1⟩
            (pic.alfCtuAlternativeData compIdx ctu.ctuRsAddr) numAlts
        else pure ()
      else pure ()

/-- What follows the flag of a component. -/
def codeAlfChoice (cs : CodingStructure) (pic : Picture) (ctu : Ctu) (compIdx : ComponentID) :
    BinWriter Unit :=
  if compIdx.isLuma then
    codeAlfCtuFilterIndex cs pic ctu (cs.tileGroupAlfEnabledFlag .COMPONENT_Y)
  else if cs.tileGroupAlfEnabledFlag compIdx ∧ pic.alfCtuEnableFlag compIdx ctu.ctuRsAddr then
    codeAlfCtuAlternative cs pic ctu compIdx
  else pure ()

/-- The ALF parameters. -/
def codeAlf (cs : CodingStructure) (pic : Picture) (ctu : Ctu) : BinWriter Unit :=
  ComponentID.all.foldlM (fun _ compIdx => do
    codeAlfCtuEnableFlag cs pic ctu compIdx
    codeAlfChoice cs pic ctu compIdx) ()

/-- `coding_tree_unit`, up to the coding tree. -/
def codingTreeUnit (cs : CodingStructure) (pic : Picture) (ctu : Ctu) : BinWriter Unit := do
  sao cs pic ctu
  codeAlf cs pic ctu

end Vtm.CABACWriter
