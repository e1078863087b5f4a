import Vtm.Common.Palette
import Vtm.Encoder.Symbols

/-!
# Palette coding units: writing

`CABACWriter::cu_palette_info` and what it calls. The steps stand in the order
of the source.
-/

namespace Vtm.CABACWriter

open Vtm.Std

/-- The number of reuse flags set below `idx`. -/
def reusedBelow (cu : CodingUnit) (idx : Nat) : Nat :=
  ((List.range idx).filter cu.reuseflag).length

/-- `lastPredIdx + 1`. -/
def predEnd (cu : CodingUnit) : Nat :=
  (List.range cu.lastPLTSize).foldl (fun last idx => if cu.reuseflag idx then idx + 1 else last) 0

/-- One round of the run loop of `xEncodePLTPredIndicator`; the result is the run. -/
def codePredRun (cu : CodingUnit) (run idx : Nat) : BinWriter Nat :=
  if cu.reuseflag idx then do
    expGolombEqprob (if run ≠ 0 then run + 1 else run) 0
    return 0
  else pure (run + 1)

/-- The end marker of `xEncodePLTPredIndicator`. -/
def codePredEnd (cu : CodingUnit) (maxPLTSize : Nat) : BinWriter Unit :=
  let numPLTPredicted := reusedBelow cu cu.lastPLTSize
  if (numPLTPredicted < maxPLTSize ∧ predEnd cu < cu.lastPLTSize) ∨ numPLTPredicted = 0 then
    expGolombEqprob 1 0
  else pure ()

def xEncodePLTPredIndicator (cu : CodingUnit) (maxPLTSize : Nat) : BinWriter Unit := do
  let _ ← (List.range' 0 (predEnd cu)).foldlM (codePredRun cu) 0
  codePredEnd cu maxPLTSize

/-- The predictor flags, when there is a predictor. -/
def codePredIndicator (cu : CodingUnit) : BinWriter Unit :=
  if cu.lastPLTSize ≠ 0 then xEncodePLTPredIndicator cu MAXPLTSIZE else pure ()

/-- The number of new entries, when there is room for one. -/
def codeNumNew (cu : CodingUnit) : BinWriter Unit :=
  let reusedPLTnum := reusedBelow cu cu.lastPLTSize
  if reusedPLTnum < MAXPLTSIZE then expGolombEqprob (cu.curPLTSize - reusedPLTnum) 0 else pure ()

/-- The new entries of all components. -/
def codeNewEntries (p : PLTParams) (cu : CodingUnit) : BinWriter Unit :=
  (List.range' p.compBegin p.numComp).foldlM (fun _ comp =>
    (List.range' cu.reusePLTSize (cu.curPLTSize - cu.reusePLTSize)).foldlM
      (fun _ idx => encodeBinsEP (cu.curPLT comp idx) (p.compBitDepth comp)) ()) ()

/-- The palette itself: reused and new entries. -/
def codePalette (p : PLTParams) (cu : CodingUnit) : BinWriter Unit := do
  codePredIndicator cu
  codeNumNew cu
  codeNewEntries p cu

/-- The escape flag. -/
def codeEscapeFlag (cu : CodingUnit) : BinWriter Unit :=
  if cu.curPLTSize > 0 then encodeBinEP cu.useEscape else pure ()

/-- `codeScanRotationModeFlag`, or the assertion in its place. -/
def codeRotation (cu : CodingUnit) : BinWriter Unit :=
  if cu.indexMaxSize > 1 then encodeBin cu.useRotation ⟨.RotationFlag, 0⟩
  else check (cu.useRotation = true) "!cu.useRotation"

/-- The escape and rotation flags. -/
def codeFlags (cu : CodingUnit) : BinWriter Unit := do
  codeEscapeFlag cu
  codeRotation cu

/-- The wrapped quantizer difference of `cu_qp_delta`. -/
def wrappedDQp (p : PLTParams) (predQP qp : Int) : Int :=
  let qpBdOffsetY : Int := p.qpBDOffset
  (qp - predQP + (MAX_QP + 1) + ((MAX_QP + 1) / 2 : Nat) + qpBdOffsetY + (p.qpBDOffset / 2 : Nat)).tmod
    ((MAX_QP + 1) + qpBdOffsetY) - ((MAX_QP + 1) / 2 : Nat) - (p.qpBDOffset / 2 : Nat)

/-- The suffix of a large difference. -/
def codeDQpSuffix (absDQP : Nat) : BinWriter Unit :=
  if absDQP ≥ CU_DQP_TU_CMAX then expGolombEqprob (absDQP - CU_DQP_TU_CMAX) CU_DQP_EG_k else pure ()

/-- The sign of a nonzero difference. -/
def codeDQpSign (DQp : Int) : BinWriter Unit :=
  if DQp.natAbs > 0 then encodeBinEP (DQp < 0) else pure ()

/-- `cu_qp_delta`. -/
def cuQpDelta (p : PLTParams) (predQP qp : Int) : BinWriter Unit := do
  let DQp := wrappedDQp p predQP qp
  let unaryDQP := min DQp.natAbs CU_DQP_TU_CMAX
  unaryMaxSymbol unaryDQP ⟨.DeltaQP, 0⟩ ⟨.DeltaQP, 1⟩ CU_DQP_TU_CMAX
  codeDQpSuffix DQp.natAbs
  codeDQpSign DQp

/-- The index of a set chroma offset flag. -/
def codeChromaQpIdx (p : PLTParams) (qpAdj : Nat) : BinWriter Unit :=
  if p.chromaQpOffsetListLen > 1 then
    unaryMaxSymbol (qpAdj - 1) ⟨.ChromaQpAdjIdc, 0⟩ ⟨.ChromaQpAdjIdc, 0⟩
      (p.chromaQpOffsetListLen - 1)
  else pure ()

/-- `cu_chroma_qp_offset`. -/
def cuChromaQpOffset (p : PLTParams) (cu : CodingUnit) : BinWriter Unit :=
  if cu.chromaQpAdj = 0 then encodeBin false ⟨.ChromaQpAdjFlag, 0⟩
  else do
    encodeBin true ⟨.ChromaQpAdjFlag, 0⟩
    codeChromaQpIdx p cu.chromaQpAdj

/-- Whether the writer codes `cu_qp_delta`. -/
def codesDQP (p : PLTParams) (cu : CodingUnit) (cuCtx : CUCtx) : Bool :=
  (cu.useEscape && p.useDQP && !cuCtx.isDQPCoded) && (!p.isSepTree || p.isLuma)

/-- `cu_qp_delta` and its effect on the context. -/
def codeDQP (p : PLTParams) (cu : CodingUnit) (cuCtx : CUCtx) : BinWriter CUCtx :=
  if codesDQP p cu cuCtx then do
    cuQpDelta p cuCtx.qp cu.qp
    return { cuCtx with qp := cu.qp, isDQPCoded := true }
  else pure cuCtx

/-- Whether the writer codes `cu_chroma_qp_offset`: only a dual tree of the whole
slice counts as separate. -/
@[grind =] def codesChromaQp (p : PLTParams) (cu : CodingUnit) (cuCtx : CUCtx) : Bool :=
  (cu.useEscape && p.useChromaQpAdj && !cuCtx.isChromaQpAdjCoded) && (!p.isDualITree || p.isChroma)

/-- `cu_chroma_qp_offset` and its effect on the context. -/
def codeChromaQp (p : PLTParams) (cu : CodingUnit) (cuCtx : CUCtx) : BinWriter CUCtx :=
  if codesChromaQp p cu cuCtx then do
    cuChromaQpOffset p cu
    return { cuCtx with isChromaQpAdjCoded := true }
  else pure cuCtx

section Subblock

variable (p : PLTParams) (cu : CodingUnit) (tu : TransformUnit)

/-- `identityFlag`: the run goes on. -/
def identityFlag (curPos : Nat) : Bool :=
  let pos := p.scan cu.useRotation curPos
  let prev := p.scanPrev cu.useRotation curPos
  !((tu.runType pos.x pos.y ≠ tu.runType prev.x prev.y) ∨
    (tu.runType pos.x pos.y = .PLT_RUN_INDEX ∧
      tu.curPLTIdx pos.x pos.y ≠ tu.curPLTIdx prev.x prev.y))

/-- The copy flag at `curPos`. -/
def codeCopyFlag (minSubPos curPos : Nat) (flag : Bool) (st : RunState) : BinWriter RunState :=
  if curPos > 0 then do
    encodeBin flag (st.copyFlagCtx curPos)
    return st.setFlag (curPos - minSubPos) flag
  else pure st

/-- The run type at the start of a run. -/
def codeRunType (curPos : Nat) : BinWriter Unit :=
  let pos := p.scan cu.useRotation curPos
  let prev := p.scanPrev cu.useRotation curPos
  if onFirstLine cu.useRotation pos then
    check (tu.runType pos.x pos.y ≠ .PLT_RUN_INDEX) "runType == PLT_RUN_INDEX"
  else if curPos ≠ 0 ∧ tu.runType prev.x prev.y = .PLT_RUN_COPY then
    check (tu.runType pos.x pos.y ≠ .PLT_RUN_INDEX) "runType == PLT_RUN_INDEX"
  else encodeBin (tu.runType pos.x pos.y = .PLT_RUN_COPY) ⟨.RunTypeFlag, 0⟩

/-- One round of the context coded loop. -/
def codeRun (minSubPos : Nat) (st : RunState) (curPos : Nat) : BinWriter RunState := do
  let flag := identityFlag p cu tu curPos
  let st ← codeCopyFlag minSubPos curPos flag st
  if flag = false ∨ curPos = 0 then do
    codeRunType p cu tu curPos
    let pos := p.scan cu.useRotation curPos
    return { st with prevRunPos := curPos, prevRunType := tu.runType pos.x pos.y }
  else return st

/-- The symbol of an index, and the number of symbols, with the redundant one left
out behind the first position. -/
def pltSymbol (idx maxSymbol curLevel : Nat) : BinWriter (Nat × Nat) :=
  if idx ≠ 0 then do
    let level ← refLevel p cu tu.runType tu.curPLTIdx maxSymbol idx
    let prevpos := p.scan cu.useRotation (idx - 1)
    check (level = curLevel)
      (if tu.runType prevpos.x prevpos.y = .PLT_RUN_INDEX then "leftLevel != curLevel"
        else "curLevel != aboveLevel")
    return (if curLevel > level then curLevel - 1 else curLevel, maxSymbol - 1)
  else pure (curLevel, maxSymbol)

def writePLTIndex (idx maxSymbol : Nat) : BinWriter Unit := do
  let pos := p.scan cu.useRotation idx
  let curLevel :=
    if tu.curPLTIdx pos.x pos.y = cu.curPLTSize then maxSymbol - 1 else tu.curPLTIdx pos.x pos.y
  let (curLevel, maxSymbol) ← pltSymbol p cu tu idx maxSymbol curLevel
  check (¬ maxSymbol > 0) "maxSymbol > 0"
  check (¬ maxSymbol > curLevel) "maxSymbol > curLevel"
  if maxSymbol > 1 then xWriteTruncBinCode curLevel maxSymbol else pure ()

/-- One round of the index loop. -/
def codeIndex (minSubPos : Nat) (st : RunState) (curPos : Nat) : BinWriter Unit :=
  let pos := p.scan cu.useRotation curPos
  if st.runCopyFlag (curPos - minSubPos) = 0 ∧ tu.runType pos.x pos.y = .PLT_RUN_INDEX then
    writePLTIndex p cu tu curPos cu.indexMaxSize
  else pure ()

/-- An escape value that is written only when `present`. -/
def codeEscapeIf (present : Prop) [Decidable present] (value : Nat) : BinWriter Unit :=
  if present then expGolombEqprob value 3 else pure ()

/-- One round of the escape loop. -/
def codeEscape (comp curPos : Nat) : BinWriter Unit :=
  let pos := p.scan cu.useRotation curPos
  if tu.curPLTIdx pos.x pos.y = cu.curPLTSize then do
    codeEscapeIf (comp = 0 ∨ p.compBegin ≠ 0) (tu.escapeValue comp pos.x pos.y)
    codeEscapeIf (p.compBegin = 0 ∧ comp ≠ 0 ∧ pos.y % 1 <<< p.scaleY = 0 ∧
      pos.x % 1 <<< p.scaleX = 0) (tu.escapeValue comp (pos.x >>> p.scaleX) (pos.y >>> p.scaleY))
  else pure ()

/-- The context coded loop of a group. -/
def codeRuns (subSetId : Nat) (st : RunState) : BinWriter RunState :=
  if cu.indexMaxSize > 1 then
    (p.subPositions subSetId).foldlM (codeRun p cu tu (PLTParams.minSubPos subSetId)) st
  else pure st

/-- The index loop of a group. -/
def codeIndices (subSetId : Nat) (st : RunState) : BinWriter Unit :=
  if cu.indexMaxSize > 1 then
    (p.subPositions subSetId).foldlM
      (fun _ curPos => codeIndex p cu tu (PLTParams.minSubPos subSetId) st curPos) ()
  else pure ()

/-- The escape loops of a group. -/
def codeEscapes (subSetId : Nat) : BinWriter Unit :=
  (List.range' p.compBegin p.numComp).foldlM (fun _ comp =>
    (p.subPositions subSetId).foldlM (fun _ curPos => codeEscape p cu tu comp curPos) ()) ()

/-- `cuPaletteSubblockInfo` on `prevRunPos` and `prevRunType`. -/
def cuPaletteSubblockInfo (prevRun : Nat × PLTRunMode) (subSetId : Nat) :
    BinWriter (Nat × PLTRunMode) := do
  let st ← codeRuns p cu tu subSetId
    (RunState.start (PLTParams.minSubPos subSetId) prevRun.1 prevRun.2)
  codeIndices p cu tu subSetId st
  codeEscapes p cu tu subSetId
  return (st.prevRunPos, st.prevRunType)

/-- All groups. -/
def codeSubblocks : BinWriter Unit := do
  let _ ← (List.range' 0 p.numSubsets).foldlM (cuPaletteSubblockInfo p cu tu) (0, .PLT_RUN_INDEX)

end Subblock

/-- `cu_palette_info`. -/
def cuPaletteInfo (p : PLTParams) (cu : CodingUnit) (tu : TransformUnit) (cuCtx : CUCtx) :
    BinWriter CUCtx := do
  codePalette p cu
  codeFlags cu
  let cuCtx ← codeDQP p cu cuCtx
  let cuCtx ← codeChromaQp p cu cuCtx
  codeSubblocks p cu tu
  return cuCtx

end Vtm.CABACWriter
