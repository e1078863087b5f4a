import Vtm.Common.Palette
import Vtm.Decoder.Symbols

/-!
# Palette coding units: reading

`CABACReader::cu_palette_info` and what it calls. The steps stand in the order
of the source.
-/

namespace Vtm.CABACReader

open Vtm.Std

/-- `if (idx > 0) symbol = exp_golomb_eqprob(0);`. -/
def nextPredSymbol (idx symbol : Nat) : BinReader Nat :=
  if idx > 0 then expGolombEqprob 0 else pure symbol

/-- The loop of `xDecodePLTPredIndicator`. Every round moves `idx` on, so as many
rounds as there are entries suffice. -/
def predLoop (lastPLTSize maxPLTSize : Nat) :
    Nat → Nat → Nat → Nat → (Nat → Bool) → BinReader (Nat → Bool)
  | 0, _, _, _, reuseflag => pure reuseflag
  | fuel + 1, symbol, idx, numPltPredicted, reuseflag =>
      if idx < lastPLTSize ∧ numPltPredicted < maxPLTSize then do
        let symbol ← nextPredSymbol idx symbol
        if symbol = 1 then return reuseflag
        else
          let idx := if symbol ≠ 0 then idx + (symbol - 1) else idx
          predLoop lastPLTSize maxPLTSize fuel symbol (idx + 1) (numPltPredicted + 1)
            (Function.update reuseflag idx true)
      else pure reuseflag

def xDecodePLTPredIndicator (lastPLTSize maxPLTSize : Nat) (reuseflag : Nat → Bool) :
    BinReader (Nat → Bool) := do
  let symbol ← expGolombEqprob 0
  if symbol ≠ 1 then predLoop lastPLTSize maxPLTSize lastPLTSize symbol 0 0 reuseflag
  else return reuseflag

/-- The predictor flags, when there is a predictor. -/
def parsePredIndicator (lastPLTSize : Nat) (reuseflag : Nat → Bool) : BinReader (Nat → Bool) :=
  if lastPLTSize ≠ 0 then xDecodePLTPredIndicator lastPLTSize MAXPLTSIZE reuseflag
  else pure reuseflag

/-- One round of the copy of reused entries, on the palette and `curPLTidx`. -/
def copyReused (p : PLTParams) (reuseflag : Nat → Bool) (acc : Grid Nat × Nat) (idx : Nat) :
    Grid Nat × Nat :=
  if reuseflag idx then
    ((List.range' p.compBegin p.numComp).foldl
      (fun curPLT comp => curPLT.set comp acc.2 (p.prevPLT comp idx)) acc.1, acc.2 + 1)
  else acc

/-- The number of new entries, when there is room for one. -/
def parseNumNew (curPLTidx : Nat) : BinReader Nat :=
  if curPLTidx < MAXPLTSIZE then expGolombEqprob 0 else pure 0

/-- The new entries of all components. -/
def parseNewEntries (p : PLTParams) (curPLTidx curPLTSize : Nat) (curPLT : Grid Nat) :
    BinReader (Grid Nat) :=
  (List.range' p.compBegin p.numComp).foldlM (fun curPLT comp =>
    (List.range' curPLTidx (curPLTSize - curPLTidx)).foldlM (fun (curPLT : Grid Nat) idx => do
      let entry ← decodeBinsEP (p.compBitDepth comp)
      return curPLT.set comp idx entry) curPLT) curPLT

/-- The escape flag. -/
def parseEscapeFlag (curPLTSize : Nat) : BinReader Bool :=
  if curPLTSize > 0 then decodeBinEP else pure true

/-- `parseScanRotationModeFlag`, or its inferred value. -/
def parseRotation (indexMaxSize : Nat) : BinReader Bool :=
  if indexMaxSize > 1 then decodeBin ⟨.RotationFlag, 0⟩ else pure false

/-- The suffix of a large difference. -/
def parseDQpSuffix (DQp : Nat) : BinReader Nat :=
  if DQp ≥ CU_DQP_TU_CMAX then do
    let suffix ← expGolombEqprob CU_DQP_EG_k
    return DQp + suffix
  else pure DQp

/-- The sign of a nonzero difference, and the quantizer it leads to. -/
def parseDQpSign (p : PLTParams) (predQP : Int) (DQp : Nat) : BinReader Int :=
  if DQp > 0 then do
    let negative ← decodeBinEP
    let DQp : Int := if negative then -DQp else DQp
    let qpBdOffsetY : Int := p.qpBDOffset
    return (predQP + DQp + (MAX_QP + 1) + 2 * qpBdOffsetY).tmod ((MAX_QP + 1) + qpBdOffsetY) -
      qpBdOffsetY
  else pure predQP

/-- `cu_qp_delta`; the result is stored in eight bits. -/
def cuQpDelta (p : PLTParams) (predQP : Int) : BinReader Int := do
  let DQp ← unaryMaxSymbol ⟨.DeltaQP, 0⟩ ⟨.DeltaQP, 1⟩ CU_DQP_TU_CMAX
  let DQp ← parseDQpSuffix DQp
  let qpY ← parseDQpSign p predQP DQp
  return qpY.bmod (2 ^ 8)

/-- `cu_chroma_qp_offset`. -/
def cuChromaQpOffset (p : PLTParams) : BinReader Nat := do
  let flag ← decodeBin ⟨.ChromaQpAdjFlag, 0⟩
  if flag = true ∧ p.chromaQpOffsetListLen > 1 then
    let idx ← unaryMaxSymbol ⟨.ChromaQpAdjIdc, 0⟩ ⟨.ChromaQpAdjIdc, 0⟩
      (p.chromaQpOffsetListLen - 1)
    return flag.toNat + idx
  else return flag.toNat

/-- Whether the reader expects `cu_qp_delta`. -/
def parsesDQP (p : PLTParams) (cu : CodingUnit) (cuCtx : CUCtx) : Bool :=
  (cu.useEscape && p.useDQP && !cuCtx.isDQPCoded) && (!p.isSepTree || p.isLuma)

/-- `cu_qp_delta` and its effect on the context. -/
def parseDQP (p : PLTParams) (cu : CodingUnit) (cuCtx : CUCtx) : BinReader (CodingUnit × CUCtx) :=
  if parsesDQP p cu cuCtx then do
    let qp ← cuQpDelta p cuCtx.qp
    return ({ cu with qp }, { cuCtx with qp, isDQPCoded := true })
  else pure (cu, cuCtx)

/-- Whether the reader expects `cu_chroma_qp_offset`. -/
def parsesChromaQp (p : PLTParams) (cu : CodingUnit) (cuCtx : CUCtx) : Bool :=
  (cu.useEscape && p.useChromaQpAdj && !cuCtx.isChromaQpAdjCoded) && (!p.isSepTree || p.isChroma)

/-- `cu_chroma_qp_offset` and its effect on the context. -/
def parseChromaQp (p : PLTParams) (cu : CodingUnit) (cuCtx : CUCtx) :
    BinReader (CodingUnit × CUCtx) :=
  if parsesChromaQp p cu cuCtx then do
    let chromaQpAdj ← cuChromaQpOffset p
    return ({ cu with chromaQpAdj }, { cuCtx with isChromaQpAdjCoded := true })
  else pure (cu, cuCtx)

section Subblock

variable (p : PLTParams) (cu : CodingUnit)

/-- The copy flag at `curPos`. -/
def parseCopyFlag (minSubPos curPos : Nat) (st : RunState) : BinReader (Bool × RunState) :=
  if curPos > 0 then do
    let identityFlag ← decodeBin (st.copyFlagCtx curPos)
    return (identityFlag, st.setFlag (curPos - minSubPos) identityFlag)
  else pure (true, st)

/-- The run type at the start of a run. -/
def parseRunType (curPos : Nat) (runType : Grid PLTRunMode) : BinReader PLTRunMode :=
  let pos := p.scan cu.useRotation curPos
  let prev := p.scanPrev cu.useRotation curPos
  if onFirstLine cu.useRotation pos then pure .PLT_RUN_INDEX
  else if curPos ≠ 0 ∧ runType prev.x prev.y = .PLT_RUN_COPY then pure .PLT_RUN_INDEX
  else do
    let copy ← decodeBin ⟨.RunTypeFlag, 0⟩
    return if copy then .PLT_RUN_COPY else .PLT_RUN_INDEX

/-- One round of the context coded loop. -/
def parseRun (minSubPos : Nat) (acc : RunState × Grid PLTRunMode) (curPos : Nat) :
    BinReader (RunState × Grid PLTRunMode) := do
  let (identityFlag, st) ← parseCopyFlag minSubPos curPos acc.1
  let pos := p.scan cu.useRotation curPos
  let prev := p.scanPrev cu.useRotation curPos
  if identityFlag = false ∨ curPos = 0 then do
    let prevRunType ← parseRunType p cu curPos acc.2
    return ({ st with prevRunPos := curPos, prevRunType }, acc.2.set pos.x pos.y prevRunType)
  else return (st, acc.2.set pos.x pos.y (acc.2 prev.x prev.y))

/-- The level that an index leaves out; none at the first position. -/
def indexRefLevel (runType : Grid PLTRunMode) (paletteIdx : Grid Nat) (maxSymbol idx : Nat) :
    BinReader Nat :=
  if idx ≠ 0 then refLevel p cu runType paletteIdx maxSymbol idx else pure MAX_INT

def xAdjustPLTIndex (curLevel idx : Nat) (paletteIdx : Grid Nat) (runType : Grid PLTRunMode)
    (maxSymbol : Nat) : BinReader (Grid Nat) := do
  let refLevel ← indexRefLevel p cu runType paletteIdx maxSymbol idx
  let symbol := if curLevel ≥ refLevel then curLevel + 1 else curLevel
  let pos := p.scan cu.useRotation idx
  return paletteIdx.set pos.x pos.y symbol

/-- One round of the index loop. -/
def parseIndex (minSubPos : Nat) (st : RunState) (runType : Grid PLTRunMode)
    (curPLTIdx : Grid Nat) (curPos : Nat) : BinReader (Grid Nat) :=
  let adjust := if curPos > 0 then 1 else 0
  let pos := p.scan cu.useRotation curPos
  let prev := p.scanPrev cu.useRotation curPos
  if st.runCopyFlag (curPos - minSubPos) = 0 ∧ runType pos.x pos.y = .PLT_RUN_INDEX then do
    let symbol ← xReadTruncBinCode (cu.indexMaxSize - adjust)
    xAdjustPLTIndex p cu symbol curPos curPLTIdx runType cu.indexMaxSize
  else if runType pos.x pos.y = .PLT_RUN_INDEX then
    pure (curPLTIdx.set pos.x pos.y (curPLTIdx prev.x prev.y))
  else
    let source := copySource cu.useRotation pos
    pure (curPLTIdx.set pos.x pos.y (curPLTIdx source.x source.y))

/-- One round of the loop in its place when there is only one index. -/
def inferIndex (minSubPos : Nat) (st : RunState) (acc : Grid PLTRunMode × Grid Nat)
    (curPos : Nat) : Grid PLTRunMode × Grid Nat :=
  let pos := p.scan cu.useRotation curPos
  let prev := p.scanPrev cu.useRotation curPos
  let index := if st.runCopyFlag (curPos - minSubPos) = 0 then 0 else acc.2 prev.x prev.y
  (acc.1.set pos.x pos.y .PLT_RUN_INDEX, acc.2.set pos.x pos.y index)

/-- An escape value that is read only when `present`. -/
def parseEscapeIf (present : Prop) [Decidable present] (comp x y : Nat) (escapeValue : Grid Nat) :
    BinReader (Grid Nat) :=
  if present then do
    let value ← expGolombEqprob 3
    check (¬ value < 1 <<< (p.compBitDepth comp + 1)) "escapeValue < (1 << (bitDepth + 1))"
    return escapeValue.set x y value
  else pure escapeValue

/-- One round of the escape loop. -/
def parseEscape (curPLTIdx : Grid Nat) (comp : Nat) (escapeValue : Grid Nat) (curPos : Nat) :
    BinReader (Grid Nat) :=
  let pos := p.scan cu.useRotation curPos
  if curPLTIdx pos.x pos.y = cu.curPLTSize then do
    let escapeValue ← parseEscapeIf p (comp = 0 ∨ p.compBegin ≠ 0) comp pos.x pos.y escapeValue
    parseEscapeIf p (p.compBegin = 0 ∧ comp ≠ 0 ∧ pos.y % 1 <<< p.scaleY = 0 ∧
      pos.x % 1 <<< p.scaleX = 0) comp (pos.x >>> p.scaleX) (pos.y >>> p.scaleY) escapeValue
  else pure escapeValue

/-- The context coded loop of a group. -/
def parseRuns (subSetId : Nat) (st : RunState) (runType : Grid PLTRunMode) :
    BinReader (RunState × Grid PLTRunMode) :=
  if cu.indexMaxSize > 1 then
    (p.subPositions subSetId).foldlM (parseRun p cu (PLTParams.minSubPos subSetId)) (st, runType)
  else pure (st, runType)

/-- The index loop of a group. -/
def parseIndices (subSetId : Nat) (st : RunState) (runType : Grid PLTRunMode)
    (curPLTIdx : Grid Nat) : BinReader (Grid PLTRunMode × Grid Nat) :=
  if cu.indexMaxSize > 1 then do
    let curPLTIdx ← (p.subPositions subSetId).foldlM
      (parseIndex p cu (PLTParams.minSubPos subSetId) st runType) curPLTIdx
    return (runType, curPLTIdx)
  else
    pure ((p.subPositions subSetId).foldl (inferIndex p cu (PLTParams.minSubPos subSetId) st)
      (runType, curPLTIdx))

/-- The escape loops of a group. -/
def parseEscapes (subSetId : Nat) (curPLTIdx : Grid Nat) (escapeValue : Nat → Grid Nat) :
    BinReader (Nat → Grid Nat) :=
  (List.range' p.compBegin p.numComp).foldlM (fun escapeValue comp => do
    let values ← (p.subPositions subSetId).foldlM (parseEscape p cu curPLTIdx comp)
      (escapeValue comp)
    return Function.update escapeValue comp values) escapeValue

/-- `cuPaletteSubblockInfo` on the buffers, `prevRunPos` and `prevRunType`. -/
def cuPaletteSubblockInfo (acc : TransformUnit × Nat × PLTRunMode) (subSetId : Nat) :
    BinReader (TransformUnit × Nat × PLTRunMode) := do
  let tu := acc.1
  let (st, runType) ← parseRuns p cu subSetId
    (RunState.start (PLTParams.minSubPos subSetId) acc.2.1 acc.2.2) tu.runType
  let (runType, curPLTIdx) ← parseIndices p cu subSetId st runType tu.curPLTIdx
  let escapeValue ← parseEscapes p cu subSetId curPLTIdx tu.escapeValue
  return ({ runType, curPLTIdx, escapeValue }, st.prevRunPos, st.prevRunType)

/-- All groups. -/
def parseSubblocks (tu : TransformUnit) : BinReader TransformUnit := do
  let (tu, _) ← (List.range' 0 p.numSubsets).foldlM (cuPaletteSubblockInfo p cu)
    (tu, 0, .PLT_RUN_INDEX)
  return tu

end Subblock

/-- The palette itself: reused and new entries. -/
def parsePalette (p : PLTParams) (cu : CodingUnit) : BinReader CodingUnit := do
  let lastPLTSize := p.prevPLTSize
  let reuseflag ← parsePredIndicator lastPLTSize cu.reuseflag
  let (curPLT, curPLTidx) :=
    (List.range' 0 lastPLTSize).foldl (copyReused p reuseflag) (cu.curPLT, 0)
  let recievedPLTnum ← parseNumNew curPLTidx
  let curPLTSize := curPLTidx + recievedPLTnum
  let curPLT ← parseNewEntries p curPLTidx curPLTSize curPLT
  return { cu with lastPLTSize, reuseflag, curPLTSize, curPLT }

/-- The escape and rotation flags. -/
def parseFlags (cu : CodingUnit) : BinReader CodingUnit := do
  let useEscape ← parseEscapeFlag cu.curPLTSize
  let cu := { cu with useEscape }
  let useRotation ← parseRotation cu.indexMaxSize
  return { cu with useRotation }

/-- `cu_palette_info`. -/
def cuPaletteInfo (p : PLTParams) (cu : CodingUnit) (tu : TransformUnit) (cuCtx : CUCtx) :
    BinReader (CodingUnit × TransformUnit × CUCtx) := do
  let cu ← parsePalette p cu
  let cu ← parseFlags cu
  let (cu, cuCtx) ← parseDQP p cu cuCtx
  let (cu, cuCtx) ← parseChromaQp p cu cuCtx
  let tu ← parseSubblocks p cu tu
  return (cu, tu, cuCtx)

end Vtm.CABACReader
