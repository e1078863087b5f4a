import Vtm.Common.WeightPred
import Vtm.Encoder.VLCWriter

/-!
# Writing the weighted prediction table
-/

namespace Vtm.WeightPred

open Vtm.Std Vtm.VLCWriter

/-- `delta_chroma_log2_weight_denom`. -/
def codeChromaDenom (slice : WPSlice) (wp : Wp) : BitWriter Unit :=
  if slice.bChroma then do
    check ((wp 1).uiLog2WeightDenom ≠ (wp 2).uiLog2WeightDenom)
      "Chroma blocks of different size not supported"
    xWriteSvlc ((wp 1).uiLog2WeightDenom - (wp 0).uiLog2WeightDenom)
  else return ()

/-- Both denominators, unless they are coded already. -/
def codeDenoms (slice : WPSlice) (wp : Wp) (bDenomCoded : Bool) : BitWriter Unit :=
  if !bDenomCoded then do
    xWriteUvlc (wp 0).uiLog2WeightDenom
    codeChromaDenom slice wp
  else return ()

/-- The loop body for the luma flags. The state is `bDenomCoded` and
`uiTotalSignalledWeightFlags`. -/
def codeLumaFlag (slice : WPSlice) (wp : Wp) (state : Bool × Nat) : BitWriter (Bool × Nat) := do
  codeDenoms slice wp state.1
  xWriteBool (wp 0).bPresentFlag
  return (true, state.2 + (wp 0).bPresentFlag.toNat)

/-- The loop body for the chroma flags. -/
def codeChromaFlag (wp : Wp) (uiTotalSignalledWeightFlags : Nat) : BitWriter Nat := do
  check ((wp 1).bPresentFlag ≠ (wp 2).bPresentFlag) "Inconsistent settings for chroma channels"
  xWriteBool (wp 1).bPresentFlag
  return uiTotalSignalledWeightFlags + 2 * (wp 1).bPresentFlag.toNat

/-- Weight and offset of the luma component. -/
def codeLumaWeight (wp : Wp) : BitWriter Unit :=
  if (wp 0).bPresentFlag then do
    xWriteSvlc ((wp 0).iWeight - 2 ^ (wp 0).uiLog2WeightDenom)
    xWriteSvlc (wp 0).iOffset
  else return ()

/-- Weight and offset of one chroma component. -/
def codeChromaWeight (slice : WPSlice) (wp : Wp) (j : Nat) : BitWriter Unit := do
  check ((wp 1).uiLog2WeightDenom ≠ (wp 2).uiLog2WeightDenom)
    "Chroma blocks of different size not supported"
  xWriteSvlc ((wp j).iWeight - 2 ^ (wp 1).uiLog2WeightDenom)
  xWriteSvlc ((wp j).iOffset - chromaPred (slice.offsetRange slice.bitDepthChroma) (wp j))

/-- Weights and offsets of the chroma components. -/
def codeChromaWeights (slice : WPSlice) (wp : Wp) : BitWriter Unit :=
  if slice.bChroma && (wp 1).bPresentFlag then
    (List.range' 1 (slice.numValidComp - 1)).foldlM (fun _ j => codeChromaWeight slice wp j) ()
  else return ()

/-- The loop body for weights and offsets. -/
def codeWeights (slice : WPSlice) (wp : Wp) : BitWriter Unit := do
  codeLumaWeight wp
  codeChromaWeights slice wp

/-- The chroma flags of one list. -/
def codeChromaFlags (slice : WPSlice) (wps : Nat → Wp) (count uiTotalSignalledWeightFlags : Nat) :
    BitWriter Nat :=
  if slice.bChroma then
    (List.range' 0 count).foldlM (fun total iRefIdx => codeChromaFlag (wps iRefIdx) total)
      uiTotalSignalledWeightFlags
  else return uiTotalSignalledWeightFlags

/-- The loop body for one reference picture list. -/
def codeList (slice : WPSlice) (table : WeightPredTable) (state : Bool × Nat) (iNumRef : Nat) :
    BitWriter (Bool × Nat) := do
  let count := slice.numRefIdx iNumRef
  let state ← (List.range' 0 count).foldlM
    (fun state iRefIdx => codeLumaFlag slice (table iNumRef iRefIdx) state) state
  let total ← codeChromaFlags slice (table iNumRef) count state.2
  (List.range' 0 count).foldlM (fun _ iRefIdx => codeWeights slice (table iNumRef iRefIdx)) ()
  return (state.1, total)

def xCodePredWeightTable (slice : WPSlice) (table : WeightPredTable) : BitWriter Unit :=
  if slice.enabled then do
    let state ← (List.range' 0 slice.iNbRef).foldlM (codeList slice table) (false, 0)
    check (state.2 > 24) "Too many signalled weight flags"
  else return ()

end Vtm.WeightPred
