import Vtm.Common.WeightPred
import Vtm.Decoder.VLCReader

/-!
# Reading the weighted prediction table

The table is read into one that already has values.
-/

namespace Vtm.WeightPred

open Vtm.Std Vtm.VLCReader

def Clip3 (minVal maxVal a : Int) : Int := min (max minVal a) maxVal

/-- Set component `j`. -/
def setComp (wp : Wp) (j : Nat) (param : WPScalingParam) : Wp :=
  fun j' => if j' = j then param else wp j'

/-- Change every chroma component. -/
def mapChroma (slice : WPSlice) (wp : Wp) (f : WPScalingParam → WPScalingParam) : Wp :=
  fun j => if 1 ≤ j ∧ j < slice.numValidComp then f (wp j) else wp j

/-- `delta_chroma_log2_weight_denom`. -/
def parseChromaDenom (slice : WPSlice) (uiLog2WeightDenomLuma : Nat) : BitReader Nat :=
  if slice.bChroma then do
    let iDeltaDenom ← xReadSvlc
    check (iDeltaDenom + uiLog2WeightDenomLuma < 0) "Invalid code"
    check (iDeltaDenom + uiLog2WeightDenomLuma > 7) "Invalid code"
    return (iDeltaDenom + uiLog2WeightDenomLuma).toNat
  else return 0

/-- The loop body for the luma flags, with the flags it counts. -/
def parseLumaFlag (slice : WPSlice) (uiLog2WeightDenomLuma uiLog2WeightDenomChroma : Nat)
    (wp : Wp) : BitReader (Wp × Nat) := do
  let wp := setComp wp 0 { wp 0 with uiLog2WeightDenom := uiLog2WeightDenomLuma }
  let wp := mapChroma slice wp fun param =>
    { param with uiLog2WeightDenom := uiLog2WeightDenomChroma }
  let uiCode ← xReadBool
  return (setComp wp 0 { wp 0 with bPresentFlag := uiCode }, uiCode.toNat)

/-- The loop body for the chroma flags. -/
def parseChromaFlag (slice : WPSlice) (wp : Wp) : BitReader (Wp × Nat) := do
  let uiCode ← xReadBool
  let wp := mapChroma slice wp fun param => { param with bPresentFlag := uiCode }
  return (wp, 2 * (wp 1).bPresentFlag.toNat)

/-- Weight and offset of the luma component. -/
def parseLumaWeight (slice : WPSlice) (param : WPScalingParam) : BitReader WPScalingParam :=
  if param.bPresentFlag then do
    let iDeltaWeight ← xReadSvlc
    check (iDeltaWeight < -128) "Invalid code"
    check (iDeltaWeight > 127) "Invalid code"
    let iOffset ← xReadSvlc
    let range := slice.offsetRange slice.bitDepthLuma
    check (iOffset < -range) "Offset out of range"
    check (iOffset ≥ range) "Offset out of range"
    return { param with
      iWeight := iDeltaWeight + 2 ^ param.uiLog2WeightDenom
      iOffset := iOffset }
  else return { param with iWeight := 2 ^ param.uiLog2WeightDenom, iOffset := 0 }

/-- Weight and offset of one chroma component. -/
def parseChromaWeight (slice : WPSlice) (wp : Wp) (j : Nat) : BitReader Wp := do
  let range := slice.offsetRange slice.bitDepthChroma
  let iDeltaWeight ← xReadSvlc
  check (iDeltaWeight < -128) "Invalid code"
  check (iDeltaWeight > 127) "Invalid code"
  let param := { wp j with iWeight := iDeltaWeight + 2 ^ (wp j).uiLog2WeightDenom }
  let iDeltaChroma ← xReadSvlc
  check (iDeltaChroma < -4 * range) "Invalid code"
  check (iDeltaChroma ≥ 4 * range) "Invalid code"
  return setComp wp j { param with
    iOffset := Clip3 (-range) (range - 1) (iDeltaChroma + chromaPred range param) }

/-- Weights and offsets of the chroma components. -/
def parseChromaWeights (slice : WPSlice) (wp : Wp) : BitReader Wp :=
  if slice.bChroma then
    if (wp 1).bPresentFlag then
      (List.range' 1 (slice.numValidComp - 1)).foldlM (parseChromaWeight slice) wp
    else return mapChroma slice wp fun param =>
      { param with iWeight := 2 ^ param.uiLog2WeightDenom, iOffset := 0 }
  else return wp

/-- The loop body for weights and offsets. It counts no flags. -/
def parseWeights (slice : WPSlice) (wp : Wp) : BitReader (Wp × Nat) := do
  let luma ← parseLumaWeight slice (wp 0)
  let wp ← parseChromaWeights slice (setComp wp 0 luma)
  return (wp, 0)

/-- One loop over the active references of a list. The state is the table and
`uiTotalSignalledWeightFlags`. -/
def overRefs (iNumRef count : Nat) (body : Wp → BitReader (Wp × Nat))
    (state : WeightPredTable × Nat) : BitReader (WeightPredTable × Nat) :=
  (List.range' 0 count).foldlM (fun state iRefIdx => do
    let result ← body (state.1 iNumRef iRefIdx)
    return (fun iNumRef' iRefIdx' =>
      if iNumRef' = iNumRef ∧ iRefIdx' = iRefIdx then result.1 else state.1 iNumRef' iRefIdx',
      state.2 + result.2)) state

/-- The flags of the references that are not active are cleared. -/
def clearInactive (iNumRef count : Nat) (table : WeightPredTable) : WeightPredTable :=
  fun iNumRef' iRefIdx j =>
    if iNumRef' = iNumRef ∧ count ≤ iRefIdx ∧ iRefIdx < MAX_NUM_REF ∧ j < 3 then
      { table iNumRef' iRefIdx j with bPresentFlag := false }
    else table iNumRef' iRefIdx j

/-- The chroma flags of one list. -/
def parseChromaFlags (slice : WPSlice) (iNumRef : Nat) (state : WeightPredTable × Nat) :
    BitReader (WeightPredTable × Nat) :=
  if slice.bChroma then
    overRefs iNumRef (slice.numRefIdx iNumRef) (parseChromaFlag slice) state
  else return state

/-- The loop body for one reference picture list. -/
def parseList (slice : WPSlice) (uiLog2WeightDenomLuma uiLog2WeightDenomChroma : Nat)
    (state : WeightPredTable × Nat) (iNumRef : Nat) : BitReader (WeightPredTable × Nat) := do
  let count := slice.numRefIdx iNumRef
  let state ← overRefs iNumRef count
    (parseLumaFlag slice uiLog2WeightDenomLuma uiLog2WeightDenomChroma) state
  let state ← parseChromaFlags slice iNumRef state
  let state ← overRefs iNumRef count (parseWeights slice) state
  return (clearInactive iNumRef count state.1, state.2)

def parsePredWeightTable (slice : WPSlice) (table : WeightPredTable) :
    BitReader WeightPredTable := do
  let uiLog2WeightDenomLuma ← xReadUvlc
  check (uiLog2WeightDenomLuma > 7) "Invalid code"
  let uiLog2WeightDenomChroma ← parseChromaDenom slice uiLog2WeightDenomLuma
  let state ← (List.range' 0 slice.iNbRef).foldlM
    (parseList slice uiLog2WeightDenomLuma uiLog2WeightDenomChroma) (table, 0)
  check (state.2 > 24) "Too many weight flag signalled"
  return state.1

end Vtm.WeightPred
