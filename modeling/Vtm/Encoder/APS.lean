import Vtm.Common.APS
import Vtm.Encoder.ScalingList

/-!
# Writing adaptation parameter sets
-/

namespace Vtm.AdaptationSets

open Vtm.Std Vtm.VLCWriter

/-- The loop of `alfGolombEncode`, with the rest of the symbol and the last `k`. -/
def golombPrefix (symbol k : Nat) : BitWriter (Nat × Nat) :=
  if 2 ^ k ≤ symbol then do
    xWriteFlag 0
    golombPrefix (symbol - 2 ^ k) (k + 1)
  else return (symbol, k)
termination_by symbol
decreasing_by
  have positive := Nat.two_pow_pos k
  omega

/-- The suffix of `alfGolombEncode`. -/
def golombSuffix (symbol k : Nat) : BitWriter Unit :=
  if k > 0 then xWriteCode symbol k else return ()

/-- The sign of `alfGolombEncode`. -/
def golombSign (coeff : Int) (signedCoeff : Bool) : BitWriter Unit :=
  if signedCoeff ∧ coeff ≠ 0 then xWriteFlag (if coeff < 0 then 1 else 0) else return ()

def alfGolombEncode (coeff : Int) (k : Nat) (signedCoeff : Bool) : BitWriter Unit := do
  let rest ← golombPrefix coeff.natAbs k
  xWriteFlag 1
  golombSuffix rest.1 rest.2
  golombSign coeff signedCoeff

/-- The loops of `alfFilter` over filters and coefficients. -/
def codeFilters (numFilters count : Nat) (code : Nat → BitWriter Unit) : BitWriter Unit :=
  (List.range' 0 numFilters).foldlM (fun _ ind =>
    (List.range' 0 count).foldlM (fun _ i => code (ind * MAX_NUM_ALF_LUMA_COEFF + i)) ()) ()

/-- The clipping values of `alfFilter`. -/
def codeClipping (nonLinear : Bool) (numFilters count : Nat) (clipp : Nat → Int) :
    BitWriter Unit :=
  if nonLinear then
    codeFilters numFilters count fun position => xWriteCode (word (clipp position)) 2
  else return ()

/-- `alfFilter`. -/
def codeAlfFilter (alfParam : AlfParam) (isChroma : Bool) (altIdx : Nat) : BitWriter Unit := do
  let coeff := if isChroma then alfParam.chromaCoeff altIdx else alfParam.lumaCoeff
  let clipp := if isChroma then alfParam.chromaClipp altIdx else alfParam.lumaClipp
  let numFilters := if isChroma then 1 else alfParam.numLumaFilters
  codeFilters numFilters (shapeCoeff isChroma - 1)
    fun position => alfGolombEncode (coeff position) 3 true
  codeClipping (alfParam.nonLinearFlag isChroma.toNat altIdx) numFilters (shapeCoeff isChroma - 1)
    clipp

/-- The filter indices of the classes in `codeAlfAps`. -/
def codeDeltaIdx (param : AlfParam) : BitWriter Unit :=
  if param.numLumaFilters > 1 then
    (List.range' 0 MAX_NUM_ALF_CLASSES).foldlM (fun _ i =>
      xWriteCode (word (param.filterCoeffDeltaIdx i)) (word (ceilLog2 param.numLumaFilters))) ()
  else return ()

/-- The luma filters of `codeAlfAps`. -/
def codeAlfLuma (param : AlfParam) : BitWriter Unit :=
  if param.newFilterFlag 0 then do
    xWriteBool (param.nonLinearFlag 0 0)
    xWriteUvlc (word (param.numLumaFilters - 1))
    codeDeltaIdx param
    codeAlfFilter param false 0
  else return ()

/-- The chroma filters of `codeAlfAps`. -/
def codeAlfChroma (param : AlfParam) : BitWriter Unit :=
  if param.newFilterFlag 1 then do
    xWriteUvlc (word (param.numAlternativesChroma - 1))
    (List.range' 0 param.numAlternativesChroma).foldlM (fun _ altIdx => do
      xWriteBool (param.nonLinearFlag 1 altIdx)
      codeAlfFilter param true altIdx) ()
  else return ()

def codeAlfAps (param : AlfParam) : BitWriter Unit := do
  xWriteBool (param.newFilterFlag 0)
  xWriteBool (param.newFilterFlag 1)
  codeAlfLuma param
  codeAlfChroma param

/-- A magnitude of `length` bits, and a sign if it is not zero. -/
def codeSigned (delta : Int) (length : Nat) : BitWriter Unit := do
  xWriteCode delta.natAbs length
  if delta.natAbs > 0 then xWriteFlag (if delta < 0 then 1 else 0) else return ()

def codeLmcsAps (param : SliceReshapeInfo) : BitWriter Unit := do
  xWriteUvlc param.reshaperModelMinBinIdx
  xWriteUvlc (word ((PIC_CODE_CW_BINS : Int) - 1 - param.reshaperModelMaxBinIdx))
  check (¬ param.maxNbitsNeededDeltaCW > 0) "param.maxNbitsNeededDeltaCW > 0"
  xWriteUvlc (word (param.maxNbitsNeededDeltaCW - 1))
  (List.range' param.reshaperModelMinBinIdx
    (param.reshaperModelMaxBinIdx + 1 - param.reshaperModelMinBinIdx)).foldlM
    (fun _ i => codeSigned (param.reshaperModelBinCWDelta i) (word param.maxNbitsNeededDeltaCW)) ()
  codeSigned param.chrResScalingOffset 3

/-- The content of an APS by its type. -/
def codeApsContent (aps : APS) : BitWriter Unit :=
  match aps.apsType with
  | .ALF_APS => codeAlfAps aps.alfAPSParam
  | .LMCS_APS => codeLmcsAps aps.reshapeAPSInfo
  | .SCALING_LIST_APS => aps.scalingListApsInfo.codeScalingList
  | .reserved _ => return ()

/-- `codeAPS` in front of the trailing bits. -/
def codeApsElements (aps : APS) : BitWriter Unit := do
  xWriteCode aps.apsId 5
  xWriteCode aps.apsType.code 3
  codeApsContent aps
  xWriteFlag 0

def codeAPS (aps : APS) : BitWriter Unit := do
  codeApsElements aps
  xWriteRbspTrailingBits

end Vtm.AdaptationSets
