import Vtm.Common.APS
import Vtm.Decoder.ScalingList

/-!
# Reading adaptation parameter sets

The filter parameters are reset before they are read; the mapping is read into values that
are already there.
-/

namespace Vtm.AdaptationSets

open Vtm.Std Vtm.VLCReader

/-- An `int` stored in a `short`. -/
def toShort (i : Int) : Int := i.bmod (2 ^ 16)

/-- A `uint32_t` stored in an `int`. -/
def toInt (i : Nat) : Int := (i : Int).bmod (2 ^ 32)

/-- The prefix loop of `alfGolombDecode`. A round takes a bit or fails at the end of the
stream, so `fuel` above the bits left is never used up. -/
def golombZeros : Nat → Nat → BitReader Nat
  | 0, _ => fun _ => .error "out of fuel"
  | fuel + 1, numLeadingBits => do
      let b ← xReadFlag
      if b = 0 then golombZeros fuel (numLeadingBits + 1) else return numLeadingBits

/-- `numLeadingBits` of `alfGolombDecode`. -/
def golombLeadingBits : BitReader Nat := do
  let rounds ← unreadBits
  golombZeros (rounds + 1) 0

/-- The symbol of `alfGolombDecode` without its sign. Where its sum does not fit an `int`
the source has no defined value; here it is kept whole. -/
def golombSymbol (k numLeadingBits : Nat) : BitReader Nat := do
  let symbol := (2 ^ numLeadingBits - 1) * 2 ^ k
  if numLeadingBits + k > 0 then
    let bins ← xReadCode (numLeadingBits + k)
    return symbol + bins
  else return symbol

/-- The sign of `alfGolombDecode`. -/
def golombSigned (symbol : Nat) (signedVal : Bool) : BitReader Int := do
  if signedVal ∧ symbol ≠ 0 then
    let b ← xReadFlag
    return if b ≠ 0 then -(symbol : Int) else symbol
  else return symbol

def alfGolombDecode (k : Nat) (signedVal : Bool) : BitReader Int := do
  let numLeadingBits ← golombLeadingBits
  let symbol ← golombSymbol k numLeadingBits
  golombSigned symbol signedVal

/-- The loops of `alfFilter` over filters and coefficients. -/
def parseFilters (numFilters count : Nat) (parse : BitReader Int) (values : Nat → Int) :
    BitReader (Nat → Int) :=
  (List.range' 0 numFilters).foldlM (fun values ind =>
    (List.range' 0 count).foldlM (fun values i => do
      let value ← parse
      return setAt values (ind * MAX_NUM_ALF_LUMA_COEFF + i) value) values) values

/-- A coefficient of `alfFilter`, stored and checked. -/
def parseCoeff (isChroma : Bool) : BitReader Int := do
  let coeff ← alfGolombDecode 3 true
  check (isChroma ∧ (toShort coeff > 127 ∨ toShort coeff < -127))
    "AlfCoeffC shall be in the range of -127 to 127, inclusive"
  return toShort coeff

/-- A code of fixed length, stored in a `short`. -/
def parseShort (length : Nat) : BitReader Int := do
  let code ← xReadCode length
  return toShort code

/-- The clipping values of `alfFilter`. -/
def parseClipping (nonLinear isChroma : Bool) (numFilters : Nat) (clipp : Nat → Int) :
    BitReader (Nat → Int) :=
  if nonLinear then parseFilters numFilters (shapeCoeff isChroma - 1) (parseShort 2) clipp
  else return fun position =>
    if position / MAX_NUM_ALF_LUMA_COEFF < numFilters ∧
        position % MAX_NUM_ALF_LUMA_COEFF < shapeCoeff isChroma then 0
    else clipp position

/-- `alfFilter`: the coefficients and clipping values of one set of filters. -/
def parseAlfFilter (isChroma nonLinear : Bool) (numFilters : Nat) (coeff clipp : Nat → Int) :
    BitReader ((Nat → Int) × (Nat → Int)) := do
  let coeff ← parseFilters numFilters (shapeCoeff isChroma - 1) (parseCoeff isChroma) coeff
  let clipp ← parseClipping nonLinear isChroma numFilters clipp
  return (coeff, clipp)

/-- The filter indices of the classes in `parseAlfAps`. -/
def parseDeltaIdx (numLumaFilters : Nat) (filterCoeffDeltaIdx : Nat → Int) :
    BitReader (Nat → Int) :=
  if numLumaFilters > 1 then
    (List.range' 0 MAX_NUM_ALF_CLASSES).foldlM (fun values i => do
      let value ← parseShort (word (ceilLog2 numLumaFilters))
      return setAt values i value) filterCoeffDeltaIdx
  else return fun _ => 0

/-- The luma filters of `parseAlfAps`. -/
def parseAlfLuma (param : AlfParam) : BitReader AlfParam := do
  if param.newFilterFlag 0 then
    let nonLinear ← xReadBool
    let code ← xReadUvlc
    let deltaIdx ← parseDeltaIdx (code + 1) param.filterCoeffDeltaIdx
    let filters ← parseAlfFilter false nonLinear (code + 1) param.lumaCoeff param.lumaClipp
    return { param with
      nonLinearFlag := setAt param.nonLinearFlag 0 (setAt (param.nonLinearFlag 0) 0 nonLinear)
      numLumaFilters := code + 1
      filterCoeffDeltaIdx := deltaIdx
      lumaCoeff := filters.1
      lumaClipp := filters.2 }
  else return param

/-- One alternative of the chroma filters of `parseAlfAps`. -/
def parseAlternative (param : AlfParam) (altIdx : Nat) : BitReader AlfParam := do
  let nonLinear ← xReadBool
  let filters ← parseAlfFilter true nonLinear 1 (param.chromaCoeff altIdx)
    (param.chromaClipp altIdx)
  return { param with
    nonLinearFlag := setAt param.nonLinearFlag 1 (setAt (param.nonLinearFlag 1) altIdx nonLinear)
    chromaCoeff := setAt param.chromaCoeff altIdx filters.1
    chromaClipp := setAt param.chromaClipp altIdx filters.2 }

/-- The chroma filters of `parseAlfAps`. -/
def parseAlfChroma (param : AlfParam) : BitReader AlfParam := do
  if param.newFilterFlag 1 then
    let code ← xReadUvlc
    (List.range' 0 (code + 1)).foldlM parseAlternative
      { param with numAlternativesChroma := code + 1 }
  else return param

def parseAlfAps : BitReader AlfParam := do
  let luma ← xReadBool
  let chroma ← xReadBool
  let param := { AlfParam.reset with
    enabledFlag := fun _ => true
    newFilterFlag := fun channel => if channel = 0 then luma else chroma }
  check (param.newFilterFlag 0 = false ∧ param.newFilterFlag 1 = false)
    ("bitstream conformance error, alf_luma_filter_signal_flag and " ++
      "alf_chroma_filter_signal_flag shall not equal to zero at the same time")
  let param ← parseAlfLuma param
  parseAlfChroma param

/-- A magnitude of `length` bits, and a sign if it is not zero. -/
def parseSigned (length : Nat) : BitReader Int := do
  let code ← xReadCode length
  let absCW := toInt code
  if absCW > 0 then
    let code ← xReadCode 1
    return (1 - 2 * toInt code) * absCW
  else return (1 - 2 * toInt code) * absCW

/-- The bins of `parseLmcsAps`. -/
def parseBins (info : SliceReshapeInfo) : BitReader (Nat → Int) :=
  (List.range' info.reshaperModelMinBinIdx
    (info.reshaperModelMaxBinIdx + 1 - info.reshaperModelMinBinIdx)).foldlM (fun deltas i => do
      let delta ← parseSigned (word info.maxNbitsNeededDeltaCW)
      return setAt deltas i delta) info.reshaperModelBinCWDelta

def parseLmcsAps (info : SliceReshapeInfo) : BitReader SliceReshapeInfo := do
  let minIdx ← xReadUvlc
  let deltaMax ← xReadUvlc
  let prec ← xReadUvlc
  let info := { info with
    reshaperModelBinCWDelta := fun i =>
      if i < PIC_CODE_CW_BINS then 0 else info.reshaperModelBinCWDelta i
    reshaperModelMinBinIdx := minIdx
    reshaperModelMaxBinIdx := word ((PIC_CODE_CW_BINS : Int) - 1 - deltaMax)
    maxNbitsNeededDeltaCW := toInt ((prec + 1) % 2 ^ 32) }
  check (¬ info.maxNbitsNeededDeltaCW > 0) "info.maxNbitsNeededDeltaCW > 0"
  let deltas ← parseBins info
  let offset ← parseSigned 3
  return { info with reshaperModelBinCWDelta := deltas, chrResScalingOffset := offset }

/-- The type with a value. -/
def apsTypeOf (code : Nat) : ApsType :=
  match code with
  | 0 => .ALF_APS
  | 1 => .LMCS_APS
  | 2 => .SCALING_LIST_APS
  | value + 3 => .reserved (Fin.ofNat 5 value)

/-- The content of an APS by its type. -/
def parseApsContent (aps : APS) : BitReader APS :=
  match aps.apsType with
  | .ALF_APS => do
      let param ← parseAlfAps
      return { aps with alfAPSParam := param }
  | .LMCS_APS => do
      let info ← parseLmcsAps aps.reshapeAPSInfo
      return { aps with reshapeAPSInfo := info }
  | .SCALING_LIST_APS => do
      let info ← aps.scalingListApsInfo.parseScalingList
      return { aps with scalingListApsInfo := info }
  | .reserved _ => return aps

/-- The loop of `parseAPS` over `aps_extension_data_flag`. A round takes a bit or fails, so
`fuel` above the bits left is never used up. -/
def skipExtensionData : Nat → BitReader Unit
  | 0 => fun _ => .error "out of fuel"
  | fuel + 1 => do
      let more ← xMoreRbspData
      if more then
        let _ ← xReadFlag
        skipExtensionData fuel
      else return ()

/-- `aps_extension_flag` and what follows it. -/
def parseApsExtension : BitReader Unit := do
  let code ← xReadFlag
  if code ≠ 0 then
    let rounds ← unreadBits
    skipExtensionData (rounds + 1)
  else return ()

/-- `parseAPS` in front of the trailing bits. -/
def parseApsElements (aps : APS) : BitReader APS := do
  let apsId ← xReadCode 5
  let apsType ← xReadCode 3
  let aps ← parseApsContent { aps with
    apsId := Fin.ofNat 32 apsId
    apsType := apsTypeOf apsType }
  parseApsExtension
  return aps

def parseAPS (aps : APS) : BitReader APS := do
  let aps ← parseApsElements aps
  xReadRbspTrailingBits
  return aps

end Vtm.AdaptationSets
