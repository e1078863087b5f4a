import Vtm.Common.PPS
import Vtm.Common.ParameterSetMap

/-!
# Adaptation parameter sets

The parameters of the adaptive loop filter and of the luma mapping, as far as an APS
carries them. Arrays are functions; those of channel types are indexed by 0 for luma and
1 for chroma. A `short` or an `int` is an `Int`.
-/

namespace Vtm.AdaptationSets

def MAX_NUM_ALF_CLASSES : Nat := 25
def MAX_NUM_ALF_LUMA_COEFF : Nat := 13
def PIC_CODE_CW_BINS : Nat := 16

/-- `AlfParam`. The flags and shapes that the syntax does not carry are left out. -/
structure AlfParam where
  enabledFlag : Nat → Bool
  nonLinearFlag : Nat → Nat → Bool
  lumaCoeff : Nat → Int
  lumaClipp : Nat → Int
  numAlternativesChroma : Nat
  chromaCoeff : Nat → Nat → Int
  chromaClipp : Nat → Nat → Int
  filterCoeffDeltaIdx : Nat → Int
  numLumaFilters : Nat
  newFilterFlag : Nat → Bool

def AlfParam.reset : AlfParam where
  enabledFlag := fun _ => false
  nonLinearFlag := fun _ _ => false
  lumaCoeff := fun _ => 0
  lumaClipp := fun _ => 0
  numAlternativesChroma := 1
  chromaCoeff := fun _ _ => 0
  chromaClipp := fun _ _ => 0
  filterCoeffDeltaIdx := fun _ => 0
  numLumaFilters := 1
  newFilterFlag := fun _ => false

/-- `numCoeff` of `AlfFilterShape`. -/
def numCoeff (size : Nat) : Nat := size * size / 4 + 1

/-- `alfShape.numCoeff` in `alfFilter`. -/
def shapeCoeff (isChroma : Bool) : Nat := numCoeff (if isChroma then 5 else 7)

/-- `SliceReshapeInfo`, without the flags of the slice. -/
structure SliceReshapeInfo where
  reshaperModelMinBinIdx : Nat
  reshaperModelMaxBinIdx : Nat
  reshaperModelBinCWDelta : Nat → Int
  maxNbitsNeededDeltaCW : Int
  chrResScalingOffset : Int

/-- An `APS` with these parameters. -/
abbrev APS := Aps AlfParam SliceReshapeInfo

/-- Set one entry of an array. -/
def setAt {α : Type} (array : Nat → α) (i : Nat) (value : α) : Nat → α :=
  fun i' => if i' = i then value else array i'

@[simp] theorem setAt_self {α : Type} (array : Nat → α) (i : Nat) (value : α) :
    setAt array i value i = value := if_pos rfl

theorem setAt_of_ne {α : Type} {array : Nat → α} {i i' : Nat} {value : α} (apart : i' ≠ i) :
    setAt array i value i' = array i' := if_neg apart

end Vtm.AdaptationSets
