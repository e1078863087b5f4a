import Vtm.Common.PicHeader

/-!
# Weighted prediction tables

`WPScalingParam` and the table of a slice, indexed by reference picture list,
reference index and component, with what the syntax of the table uses of the
slice, its picture parameter set and its sequence parameter set. The scaling values
that `initWpScaling` derives are left out.
-/

namespace Vtm.WeightPred

open Vtm.RefPics Vtm.PicHeaders

def MAX_NUM_REF : Nat := 16

structure WPScalingParam where
  bPresentFlag : Bool
  uiLog2WeightDenom : Nat
  iWeight : Int
  iOffset : Int
deriving DecidableEq, Repr

/-- The entry of one reference picture, by component. -/
abbrev Wp := Nat → WPScalingParam

/-- `m_weightPredTable`. -/
abbrev WeightPredTable := Nat → Nat → Wp

/-- What the table's syntax uses of the slice and its parameter sets. -/
structure WPSlice where
  sliceType : SliceType
  numRefIdx : Nat → Nat
  useWP : Bool
  wpBiPred : Bool
  chromaFormatIdc : ChromaFormat
  highPrecisionOffsetsEnabledFlag : Bool
  bitDepthLuma : Nat
  bitDepthChroma : Nat

namespace WPSlice

/-- `isChromaEnabled`. -/
def bChroma (slice : WPSlice) : Bool := slice.chromaFormatIdc ≠ .CHROMA_400

/-- `getNumberValidComponents`. -/
def numValidComp (slice : WPSlice) : Nat := if slice.bChroma then 3 else 1

/-- The number of reference picture lists of the slice. -/
def iNbRef (slice : WPSlice) : Nat := if slice.sliceType = .B_SLICE then 2 else 1

/-- Weighted prediction is enabled for the slice. -/
def enabled (slice : WPSlice) : Bool :=
  (slice.sliceType = .P_SLICE && slice.useWP) || (slice.sliceType = .B_SLICE && slice.wpBiPred)

/-- Half the range of the offsets of a channel. -/
def offsetRange (slice : WPSlice) (bitDepth : Nat) : Int :=
  if slice.highPrecisionOffsetsEnabledFlag then ((2 ^ bitDepth / 2 : Nat) : Int) else 128

end WPSlice

/-- The prediction of a chroma offset from its weight. -/
def chromaPred (range : Int) (wp : WPScalingParam) : Int :=
  range - ((range * wp.iWeight) >>> wp.uiLog2WeightDenom)

end Vtm.WeightPred
