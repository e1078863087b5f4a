import Vtm.Common.Bins
import Vtm.Common.PicHeader

/-!
# SAO and ALF parameters of a coding tree unit

The parameters that the slice data carries in front of the coding tree, and what their syntax
depends on.
-/

namespace Vtm.CtuFilters

open PicHeaders (ChromaFormat)

inductive ComponentID where
  | COMPONENT_Y
  | COMPONENT_Cb
  | COMPONENT_Cr
deriving DecidableEq, Repr

namespace ComponentID

/-- The value of the enumerator. -/
@[grind =] def index : ComponentID → Nat
  | COMPONENT_Y => 0
  | COMPONENT_Cb => 1
  | COMPONENT_Cr => 2

/-- The components in the order of the loops. -/
def all : List ComponentID := [COMPONENT_Y, COMPONENT_Cb, COMPONENT_Cr]

def isLuma (compID : ComponentID) : Bool := compID = COMPONENT_Y

def isChroma (compID : ComponentID) : Bool := !compID.isLuma

/-- `getFirstComponentOfChannel(toChannelType(compID)) == compID`. -/
def isFirstCompOfChType (compID : ComponentID) : Bool := compID ≠ COMPONENT_Cr

end ComponentID

inductive SAOMode where
  | SAO_MODE_OFF
  | SAO_MODE_NEW
  | SAO_MODE_MERGE
deriving DecidableEq, Repr

def SAO_MERGE_LEFT : Nat := 0

def SAO_MERGE_ABOVE : Nat := 1

/-- `SAO_TYPE_START_EO`, the first of four classes. -/
def SAO_TYPE_START_EO : Nat := 0

/-- `SAO_TYPE_START_BO`, which is `SAO_TYPE_BO`. -/
def SAO_TYPE_START_BO : Nat := 4

def NUM_SAO_EO_TYPES_LOG2 : Nat := 2

def NUM_SAO_BO_CLASSES_LOG2 : Nat := 5

/-- `NUM_SAO_BO_CLASSES`, and `MAX_NUM_SAO_CLASSES`. -/
def NUM_SAO_BO_CLASSES : Nat := 1 <<< NUM_SAO_BO_CLASSES_LOG2

/-- The enumerators of `SAOEOClasses`, in the order of their values. -/
def SAO_CLASS_EO_FULL_VALLEY : Nat := 0
def SAO_CLASS_EO_HALF_VALLEY : Nat := 1
def SAO_CLASS_EO_PLAIN : Nat := 2
def SAO_CLASS_EO_HALF_PEAK : Nat := 3
def SAO_CLASS_EO_FULL_PEAK : Nat := 4

def MAX_SAO_TRUNCATED_BITDEPTH : Nat := 10

def getMaxOffsetQVal (channelBitDepth : Nat) : Nat :=
  1 <<< (min channelBitDepth MAX_SAO_TRUNCATED_BITDEPTH - 5) - 1

def NUM_FIXED_FILTER_SETS : Nat := 16

structure SAOOffset where
  modeIdc : SAOMode
  typeIdc : Nat
  typeAuxInfo : Nat
  offset : Nat → Int

abbrev SAOBlkParam := ComponentID → SAOOffset

/-- What is read of the parameter sets, the slice and the APS that it names for chroma. -/
structure CodingStructure where
  SAOEnabledFlag : Bool
  ALFEnabledFlag : Bool
  chromaFormatIdc : ChromaFormat
  bitDepth : ComponentID → Nat
  saoEnabledLuma : Bool
  saoEnabledChroma : Bool
  tileGroupAlfEnabledFlag : ComponentID → Bool
  tileGroupNumAps : Nat
  numAlternativesChroma : Option Nat
  widthInCtus : Nat

namespace CodingStructure

variable (cs : CodingStructure)

/-- `slice_sao_chroma_flag`, with the chroma format. -/
def sliceSaoChromaFlag : Bool := cs.saoEnabledChroma ∧ cs.chromaFormatIdc ≠ .CHROMA_400

def sliceEnabled (compID : ComponentID) : Bool :=
  if compID.isLuma then cs.saoEnabledLuma else cs.sliceSaoChromaFlag

end CodingStructure

/-- A coding tree unit, with what `getCURestricted` finds to the left and above. -/
structure Ctu where
  ctuRsAddr : Nat
  leftAvail : Bool
  aboveAvail : Bool

/-- What a picture keeps by coding tree unit. -/
structure Picture where
  sao : Nat → SAOBlkParam
  alfCtuEnableFlag : ComponentID → Nat → Bool
  alfCtbFilterIndex : Nat → Nat
  alfCtuAlternativeData : ComponentID → Nat → Nat

/-- `leftCTUAddr` and `aboveCTUAddr`, if they are not negative. -/
def Ctu.neighbours (cs : CodingStructure) (ctu : Ctu) : List Nat :=
  (if ctu.leftAvail ∧ 1 ≤ ctu.ctuRsAddr then [ctu.ctuRsAddr - 1] else []) ++
    if ctu.aboveAvail ∧ cs.widthInCtus ≤ ctu.ctuRsAddr then [ctu.ctuRsAddr - cs.widthInCtus] else []

/-- The context of `alf_ctb_flag`. -/
def alfCtx (cs : CodingStructure) (pic : Picture) (ctu : Ctu) (compIdx : ComponentID) : Ctx :=
  ⟨.ctbAlfFlag, compIdx.index * 3 + (ctu.neighbours cs).countP (pic.alfCtuEnableFlag compIdx)⟩

end Vtm.CtuFilters
