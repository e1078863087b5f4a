import Vtm.Slice.MissingRefPics

/-!
# Reference picture list structures

`ReferencePictureList` with the fields that the bitstream carries, and the candidate lists
of a sequence parameter set. A list in a header is its own local list, or a candidate of the
sequence parameter set.
-/

namespace Vtm.RefPics

/-- `ReferencePictureList`, with `m_ltrp_in_slice_header_flag`. -/
structure RefPicListStruct extends ReferencePictureList where
  ltrpInSliceHeaderFlag : Bool

namespace RefPicListStruct

/-- `ReferencePictureList()`. The MSB fields of an entry are set with its identifier. -/
def empty : RefPicListStruct where
  numberOfShorttermPictures := 0
  numberOfLongtermPictures := 0
  isRefPicLongterm := fun _ => false
  refPicIdentifier := fun _ => 0
  deltaPocMSBPresentFlag := fun _ => false
  deltaPocMSBCycleLT := fun _ => 0
  ltrpInSliceHeaderFlag := false

def setRefPicIdentifier (rpl : RefPicListStruct) (idx : Nat) (identifier : Int)
    (isLongterm : Bool) : RefPicListStruct :=
  { rpl with
    refPicIdentifier := Function.update rpl.refPicIdentifier idx identifier
    isRefPicLongterm := Function.update rpl.isRefPicLongterm idx isLongterm
    deltaPocMSBPresentFlag := Function.update rpl.deltaPocMSBPresentFlag idx false
    deltaPocMSBCycleLT := Function.update rpl.deltaPocMSBCycleLT idx 0 }

end RefPicListStruct

/-- `SPS`, as far as the candidate lists use it. -/
structure RplSPS where
  useWP : Bool
  useWPBiPred : Bool
  bitsForPOC : Nat
  longTermRefsPresent : Bool
  rpl1CopyFromRPL0Flag : Bool
  rplList0 : List RefPicListStruct
  rplList1 : List RefPicListStruct

/-- Without weighted prediction a picture is not listed twice in a row. -/
@[grind =] def RplSPS.isForbiddenZeroDeltaPoc (sps : RplSPS) : Bool := !sps.useWP && !sps.useWPBiPred

/-- `m_pRPL0` or `m_pRPL1`: the local list, with the list index -1, or a candidate. -/
inductive RplPointer where
  | localRPL
  | candidate (idx : Nat)
deriving DecidableEq, Repr

/-- One of the two lists of a slice. -/
structure SliceList where
  rpl : RplPointer
  localRPL : RefPicListStruct
  /-- What was read as `slice_poc_lsb_lt` for each entry. -/
  slicePocLsbLt : Nat → Option Nat

/-- `PPS`, as far as the lists use it. -/
structure RplPPS where
  ppsRefPicListSPSIdc : RefPicList → Nat
  rpl1IdxPresentFlag : Bool

/-- The candidates for a list. -/
def RplSPS.rplList (sps : RplSPS) : RefPicList → List RefPicListStruct
  | .REF_PIC_LIST_0 => sps.rplList0
  | .REF_PIC_LIST_1 => sps.rplList1

/-- `getReferencePictureList`: `create` makes one list more than there are candidates. -/
def RplSPS.getReferencePictureList (sps : RplSPS) (X : RefPicList) (idx : Nat) :
    RefPicListStruct :=
  (sps.rplList X).getD idx .empty

/-- `getRPL0` or `getRPL1`. -/
@[grind =] def SliceList.getRPL (list : SliceList) (sps : RplSPS) (X : RefPicList) : RefPicListStruct :=
  match list.rpl with
  | .localRPL => list.localRPL
  | .candidate idx => sps.getReferencePictureList X idx

end Vtm.RefPics
