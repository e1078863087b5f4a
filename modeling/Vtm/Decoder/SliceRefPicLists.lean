import Vtm.Common.PPS
import Vtm.Decoder.RefPicListStruct

/-!
# Reference picture lists in the slice header

The part of `parseSliceHeader` that reads both reference picture lists when the picture
header does not carry them. What is read for the long-term entries always goes to the local
list.
-/

namespace Vtm.RefPics

open Vtm.Std Vtm.VLCReader

/-- `ref_pic_list_sps_flag`, or its value by the picture parameter set. -/
def parseRefPicListSpsFlag (sps : RplSPS) (pps : RplPPS) (X : RefPicList) : BitReader Nat :=
  if (sps.rplList X).length > 0 then
    if pps.ppsRefPicListSPSIdc X = 0 then xReadFlag
    else return pps.ppsRefPicListSPSIdc X - 1
  else return 0

/-- The list is one of the candidates. -/
def parseCandidateIdx (sps : RplSPS) (X : RefPicList) (list : SliceList) : BitReader SliceList :=
  if (sps.rplList X).length > 1 then do
    let numBits := (ceilLog2 (sps.rplList X).length).toNat
    let uiCode ← xReadCode numBits
    check (uiCode > (sps.rplList X).length) "getReferencePictureList outside the vector"
    return { list with rpl := .candidate uiCode }
  else return { list with rpl := .candidate 0 }

/-- The list is carried in the slice header. -/
def parseExplicitList (sps : RplSPS) (list : SliceList) : BitReader SliceList := do
  let localRPL ← parseRefPicList sps .empty
  return { list with rpl := .localRPL, localRPL := localRPL }

/-- The loop that resets the MSBs of all entries of the local list. -/
def resetDeltaPocMSB (localRPL : RefPicListStruct) (numEntries : Nat) : RefPicListStruct :=
  (List.range numEntries).foldl (fun localRPL i =>
    { localRPL with
      deltaPocMSBPresentFlag := Function.update localRPL.deltaPocMSBPresentFlag i false
      deltaPocMSBCycleLT := Function.update localRPL.deltaPocMSBCycleLT i 0 }) localRPL

/-- The reset changes nothing but the MSBs. -/
theorem resetDeltaPocMSB_eq (localRPL : RefPicListStruct) (numEntries : Nat) :
    ∃ present cycle, resetDeltaPocMSB localRPL numEntries =
      { localRPL with
        deltaPocMSBPresentFlag := present
        deltaPocMSBCycleLT := cycle } := by
  unfold resetDeltaPocMSB
  induction numEntries with
  | zero => exact ⟨_, _, rfl⟩
  | succ numEntries ih =>
      obtain ⟨present, cycle, reached⟩ := ih
      rw [List.range_succ, List.foldl_append, reached]
      exact ⟨_, _, rfl⟩

/-- The LSBs of long-term entry `i`. -/
def parseSlicePocLsb (sps : RplSPS) (X : RefPicList) (list : SliceList) (i : Nat) :
    BitReader SliceList :=
  if (list.getRPL sps X).ltrpInSliceHeaderFlag then do
    let uiCode ← xReadCode sps.bitsForPOC
    return { list with
      localRPL := list.localRPL.setRefPicIdentifier i uiCode true
      slicePocLsbLt := Function.update list.slicePocLsbLt i (some uiCode) }
  else return list

/-- The MSBs of long-term entry `i`. -/
def parseDeltaPocMSB (list : SliceList) (i : Nat) : BitReader SliceList := do
  let present ← xReadBool
  let localRPL := { list.localRPL with
    deltaPocMSBPresentFlag := Function.update list.localRPL.deltaPocMSBPresentFlag i present }
  if present then
    let uiCode ← xReadUvlc
    return { list with
      localRPL := { localRPL with
        deltaPocMSBCycleLT := Function.update localRPL.deltaPocMSBCycleLT i uiCode } }
  else return { list with localRPL := localRPL }

/-- A round of the loop over the long-term entries. -/
def parseLongTermEntry (sps : RplSPS) (X : RefPicList) (list : SliceList) (i : Nat) :
    BitReader SliceList :=
  if (list.getRPL sps X).isRefPicLongterm i then do
    let list ← parseSlicePocLsb sps X list i
    parseDeltaPocMSB list i
  else return list

/-- What follows a list: the LSBs and MSBs of its long-term entries. -/
def parseLongTermEntries (sps : RplSPS) (X : RefPicList) (list : SliceList) :
    BitReader SliceList :=
  let rpl := list.getRPL sps X
  let numEntries := rpl.numberOfLongtermPictures + rpl.numberOfShorttermPictures
  let list := { list with localRPL := resetDeltaPocMSB list.localRPL numEntries }
  if rpl.numberOfLongtermPictures ≠ 0 then
    (List.range numEntries).foldlM (parseLongTermEntry sps X) list
  else return list

/-- List 0. -/
def parseRefPicList0 (sps : RplSPS) (pps : RplPPS) (list : SliceList) : BitReader SliceList := do
  let uiCode ← parseRefPicListSpsFlag sps pps .REF_PIC_LIST_0
  let list ←
    if uiCode = 0 then parseExplicitList sps list
    else parseCandidateIdx sps .REF_PIC_LIST_0 list
  parseLongTermEntries sps .REF_PIC_LIST_0 list

/-- Where list 1 is taken from; without an index of its own it goes by list 0. -/
def parseRefPicList1Idx (sps : RplSPS) (pps : RplPPS) (list0 list1 : SliceList) :
    BitReader SliceList :=
  if ¬ pps.rpl1IdxPresentFlag then
    match list0.rpl with
    | .localRPL => parseExplicitList sps list1
    | .candidate idx => do
        check (idx > sps.rplList1.length) "getReferencePictureList outside the vector"
        return { list1 with rpl := .candidate idx }
  else do
    let uiCode ← parseRefPicListSpsFlag sps pps .REF_PIC_LIST_1
    if uiCode = 1 then parseCandidateIdx sps .REF_PIC_LIST_1 list1
    else parseExplicitList sps list1

/-- List 1. -/
def parseRefPicList1 (sps : RplSPS) (pps : RplPPS) (list0 list1 : SliceList) :
    BitReader SliceList := do
  let list1 ← parseRefPicList1Idx sps pps list0 list1
  parseLongTermEntries sps .REF_PIC_LIST_1 list1

/-- Both lists, from the local lists that earlier slices left. -/
def parseSliceRefPicLists (sps : RplSPS) (pps : RplPPS) (before : RefPicList → RefPicListStruct) :
    BitReader (RefPicList → SliceList) := do
  let list0 ← parseRefPicList0 sps pps ⟨.localRPL, before .REF_PIC_LIST_0, fun _ => none⟩
  let list1 ← parseRefPicList1 sps pps list0 ⟨.localRPL, before .REF_PIC_LIST_1, fun _ => none⟩
  return fun
    | .REF_PIC_LIST_0 => list0
    | .REF_PIC_LIST_1 => list1

end Vtm.RefPics
