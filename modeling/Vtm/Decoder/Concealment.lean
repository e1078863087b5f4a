import Vtm.Decoder.DecLib
import Vtm.Slice.MissingRefPics

/-!
# Lost reference pictures

The picture buffer of `DecLib` with what `xGetNewPicBuffer` looks at, and the loops of
`xDecodeSlice` that fill in the reference pictures a slice does not find. A picture is
named by its place in the list, or by the address of its object.
-/

namespace Vtm.LostPics

open Vtm.RefPics

/-- What `xGetNewPicBuffer` compares with a picture it takes again. -/
structure Format where
  picWidthInLumaSamples : Nat
  picHeightInLumaSamples : Nat
  maxCUWidth : Nat
  maxCUHeight : Nat
deriving DecidableEq, Repr

/-- An SPS with the format that it and a PPS give a picture. -/
structure ParameterSets where
  sps : Dec.SPS
  format : Format
deriving DecidableEq, Repr

/-- A slice object of a picture, as far as `xUpdatePreviousTid0POC` reads it. -/
structure SliceObject where
  poc : Int
  tLayer : Nat
  nalUnitType : NalUnitType
deriving DecidableEq, Repr

/-- `Picture`. `buffer` stands for the address of the object. -/
structure Picture extends RefPics.Picture where
  buffer : Nat
  reconstructed : Bool
  neededForOutput : Bool
  format : Format
  sps : Dec.SPS
  slices : List SliceObject
deriving DecidableEq, Repr

/-- The slice pilot behind its header. -/
structure Slice extends RefPics.Slice where
  nalUnitType : NalUnitType
  tLayer : Nat
  noIncorrectPicOutputFlag : Bool

/-- `DecLib`, as far as pictures are lost, skipped and put in the buffer. `first` stands
for the first parameter sets of the manager, `pilotPic` for the layer of the picture the
slice pilot still points to, `nextBuffer` for the address the next `new Picture` gets. -/
structure DecLib where
  listPic : List Picture
  nextBuffer : Nat
  first : ParameterSets
  pilotPic : Option Nat
  pcPic : Option Nat
  prevTid0POC : Int
  pocRandomAccess : Int
  prevPOC : Int
  picHeader : Dec.PicHeader
  picHeaderValid : Bool
  firstSliceInPicture : Bool
  firstSliceInSequence : Bool
  firstSliceInBitstream : Bool
  lastNoIncorrectPicOutputFlag : Bool
  lastPOCNoOutputPriorPics : Int
  isNoOutputPriorPics : Bool
deriving DecidableEq, Repr

namespace Picture

/-- A new picture. Its POC and `cs` are set when it is decoded. -/
def create (buffer layerId : Nat) (sets : ParameterSets) : Picture where
  poc := 0
  layerId := layerId
  referenced := false
  longTerm := false
  bitsForPOC := sets.sps.bitsForPOC
  buffer := buffer
  reconstructed := false
  neededForOutput := false
  format := sets.format
  sps := sets.sps
  slices := []

/-- A picture that `xGetNewPicBuffer` takes again. -/
def isFree (pic : Picture) : Bool :=
  !pic.reconstructed && !pic.neededForOutput || !pic.referenced && !pic.neededForOutput

/-- A picture taken again; one of another format is destroyed and created anew. -/
@[grind =] def takeAgain (format : Format) (layerId : Nat) (pic : Picture) : Picture :=
  let pic :=
    if pic.format ≠ format then { pic with layerId := layerId, format := format, slices := [] }
    else pic
  { pic with neededForOutput := false, reconstructed := false }

/-- `slices[0]->setPOC`. -/
def setFirstPOC (poc : Int) : List SliceObject → List SliceObject
  | [] => []
  | slice :: rest => { slice with poc := poc } :: rest

/-- What `xCreateLostPicture` writes into the fill picture. -/
def fillLost (iLostPoc : Int) (pic : Picture) : Picture :=
  { pic with
    referenced := true
    slices := setFirstPOC iLostPoc pic.slices
    reconstructed := true
    neededForOutput := true }

/-- What `xCreateUnavailablePicture` writes into it. -/
def fillUnavailable (iUnavailablePoc : Int) (longTermFlag : Bool) (pic : Picture) : Picture :=
  { pic with
    referenced := true
    longTerm := longTermFlag
    slices := setFirstPOC iUnavailablePoc pic.slices
    reconstructed := true
    neededForOutput := false }

end Picture

/-- `checkThatAllRefPicsAreAvailable` with `refPicIndex`, over the buffer. -/
def checkThatAllRefPicsAreAvailable (slice : Slice) (rpl : ReferencePictureList)
    (listPic : List Picture) : Int × Nat × List Picture :=
  let (notPresentPoc, refPicIndex, dpb) :=
    checkThatAllRefPicsAreAvailableIndex slice.toSlice rpl (listPic.map (·.toPicture))
  (notPresentPoc, refPicIndex,
    List.zipWith (fun pic marked => { pic with toPicture := marked }) listPic dpb)

namespace DecLib

/-- `new Picture()` at the end of the list; the result is its place. -/
def pushPic (lib : DecLib) (sets : ParameterSets) (layerId : Nat) : DecLib × Nat :=
  ({ lib with
      listPic := lib.listPic ++ [.create lib.nextBuffer layerId sets]
      nextBuffer := lib.nextBuffer + 1 }, lib.listPic.length)

/-- `xGetNewPicBuffer`; the result is the place of the picture. -/
def xGetNewPicBuffer (lib : DecLib) (sets : ParameterSets) (temporalLayer layerId : Nat) :
    DecLib × Nat :=
  if lib.listPic.length < sets.sps.getMaxDecPicBuffering temporalLayer then lib.pushPic sets layerId
  else
    match lib.listPic.findIdx? Picture.isFree with
    | some i =>
        ({ lib with
            listPic := lib.listPic.modify i (Picture.takeAgain sets.format layerId) }, i)
    | none => lib.pushPic sets layerId

def xUpdatePreviousTid0POC (lib : DecLib) (pSlice : SliceObject) : DecLib :=
  if pSlice.tLayer = 0 ∧ pSlice.nalUnitType ≠ .codedSliceRasl ∧
      pSlice.nalUnitType ≠ .codedSliceRadl then
    { lib with prevTid0POC := pSlice.poc }
  else lib

/-- The writes of the two routines for a lost picture, `slice` being `slices[0]` of the
fill picture. -/
def writeFill (lib : DecLib) (i : Nat) (poc : Int) (slice : SliceObject)
    (fill : Picture → Picture) : DecLib :=
  let lib := { lib with listPic := lib.listPic.modify i fill }
  let lib := lib.xUpdatePreviousTid0POC { slice with poc := poc }
  { lib with
    pocRandomAccess := if lib.pocRandomAccess = Dec.maxInt then poc else lib.pocRandomAccess }

/-- What the two routines for a lost picture have in common; the result has the place of
the fill picture. -/
def fillPicture (lib : DecLib) (poc : Int) (layerId : Nat) (fill : Picture → Picture) :
    Except String (DecLib × Nat) :=
  let got := lib.xGetNewPicBuffer lib.first 0 layerId
  match (got.1.listPic[got.2]?).elim [] Picture.slices with
  | [] => .error "No slices in picture"
  | slice :: _ => .ok (got.1.writeFill got.2 poc slice fill, got.2)

def xCreateLostPicture (lib : DecLib) (iLostPoc : Int) (layerId : Nat) :
    Except String (DecLib × Nat) :=
  lib.fillPicture iLostPoc layerId (.fillLost iLostPoc)

def xCreateUnavailablePicture (lib : DecLib) (iUnavailablePoc : Int) (longTermFlag : Bool)
    (layerId : Nat) : Except String (DecLib × Nat) :=
  lib.fillPicture iUnavailablePoc layerId (.fillUnavailable iUnavailablePoc longTermFlag)

/-- The body of both loops over missing reference pictures. The pilot's picture is
dereferenced for its layer. -/
def insertMissing (lib : DecLib) (slice : Slice) (rpl : ReferencePictureList) (lostPoc : Int)
    (refPicIndex : Nat) : Except String (DecLib × Nat) :=
  match lib.pilotPic with
  | none => .error "getPic() is null"
  | some layerId =>
      if slice.nalUnitType.isCraOrGdr ∧ slice.noIncorrectPicOutputFlag then
        lib.xCreateUnavailablePicture (lostPoc - 1) (rpl.isRefPicLongterm refPicIndex) layerId
      else lib.xCreateLostPicture (lostPoc - 1) layerId

end DecLib

/-- A pass of a loop: the POC the check has reported, whether for a long-term entry, and
the picture filled in. -/
structure Fill where
  lostPoc : Int
  longTermEntry : Bool
  pic : Option Picture
deriving DecidableEq, Repr

namespace DecLib

/-- A loop over missing reference pictures, in at most `fuel` tests of its condition, with
its passes. -/
def insertLoop (slice : Slice) (rpl : ReferencePictureList) :
    Nat → DecLib → Option (Except String (List Fill × DecLib))
  | 0, _ => none
  | fuel + 1, lib =>
      let (lostPoc, refPicIndex, listPic) :=
        checkThatAllRefPicsAreAvailable slice rpl lib.listPic
      let lib := { lib with listPic }
      if lostPoc > 0 then
        match lib.insertMissing slice rpl lostPoc refPicIndex with
        | .error e => some (.error e)
        | .ok (lib, i) =>
            (insertLoop slice rpl fuel lib).map fun rest => rest.map fun (fills, last) =>
              (⟨lostPoc, rpl.isRefPicLongterm refPicIndex, lib.listPic[i]?⟩ :: fills, last)
      else some (.ok ([], lib))

/-- The lost reference part of `xDecodeSlice`: the loop over list 0, then the one over
list 1. -/
def insertLost (slice : Slice) (fuel : Nat) (lib : DecLib) :
    Option (Except String (List Fill × DecLib)) :=
  match insertLoop slice (slice.rpl .REF_PIC_LIST_0) fuel lib with
  | none => none
  | some (.error e) => some (.error e)
  | some (.ok (fills, lib)) =>
      (insertLoop slice (slice.rpl .REF_PIC_LIST_1) fuel lib).map fun rest =>
        rest.map fun (fills', last) => (fills ++ fills', last)

end DecLib

end Vtm.LostPics
