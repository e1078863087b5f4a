import Vtm.Common.NAL
import Vtm.Std.SortBy

/-!
# The picture decoder

`DecLib`: the picture buffer, the picture header in force and the state that tells
the slices of one picture from those of the next. A NAL unit stands here for what
the parsers read from it. The entries of the two reference picture lists of a slice
are given by the POCs of the pictures they name. All units are of one layer.
-/

namespace Vtm.Dec

/-- `MAX_INT`. -/
def maxInt : Int := 2147483647

/-- `SPS`, as far as the picture buffer uses it; the limits are per temporal layer. -/
structure SPS where
  maxTLayers : Nat
  numReorderPics : List Nat
  maxDecPicBuffering : List Nat
  bitsForPOC : Nat
deriving DecidableEq, Repr

namespace SPS

def getNumReorderPics (sps : SPS) (tId : Nat) : Nat := sps.numReorderPics.getD tId 0

def getMaxDecPicBuffering (sps : SPS) (tId : Nat) : Nat := sps.maxDecPicBuffering.getD tId 0

end SPS

/-- `PicHeader`, as far as the output of pictures uses it. -/
structure PicHeader where
  picOutputFlag : Bool
  noOutputOfPriorPicsFlag : Bool
deriving DecidableEq, Repr

/-- `initPicHeader`. -/
def PicHeader.init : PicHeader := ⟨true, false⟩

/-- What `parseSliceHeader` reads. -/
structure Slice where
  poc : Int
  sliceCurStartCtuTsAddr : Nat
  refPocs : List Int
  sps : SPS
deriving DecidableEq, Repr

/-- A NAL unit. `picHeader` and `slice` are what the parser of the unit's own type
reads; the other one is not looked at. -/
structure Nalu where
  nalUnitType : NalUnitType
  temporalId : Nat
  picHeader : PicHeader
  slice : Slice
deriving DecidableEq, Repr

end Vtm.Dec

namespace Vtm.NalUnitType

@[grind =] def isIDR : NalUnitType → Bool
  | codedSliceIdrWRadl | codedSliceIdrNLp => true
  | _ => false

def isCraOrGdr : NalUnitType → Bool
  | codedSliceCra | codedSliceGdr => true
  | _ => false

/-- The types `xDecodeSlice` is called for. -/
@[grind =] def isSlice : NalUnitType → Bool
  | codedSliceTrail | codedSliceStsa | codedSliceRadl | codedSliceRasl
  | codedSliceIdrWRadl | codedSliceIdrNLp | codedSliceCra | codedSliceGdr => true
  | _ => false

end Vtm.NalUnitType

namespace Vtm.Dec

/-- `Picture`. `buffer` stands for the address of the object, `slices` for what has
been decoded into it. -/
structure Picture where
  buffer : Nat
  poc : Int
  referenced : Bool
  reconstructed : Bool
  neededForOutput : Bool
  sps : SPS
  slices : List Nalu
deriving DecidableEq, Repr

/-- A write through a pointer to a picture of the list. -/
def updatePic (buffer : Nat) (f : Picture → Picture) (listPic : List Picture) : List Picture :=
  listPic.map fun pic => if pic.buffer = buffer then f pic else pic

/-- The pictures by their POC. -/
def sortPicList (listPic : List Picture) : List Picture := Std.sortBy Picture.poc listPic

/-- `DecLib`. `nextBuffer` is the address the next `new Picture` gets. `accessUnitNals`
are the types and temporal layers of the units of the access unit. -/
structure DecLib where
  accessUnitNals : List (NalUnitType × Nat)
  prefixSEINALUs : List Nalu
  listPic : List Picture
  nextBuffer : Nat
  pcPic : Option Nat
  picHeader : PicHeader
  picHeaderValid : Bool
  firstSliceInPicture : Bool
  firstSliceInSequence : Bool
  firstSliceInBitstream : Bool
  prevPOC : Int
  pocRandomAccess : Int
  lastPOCNoOutputPriorPics : Int
  isNoOutputPriorPics : Bool
  lastNoIncorrectPicOutputFlag : Bool
deriving DecidableEq, Repr

namespace DecLib

/-- The constructor. -/
def init : DecLib where
  accessUnitNals := []
  prefixSEINALUs := []
  listPic := []
  nextBuffer := 0
  pcPic := none
  picHeader := .init
  picHeaderValid := false
  firstSliceInPicture := true
  firstSliceInSequence := true
  firstSliceInBitstream := true
  prevPOC := maxInt
  pocRandomAccess := maxInt
  lastPOCNoOutputPriorPics := -1
  isNoOutputPriorPics := false
  lastNoIncorrectPicOutputFlag := false

/-- `new Picture()` at the end of the list. -/
def pushPic (lib : DecLib) (sps : SPS) : DecLib × Nat :=
  ({ lib with
      listPic := lib.listPic ++ [⟨lib.nextBuffer, 0, false, false, false, sps, []⟩]
      nextBuffer := lib.nextBuffer + 1 }, lib.nextBuffer)

/-- A buffer that `xGetNewPicBuffer` takes again. -/
def isFree (pic : Picture) : Bool :=
  !pic.reconstructed && !pic.neededForOutput || !pic.referenced && !pic.neededForOutput

def xGetNewPicBuffer (lib : DecLib) (sps : SPS) (temporalLayer : Nat) : DecLib × Nat :=
  if lib.listPic.length < sps.getMaxDecPicBuffering temporalLayer then lib.pushPic sps
  else
    match lib.listPic.find? isFree with
    | some pic =>
        ({ lib with
            listPic := updatePic pic.buffer
              (fun pic => { pic with neededForOutput := false, reconstructed := false })
              lib.listPic }, pic.buffer)
    | none => lib.pushPic sps

/-- `applyReferencePictureListBasedMarking` for one picture. -/
@[grind =] def markPic (nalu : Nalu) (poc : Int) (pic : Picture) : Picture :=
  if pic.referenced ∧ pic.poc ≠ poc ∧
      (nalu.nalUnitType.isIDR ∨ pic.poc ∉ nalu.slice.refPocs) then
    { pic with referenced := false }
  else pic

/-- `xActivateParameterSets` for the first slice of a picture: a buffer, the marking
of the others by the slice's lists, and `finalInit`. -/
def xActivateParameterSets (lib : DecLib) (nalu : Nalu) (poc : Int) : DecLib :=
  let (lib, buffer) := lib.xGetNewPicBuffer nalu.slice.sps nalu.temporalId
  { lib with
    listPic := updatePic buffer (fun pic => { pic with sps := nalu.slice.sps, slices := [] })
      (lib.listPic.map (markPic nalu poc))
    pcPic := some buffer }

/-- The end of `xDecodeSlice`: the slice becomes one of the current picture. -/
def decompressSlice (lib : DecLib) (nalu : Nalu) (poc : Int) : DecLib :=
  { lib with
    listPic :=
      match lib.pcPic with
      | none => lib.listPic
      | some buffer => updatePic buffer
          (fun pic => { pic with poc, referenced := true, slices := pic.slices ++ [nalu] })
          lib.listPic
    prevPOC := poc
    firstSliceInSequence := false
    firstSliceInBitstream := false
    firstSliceInPicture := false }

/-- `checkNoOutputPriorPics` and the condition it is called under. -/
def checkNoOutputPriorPics (lib : DecLib) (nalu : Nalu) : DecLib :=
  if (lib.firstSliceInPicture ∨ nalu.nalUnitType.isCraOrGdr) ∧ lib.isNoOutputPriorPics then
    { lib with
      listPic := lib.listPic.map fun pic =>
        if lib.lastPOCNoOutputPriorPics ≠ pic.poc then { pic with neededForOutput := false }
        else pic
      isNoOutputPriorPics := false }
  else lib

/-- `NoIncorrectPicOutputFlag` of a slice. -/
def noIncorrectPicOutputFlag (lib : DecLib) (nalu : Nalu) : Bool :=
  nalu.nalUnitType.isCraOrGdr && lib.firstSliceInSequence

/-- A random access point or a GDR picture. -/
def isRapOrGdr (nalu : Nalu) : Bool := nalu.nalUnitType.isIDR || nalu.nalUnitType.isCraOrGdr

/-- The inference of `NoOutputOfPriorPicsFlag`: the picture header of the slice. -/
def inferNoOutputOfPriorPics (lib : DecLib) (nalu : Nalu) : PicHeader :=
  if isRapOrGdr nalu then
    { lib.picHeader with
      noOutputOfPriorPicsFlag :=
        !lib.firstSliceInBitstream && lib.noIncorrectPicOutputFlag nalu }
  else lib.picHeader

/-- The inferences of `xDecodeSlice` in front of the random access check, with the
POC of the slice after them. -/
def inferOutput (lib : DecLib) (nalu : Nalu) : DecLib × Int :=
  let picHeader := lib.inferNoOutputOfPriorPics nalu
  let lastNoIncorrect :=
    if nalu.nalUnitType.isCraOrGdr then lib.noIncorrectPicOutputFlag nalu
    else lib.lastNoIncorrectPicOutputFlag
  let isNoOutput := isRapOrGdr nalu && picHeader.noOutputOfPriorPicsFlag
  ({ lib with
      picHeader :=
        if nalu.nalUnitType = .codedSliceRasl ∧ lastNoIncorrect then
          { picHeader with picOutputFlag := false }
        else picHeader
      lastPOCNoOutputPriorPics :=
        if isNoOutput then nalu.slice.poc else lib.lastPOCNoOutputPriorPics
      isNoOutputPriorPics := isNoOutput
      lastNoIncorrectPicOutputFlag := lastNoIncorrect },
    if nalu.nalUnitType.isCraOrGdr ∧ lastNoIncorrect then
      nalu.slice.poc % 2 ^ nalu.slice.sps.bitsForPOC
    else nalu.slice.poc)

/-- `isRandomAccessSkipPicture`: whether the slice is skipped, with `pocRandomAccess`
and the frames still to skip. The display counter it increments is a copy. -/
def isRandomAccessSkipPicture (lib : DecLib) (nalu : Nalu) (poc : Int) (iSkipFrame : Nat) :
    Bool × Int × Nat :=
  if iSkipFrame ≠ 0 then (true, lib.pocRandomAccess, iSkipFrame - 1)
  else if nalu.nalUnitType.isIDR then (false, -maxInt, iSkipFrame)
  else if lib.pocRandomAccess = maxInt then
    if nalu.nalUnitType = .codedSliceCra then (false, poc, iSkipFrame)
    else (true, lib.pocRandomAccess, iSkipFrame)
  else if poc < lib.pocRandomAccess ∧ nalu.nalUnitType = .codedSliceRasl then
    (true, lib.pocRandomAccess, iSkipFrame)
  else (false, lib.pocRandomAccess, iSkipFrame)

/-- Every entry of the slice's lists is a picture of the buffer. -/
def refPicsAvailable (lib : DecLib) (nalu : Nalu) : Bool :=
  nalu.nalUnitType.isIDR ||
    nalu.slice.refPocs.all fun poc => lib.listPic.any fun pic => pic.referenced && pic.poc = poc

/-- The picture `m_pcPic` points to. -/
def currentPic (lib : DecLib) : Option Picture :=
  lib.pcPic.bind fun buffer => lib.listPic.find? fun pic => pic.buffer = buffer

/-- The type of the slice before in the current picture. -/
def lastSliceType (lib : DecLib) : Option NalUnitType :=
  lib.currentPic.bind fun pic => pic.slices.getLast?.map (·.nalUnitType)

/-- A unit of the access unit whose temporal layer must not be below that of a slice. -/
def bindsTemporalId (t : NalUnitType) : Bool :=
  t ≠ .dps && t ≠ .vps && t ≠ .sps && t ≠ .eos && t ≠ .eob

/-- The checks of `xDecodeSlice` in front of the slice header. -/
def checkSliceNalu (lib : DecLib) (nalu : Nalu) : Except String Unit :=
  if lib.firstSliceInPicture = false ∧ lib.lastSliceType ≠ some nalu.nalUnitType then
    .error "The value of NAL unit type shall be the same for all coded slice NAL units of a picture"
  else if lib.accessUnitNals.any fun entry =>
      bindsTemporalId entry.1 && entry.2 < nalu.temporalId then
    .error "TemporalId shall be greater than or equal to the TemporalId of the layer access unit containing the NAL unit"
  else if nalu.nalUnitType = .codedSliceGdr ∧ nalu.temporalId ≠ 0 then
    .error "Current GDR picture has TemporalId not equal to 0"
  else .ok ()

/-- `xParsePrefixSEImessages`, for messages that can be parsed. -/
def xParsePrefixSEImessages (lib : DecLib) : DecLib := { lib with prefixSEINALUs := [] }

/-- `xDecodeSlice` behind the checks. The pictures that are made up for lost ones are
not modelled. -/
def decodeChecked (lib : DecLib) (nalu : Nalu) (iSkipFrame : Nat) :
    Except String (DecLib × Nat) :=
  let (lib, poc) := (lib.checkNoOutputPriorPics nalu).inferOutput nalu
  let (skipped, pocRandomAccess, iSkipFrame) :=
    lib.isRandomAccessSkipPicture nalu poc iSkipFrame
  let lib := { lib with pocRandomAccess }
  if skipped then .ok (lib, iSkipFrame)
  -- the slice of a new picture is left for the next call
  else if nalu.slice.sliceCurStartCtuTsAddr = 0 ∧ lib.firstSliceInPicture = false ∧
      lib.prevPOC ≥ lib.pocRandomAccess then
    .ok ({ lib with prevPOC := poc }, iSkipFrame)
  else if lib.refPicsAvailable nalu = false then .error "inserting lost poc"
  else
    let lib := lib.xParsePrefixSEImessages
    let lib := if lib.firstSliceInPicture then lib.xActivateParameterSets nalu poc else lib
    .ok (lib.decompressSlice nalu poc, iSkipFrame)

def xDecodeSlice (lib : DecLib) (nalu : Nalu) (iSkipFrame : Nat) :
    Except String (DecLib × Nat) :=
  if lib.picHeaderValid = false then .ok (lib, iSkipFrame)
  else do
    lib.checkSliceNalu nalu
    lib.decodeChecked nalu iSkipFrame

/-- `xParsePrefixSEIsForUnknownVCLNal`: it does not return if there is a unit in the queue,
as its loop does not remove it. -/
def xParsePrefixSEIsForUnknownVCLNal (lib : DecLib) : Except String DecLib :=
  if lib.prefixSEINALUs = [] then .ok lib else .error "no end of the loop"

/-- `decode`. The parameter sets and messages are stored without an effect on the
pictures; a type that is not in the switch throws. -/
def decode (lib : DecLib) (nalu : Nalu) (iSkipFrame : Nat) : Except String (DecLib × Nat) :=
  let lib := { lib with
    accessUnitNals := lib.accessUnitNals ++ [(nalu.nalUnitType, nalu.temporalId)] }
  if nalu.nalUnitType.isSlice then lib.xDecodeSlice nalu iSkipFrame
  else
    match nalu.nalUnitType with
    | .ph => .ok ({ lib with picHeader := nalu.picHeader, picHeaderValid := true }, iSkipFrame)
    | .prefixSei => .ok ({ lib with prefixSEINALUs := lib.prefixSEINALUs ++ [nalu] }, iSkipFrame)
    | .eos => .ok ({ lib with pocRandomAccess := maxInt, prevPOC := maxInt }, iSkipFrame)
    | .reservedIrapVcl11 | .reservedIrapVcl12 =>
        lib.xParsePrefixSEIsForUnknownVCLNal.map fun lib => (lib, iSkipFrame)
    | .fd | .invalid => .error "Invalid NAL unit type"
    | _ => .ok (lib, iSkipFrame)

/-- `isSliceNaluFirstInAU`: the layer of the unit is not above the one before. -/
def isSliceNaluFirstInAU (lib : DecLib) : Bool := lib.picHeaderValid

def resetAccessUnitNals (lib : DecLib) : DecLib := { lib with accessUnitNals := [] }

def finishPicture (lib : DecLib) : DecLib :=
  { lib with
    listPic := sortPicList
      (match lib.pcPic with
      | none => lib.listPic
      | some buffer => updatePic buffer
          (fun pic =>
            { pic with neededForOutput := lib.picHeader.picOutputFlag, reconstructed := true })
          lib.listPic)
    firstSliceInPicture := true
    picHeader := .init
    picHeaderValid := false }

end DecLib

end Vtm.Dec
