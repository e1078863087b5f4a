import Vtm.Decoder.Concealment
import Vtm.Decoder.DecApp
import Vtm.RoundTrip.PicOrderCnt

/-!
# Slices with lost reference pictures

`DecLib::decode` with the pictures it fills in for lost ones, and the passes of the loop
of `DecApp::decode` around it. The checks on an access unit, on leading pictures and on
changed parameter sets, which only throw, are left out.
-/

namespace Vtm.LostPics

open Vtm.RefPics

/-- What `parseSliceHeader` reads, with the parameter sets that it names. -/
structure SliceHeader where
  sets : ParameterSets
  slicePicOrderCntLsb : Nat
  sliceCurStartCtuTsAddr : Nat
  sliceType : SliceType
  rpl : RefPicList → ReferencePictureList
  localRPL : RefPicList → ReferencePictureList
  numRefIdx : RefPicList → Nat

/-- A NAL unit. `picHeader` is what the parser of a picture header reads, `slice` that of
a slice, and `first` the first parameter sets of the manager behind an SPS or a PPS. -/
structure Nalu where
  nalUnitType : NalUnitType
  temporalId : Nat
  nuhLayerId : Nat
  picHeader : Dec.PicHeader
  first : ParameterSets
  slice : SliceHeader

/-- The slice object of a slice. -/
def Nalu.object (nalu : Nalu) (poc : Int) : SliceObject :=
  ⟨poc, nalu.temporalId, nalu.nalUnitType⟩

/-- The POC that `parseSliceHeader` sets. -/
def Nalu.parsePOC (nalu : Nalu) (prevTid0POC : Int) : Int :=
  if nalu.nalUnitType.isIDR then (Int32.ofNat nalu.slice.slicePicOrderCntLsb).toInt
  else
    (RoundTrip.PicOrderCnt.completePoc nalu.slice.sets.sps.bitsForPOC
      (Int32.ofInt prevTid0POC) (Int32.ofNat nalu.slice.slicePicOrderCntLsb)).toInt

/-- A write through a pointer to a picture of the list. -/
def updatePic (buffer : Nat) (f : Picture → Picture) (listPic : List Picture) : List Picture :=
  listPic.map fun pic => if pic.buffer = buffer then f pic else pic

/-- The pictures by their POC. -/
def sortPicList (listPic : List Picture) : List Picture := Std.sortBy (fun pic => pic.poc) listPic

/-- The first entry of a list that names a picture, with its use as long-term picture. -/
def listedAs (slice : Slice) (rpl : ReferencePictureList) (pic : Picture) : Option Bool :=
  (List.range rpl.numEntries).findSome? fun i =>
    if rpl.isRefPicLongterm i then
      if pic.longTerm ∧ pocLsb pic.bitsForPOC pic.poc = rpl.refPicIdentifier i then some true
      else none
    else if pic.poc = slice.poc - rpl.refPicIdentifier i then some false
    else none

/-- `applyReferencePictureListBasedMarking` for one picture. -/
def markPic (slice : Slice) (pic : Picture) : Picture :=
  if pic.referenced = false then pic
  else
    let isReference :=
      if slice.isIDRorBLA then none
      else (listedAs slice (slice.rpl .REF_PIC_LIST_0) pic).or
        (listedAs slice (slice.rpl .REF_PIC_LIST_1) pic)
    match isReference with
    | some longTerm => { pic with longTerm := longTerm }
    | none =>
        if pic.poc ≠ slice.poc then { pic with referenced := false, longTerm := false } else pic

namespace DecLib

/-- The constructor. The manager has no parameter sets yet. -/
def init : DecLib where
  listPic := []
  nextBuffer := 0
  first := ⟨⟨0, [], [], 0⟩, ⟨0, 0, 0, 0⟩⟩
  pilotPic := none
  pcPic := none
  prevTid0POC := 0
  pocRandomAccess := Dec.maxInt
  prevPOC := Dec.maxInt
  picHeader := .init
  picHeaderValid := false
  firstSliceInPicture := true
  firstSliceInSequence := true
  firstSliceInBitstream := true
  lastNoIncorrectPicOutputFlag := false
  lastPOCNoOutputPriorPics := -1
  isNoOutputPriorPics := false

/-- The picture `m_pcPic` points to. -/
def currentPic (lib : DecLib) : Option Picture :=
  lib.pcPic.bind fun buffer => lib.listPic.find? fun pic => pic.buffer = buffer

/-- The beginning of `xDecodeSlice`: a later slice of a picture copies the slice before it. -/
def startSlice (lib : DecLib) (nalu : Nalu) : Except String DecLib :=
  if lib.firstSliceInPicture then .ok lib
  else
    match lib.currentPic with
    | none => .error "m_pcPic is deleted"
    | some pic =>
        match pic.slices.getLast? with
        | none => .error "the picture has no slices"
        | some before =>
            if nalu.nalUnitType ≠ before.nalUnitType then
              .error "The value of NAL unit type shall be the same"
            else .ok { lib with pilotPic := some pic.layerId }


/-- `checkNoOutputPriorPics` and the condition it is called under. -/
def checkNoOutputPriorPics (lib : DecLib) (nalu : Nalu) : DecLib :=
  if (lib.firstSliceInPicture ∨ nalu.nalUnitType.isCraOrGdr) ∧ lib.isNoOutputPriorPics then
    { lib with
      listPic := lib.listPic.map fun pic =>
        if lib.lastPOCNoOutputPriorPics ≠ pic.poc then { pic with neededForOutput := false }
        else pic
      isNoOutputPriorPics := false }
  else lib

/-- `NoIncorrectPicOutputFlag` of a slice. -/
def noIncorrectPicOutputFlag (lib : DecLib) (nalu : Nalu) : Bool :=
  nalu.nalUnitType.isCraOrGdr && lib.firstSliceInSequence

/-- The inferences behind the parsed header. -/
def inferOutput (lib : DecLib) (nalu : Nalu) (poc : Int) : DecLib :=
  let isRapOrGdr := nalu.nalUnitType.isIDR || nalu.nalUnitType.isCraOrGdr
  let noIncorrect := lib.noIncorrectPicOutputFlag nalu
  let noOutputOfPriorPics :=
    if isRapOrGdr then !lib.firstSliceInBitstream && noIncorrect
    else lib.picHeader.noOutputOfPriorPicsFlag
  let lastNoIncorrect :=
    if nalu.nalUnitType.isCraOrGdr then noIncorrect else lib.lastNoIncorrectPicOutputFlag
  let isNoOutput := isRapOrGdr && noOutputOfPriorPics
  { lib with
    picHeader :=
      ⟨if nalu.nalUnitType = .codedSliceRasl ∧ lastNoIncorrect then false
        else lib.picHeader.picOutputFlag, noOutputOfPriorPics⟩
    lastPOCNoOutputPriorPics := if isNoOutput then poc else lib.lastPOCNoOutputPriorPics
    isNoOutputPriorPics := isNoOutput
    lastNoIncorrectPicOutputFlag := lastNoIncorrect }

/-- The reset of the POC's most significant bits at a CRA or GDR picture: the POC of the
slice behind it. -/
def resetPOC (lib : DecLib) (nalu : Nalu) (poc : Int) : DecLib × Int :=
  if nalu.nalUnitType.isCraOrGdr ∧ lib.lastNoIncorrectPicOutputFlag then
    let poc := poc % 2 ^ nalu.slice.sets.sps.bitsForPOC
    (lib.xUpdatePreviousTid0POC (nalu.object poc), poc)
  else (lib, poc)

/-- `xDecodeSlice` from `parseSliceHeader` to the check for random access: the state and
the POC of the slice. -/
def readSlice (lib : DecLib) (nalu : Nalu) : DecLib × Int :=
  let poc := nalu.parsePOC lib.prevTid0POC
  let lib := lib.checkNoOutputPriorPics nalu
  let lib := lib.xUpdatePreviousTid0POC (nalu.object poc)
  (lib.inferOutput nalu poc).resetPOC nalu poc

/-- `isRandomAccessSkipPicture`: whether the slice is skipped, with `pocRandomAccess` and
the frames still to skip. -/
def isRandomAccessSkipPicture (nalUnitType : NalUnitType) (poc pocRandomAccess : Int)
    (iSkipFrame : Nat) : Bool × Int × Nat :=
  if iSkipFrame ≠ 0 then (true, pocRandomAccess, iSkipFrame - 1)
  else if nalUnitType.isIDR then (false, -Dec.maxInt, iSkipFrame)
  else if pocRandomAccess = Dec.maxInt then
    if nalUnitType = .codedSliceCra then (false, poc, iSkipFrame)
    else (true, pocRandomAccess, iSkipFrame)
  else if poc < pocRandomAccess ∧ nalUnitType = .codedSliceRasl then
    (true, pocRandomAccess, iSkipFrame)
  else (false, pocRandomAccess, iSkipFrame)

/-- The slice pilot behind its header. -/
def pilotSlice (lib : DecLib) (nalu : Nalu) (poc : Int) : Slice where
  poc := poc
  layerId := nalu.nuhLayerId
  isIDRorBLA := nalu.nalUnitType.isIDR
  sliceType := nalu.slice.sliceType
  bitsForPOC := nalu.slice.sets.sps.bitsForPOC
  rpl := nalu.slice.rpl
  localRPL := nalu.slice.localRPL
  numRefIdx := nalu.slice.numRefIdx
  nalUnitType := nalu.nalUnitType
  tLayer := nalu.temporalId
  noIncorrectPicOutputFlag := lib.noIncorrectPicOutputFlag nalu

/-- The lost reference part. The loops end within as many tests as there are pictures, and
one more. -/
def insertLostRefs (lib : DecLib) (slice : Slice) : Except String DecLib :=
  match lib.insertLost slice (lib.listPic.length + 1) with
  | none => .error "out of fuel"
  | some (.error e) => .error e
  | some (.ok (_, lib)) => .ok lib

/-- `xActivateParameterSets` for the first slice of a picture. The new slice pilot points
to no picture. -/
def activateFirst (lib : DecLib) (nalu : Nalu) (slice : Slice) : DecLib :=
  let got := lib.xGetNewPicBuffer nalu.slice.sets nalu.temporalId nalu.nuhLayerId
  { got.1 with
    listPic := (got.1.listPic.map (markPic slice)).modify got.2 fun pic =>
      { pic with
        bitsForPOC := nalu.slice.sets.sps.bitsForPOC
        sps := nalu.slice.sets.sps
        slices := [nalu.object slice.poc] }
    pcPic := (got.1.listPic[got.2]?).map (·.buffer)
    pilotPic := none }

/-- `xActivateParameterSets` for a later slice. -/
def activateNext (lib : DecLib) (nalu : Nalu) (slice : Slice) : DecLib :=
  match lib.pcPic with
  | none => lib
  | some buffer =>
      { lib with
        listPic := updatePic buffer
          (fun pic => { pic with slices := pic.slices ++ [nalu.object slice.poc] }) lib.listPic }

/-- What `xDecodeSlice` sets of the current picture behind the activation. The slice pilot
points to it, if to any. -/
def setCurrent (lib : DecLib) (nalu : Nalu) (poc : Int) : DecLib :=
  match lib.pcPic with
  | none => lib
  | some buffer =>
      { lib with
        listPic := updatePic buffer
          (fun pic => { pic with poc := poc, referenced := true, layerId := nalu.nuhLayerId })
          lib.listPic
        pilotPic := lib.pilotPic.map fun _ => nalu.nuhLayerId }

/-- `constructRefPicList`, which sets marks in the buffer. -/
def constructRefPicList (lib : DecLib) (slice : Slice) : Except String DecLib :=
  (RefPics.constructRefPicList slice.toSlice (lib.listPic.map (·.toPicture))).map fun built =>
    { lib with
      listPic := List.zipWith (fun pic marked => { pic with toPicture := marked })
        lib.listPic built.2 }

/-- `xDecodeSlice` behind the lost reference pictures. -/
def decompressSlice (lib : DecLib) (nalu : Nalu) (slice : Slice) : Except String DecLib :=
  let lib := { lib with prevPOC := slice.poc }
  let lib :=
    if lib.firstSliceInPicture then lib.activateFirst nalu slice
    else lib.activateNext nalu slice
  ((lib.setCurrent nalu slice.poc).constructRefPicList slice).map fun lib =>
    { lib with
      firstSliceInSequence := false
      firstSliceInBitstream := false
      firstSliceInPicture := false }

/-- What `xDecodeSlice` knows in front of the lost reference pictures. -/
structure Read where
  lib : DecLib
  poc : Int
  skipped : Bool
  iSkipFrame : Nat

/-- `xDecodeSlice` up to the check for random access. -/
def readAndSkip (lib : DecLib) (nalu : Nalu) (iSkipFrame : Nat) : Except String Read :=
  (lib.startSlice nalu).bind fun lib =>
    if nalu.nalUnitType = .codedSliceGdr ∧ nalu.temporalId ≠ 0 then
      .error "Current GDR picture has TemporalId not equal to 0"
    else
      let read := lib.readSlice nalu
      let check := isRandomAccessSkipPicture nalu.nalUnitType read.2 read.1.pocRandomAccess
        iSkipFrame
      .ok ⟨{ read.1 with pocRandomAccess := check.2.1 }, read.2, check.1, check.2.2⟩

/-- The slice is the first one of another picture, and is left. -/
def findsNewPicture (lib : DecLib) (nalu : Nalu) : Bool :=
  nalu.slice.sliceCurStartCtuTsAddr = 0 && !lib.firstSliceInPicture &&
    decide (lib.prevPOC ≥ lib.pocRandomAccess)

/-- `xDecodeSlice` behind the check for random access. -/
def decodeRead (nalu : Nalu) (read : Read) : Except String DecLib :=
  if read.skipped then .ok read.lib
  else if read.lib.findsNewPicture nalu then .ok { read.lib with prevPOC := read.poc }
  else
    let slice := read.lib.pilotSlice nalu read.poc
    (read.lib.insertLostRefs slice).bind fun lib => lib.decompressSlice nalu slice

def xDecodeSlice (lib : DecLib) (nalu : Nalu) (iSkipFrame : Nat) :
    Except String (DecLib × Nat) :=
  if lib.picHeaderValid = false then .ok (lib, iSkipFrame)
  else
    (lib.readAndSkip nalu iSkipFrame).bind fun read =>
      (decodeRead nalu read).map fun lib => (lib, read.iSkipFrame)

def decode (lib : DecLib) (nalu : Nalu) (iSkipFrame : Nat) : Except String (DecLib × Nat) :=
  if nalu.nalUnitType.isSlice then lib.xDecodeSlice nalu iSkipFrame
  else
    match nalu.nalUnitType with
    | .ph => .ok ({ lib with picHeader := nalu.picHeader, picHeaderValid := true }, iSkipFrame)
    | .sps | .pps => .ok ({ lib with first := nalu.first }, iSkipFrame)
    | .eos =>
        .ok ({ lib with pocRandomAccess := Dec.maxInt, prevPOC := Dec.maxInt }, iSkipFrame)
    | .fd | .invalid => .error "Invalid NAL unit type"
    | _ => .ok (lib, iSkipFrame)

def finishPicture (lib : DecLib) : DecLib :=
  { lib with
    listPic := sortPicList
      (match lib.pcPic with
      | none => lib.listPic
      | some buffer => updatePic buffer
          (fun pic =>
            { pic with neededForOutput := lib.picHeader.picOutputFlag, reconstructed := true })
          lib.listPic)
    firstSliceInPicture := true
    picHeader := .init
    picHeaderValid := false }

end DecLib

/-- The members and locals of `DecApp::decode`. `pcListPic` says that the pointer to the
picture list has been set. -/
structure DecApp where
  decLib : DecLib
  pcListPic : Bool
  iPOCLastDisplay : Int
  iSkipFrame : Nat
  iMaxTemporalLayer : Int

/-- What the output of pictures reads of a picture. -/
def Picture.output (pic : Picture) : Dec.Picture where
  buffer := pic.buffer
  poc := pic.poc
  referenced := pic.referenced
  reconstructed := pic.reconstructed
  neededForOutput := pic.neededForOutput
  sps := pic.sps
  slices := []

namespace DecApp

/-- The state in front of the loop. -/
def init (iSkipFrame : Nat) (iMaxTemporalLayer : Int) : DecApp where
  decLib := .init
  pcListPic := false
  iPOCLastDisplay := -Dec.maxInt + iSkipFrame
  iSkipFrame := iSkipFrame
  iMaxTemporalLayer := iMaxTemporalLayer

/-- The layer whose limits `xWriteOutput` takes. -/
def highestTid (app : DecApp) (sps : Dec.SPS) : Nat :=
  if app.iMaxTemporalLayer < 0 ∨ app.iMaxTemporalLayer ≥ sps.maxTLayers then sps.maxTLayers - 1
  else app.iMaxTemporalLayer.toNat

def xWriteOutput (app : DecApp) : DecApp :=
  match app.decLib.listPic with
  | [] => app
  | front :: _ =>
      let last := app.iPOCLastDisplay
      let listPic := app.decLib.listPic.map Picture.output
      let (written, last, _) := Dec.DecApp.writeLoop
        (front.sps.getNumReorderPics (app.highestTid front.sps))
        (front.sps.getMaxDecPicBuffering (app.highestTid front.sps))
        (listPic.countP (Dec.DecApp.isWaiting last)) (listPic.countP (Dec.DecApp.isHeld last))
        last listPic
      { app with
        decLib := { app.decLib with
          listPic := List.zipWith
            (fun pic out =>
              { pic with reconstructed := out.reconstructed, neededForOutput := out.neededForOutput })
            app.decLib.listPic written }
        iPOCLastDisplay := last }

def xFlushOutput (app : DecApp) : DecApp :=
  if app.pcListPic = false ∨ app.decLib.listPic = [] then app
  else
    { app with
      decLib := { app.decLib with listPic := [] }
      iPOCLastDisplay := -Dec.maxInt }

/-- In front of the first slice of an IDR picture the buffer is flushed. -/
def flushForIDR (app : DecApp) (nalu : Nalu) : DecApp :=
  if app.decLib.firstSliceInPicture ∧ nalu.nalUnitType.isIDR then app.xFlushOutput else app

/-- A NAL unit taken from the buffer or the receiver. -/
def decodeNalu (app : DecApp) (nalu : Nalu) : Except String DecApp :=
  let app := app.flushForIDR nalu
  if app.iMaxTemporalLayer < 0 ∨ (nalu.temporalId : Int) ≤ app.iMaxTemporalLayer then
    (app.decLib.decode nalu app.iSkipFrame).map fun (decLib, iSkipFrame) =>
      { app with decLib, iSkipFrame }
  else .ok app

/-- The part of the loop that finishes a picture, while the connection is not lost. -/
def finishStep (app : DecApp) (bNewPicture isEOS : Bool) : DecApp :=
  if bNewPicture ∨ isEOS then
    if app.decLib.firstSliceInSequence then
      { app with decLib := { app.decLib with firstSliceInPicture := true } }
    else
      let decLib := app.decLib.finishPicture
      { app with
        decLib := { decLib with firstSliceInSequence := isEOS }
        pcListPic := true }
  else app

/-- The part of the loop that writes pictures. -/
def writeStep (app : DecApp) (bNewPicture isEOS isVcl : Bool) : DecApp :=
  if app.pcListPic then
    let app := if bNewPicture then app.xWriteOutput else app
    let app :=
      if isEOS then
        let app := app.xWriteOutput
        { app with decLib := { app.decLib with firstSliceInPicture := false } }
      else app
    if !bNewPicture ∧ isVcl then app.xWriteOutput else app
  else app

/-- A pass of the loop for which `isNewPicture` has found the start of a picture. -/
def newPicturePass (app : DecApp) : DecApp :=
  (app.finishStep true false).writeStep true false false

/-- A pass of the loop that decodes a NAL unit. -/
def naluPass (app : DecApp) (nalu : Nalu) : Except String DecApp :=
  (app.decodeNalu nalu).map fun app =>
    (app.finishStep false (nalu.nalUnitType = .eos)).writeStep false (nalu.nalUnitType = .eos)
      (nalu.nalUnitType.code ≤ NalUnitType.reservedIrapVcl12.code)

end DecApp

/-! ## The decoder without lost pictures -/

namespace DecLib

/-- The decoder as the output of pictures sees it, with the units that wait. -/
def output (lib : DecLib) (accessUnitNals : List (NalUnitType × Nat))
    (prefixSEINALUs : List Dec.Nalu) : Dec.DecLib where
  accessUnitNals := accessUnitNals
  prefixSEINALUs := prefixSEINALUs
  listPic := lib.listPic.map Picture.output
  nextBuffer := lib.nextBuffer
  pcPic := lib.pcPic
  picHeader := lib.picHeader
  picHeaderValid := lib.picHeaderValid
  firstSliceInPicture := lib.firstSliceInPicture
  firstSliceInSequence := lib.firstSliceInSequence
  firstSliceInBitstream := lib.firstSliceInBitstream
  prevPOC := lib.prevPOC
  pocRandomAccess := lib.pocRandomAccess
  lastPOCNoOutputPriorPics := lib.lastPOCNoOutputPriorPics
  isNoOutputPriorPics := lib.isNoOutputPriorPics
  lastNoIncorrectPicOutputFlag := lib.lastNoIncorrectPicOutputFlag

variable (lib : DecLib) (nals : List (NalUnitType × Nat)) (seis : List Dec.Nalu)

theorem output_finishPicture :
    lib.finishPicture.output nals seis = (lib.output nals seis).finishPicture := by
  have sorted (list : List Picture) :
      (sortPicList list).map Picture.output = Dec.sortPicList (list.map Picture.output) :=
    (Std.sortBy_map Dec.Picture.poc Picture.output list).symm
  unfold finishPicture Dec.DecLib.finishPicture output
  cases current : lib.pcPic with
  | none => simp only [sorted]
  | some buffer =>
      simp only [sorted, updatePic, Dec.updatePic, List.map_map]
      congr 3
      funext pic
      by_cases here : pic.buffer = buffer <;> simp [Picture.output, here]

theorem output_checkNoOutputPriorPics {nalu : Nalu} {unit : Dec.Nalu}
    (type : unit.nalUnitType = nalu.nalUnitType) :
    (lib.checkNoOutputPriorPics nalu).output nals seis =
      (lib.output nals seis).checkNoOutputPriorPics unit := by
  unfold checkNoOutputPriorPics Dec.DecLib.checkNoOutputPriorPics output
  dsimp only
  rw [type]
  by_cases waits : (lib.firstSliceInPicture ∨ nalu.nalUnitType.isCraOrGdr) ∧ lib.isNoOutputPriorPics
  · simp only [if_pos waits, List.map_map]
    congr 2
    funext pic
    by_cases other : lib.lastPOCNoOutputPriorPics = pic.poc <;> simp [Picture.output, other]
  · simp only [if_neg waits]

/-- A unit that is no slice changes both decoders alike, unless it is a reserved one and messages
wait. -/
theorem output_decode {nalu : Nalu} {unit : Dec.Nalu} (type : unit.nalUnitType = nalu.nalUnitType)
    (header : unit.picHeader = nalu.picHeader) (noSlice : nalu.nalUnitType.isSlice = false)
    (goesOn : nalu.nalUnitType = .reservedIrapVcl11 ∨ nalu.nalUnitType = .reservedIrapVcl12 →
      seis = []) (iSkipFrame : Nat) :
    (lib.decode nalu iSkipFrame).map (fun next =>
        (next.1.output (nals ++ [(unit.nalUnitType, unit.temporalId)])
          (if unit.nalUnitType = .prefixSei then seis ++ [unit] else seis), next.2)) =
      (lib.output nals seis).decode unit iSkipFrame := by
  unfold decode Dec.DecLib.decode
  dsimp only
  rw [type, noSlice, if_neg Bool.false_ne_true, if_neg Bool.false_ne_true]
  cases kind : nalu.nalUnitType <;> rw [kind] at noSlice goesOn <;> first
    | exact Bool.noConfusion noSlice
    | rfl
    | simp [Except.map, output, header, Dec.DecLib.xParsePrefixSEIsForUnknownVCLNal, goesOn]

end DecLib

end Vtm.LostPics
