import Vtm.Decoder.DecLib

/-!
# The decoder application

`DecApp::decode`: the loop that takes NAL units from the receiver, looks ahead for
the start of the next picture, finishes pictures and writes them in output order.
Layers are not distinguished and pictures are frames. The calls that the loop makes
are recorded beside its state.
-/

namespace Vtm.Dec

/-- The NAL units on the way to the decoder: those read by a look-ahead
(`outNalUnitBuf`) and those that `get_next_nalu` will deliver before the Fin packet. -/
structure Feed where
  outNalUnitBuf : List Nalu
  input : List Nalu
  lost : Bool
deriving DecidableEq, Repr

namespace Feed

/-- Every NAL unit still to come. -/
@[grind =] def pending (feed : Feed) : List Nalu := feed.outNalUnitBuf ++ feed.input

/-- The look-ahead behind the buffered units: `get_next_nalu` until a unit decides,
or the Fin packet sets `lost`. -/
def fetch {α : Type} (decides : NalUnitType → Option α) : List Nalu → List Nalu → Option α × Feed
  | buf, [] => (none, ⟨buf, [], true⟩)
  | buf, nalu :: input =>
      match decides nalu.nalUnitType with
      | some ret => (some ret, ⟨buf ++ [nalu], input, false⟩)
      | none => fetch decides (buf ++ [nalu]) input

/-- A look-ahead over the buffered units and then over new ones. -/
def lookAhead {α : Type} (decides : NalUnitType → Option α) (feed : Feed) : Option α × Feed :=
  match feed.outNalUnitBuf.findSome? fun nalu => decides nalu.nalUnitType with
  | some ret => (some ret, feed)
  | none =>
      if feed.lost then (none, feed)
      else fetch decides feed.outNalUnitBuf feed.input

/-- `get_next_nalu`. -/
def getNextNalu (feed : Feed) : Option Nalu × Feed :=
  match feed.lost, feed.input with
  | false, nalu :: input => (some nalu, { feed with input })
  | _, _ => (none, { feed with lost := true })

/-- The next unit to decode. -/
def next (feed : Feed) : Option Nalu × Feed :=
  match feed.outNalUnitBuf with
  | [] => feed.getNextNalu
  | nalu :: buf => (some nalu, { feed with outNalUnitBuf := buf })

end Feed

/-- The switch of `isNewPicture`; `none` keeps looking. -/
@[grind =] def startsPicture : NalUnitType → Option Bool
  | .accessUnitDelimiter | .dps | .vps | .sps | .pps | .ph => some true
  | .codedSliceTrail | .codedSliceStsa | .codedSliceRasl | .codedSliceRadl | .reservedVcl4
  | .reservedVcl5 | .reservedVcl6 | .codedSliceIdrWRadl | .codedSliceIdrNLp | .codedSliceCra
  | .codedSliceGdr | .reservedIrapVcl11 | .reservedIrapVcl12 | .eos | .eob | .suffixAps
  | .suffixSei | .fd => some false
  | _ => none

/-- The switch of `isNewAccessUnit`; `none` keeps looking. -/
@[grind =] def startsAccessUnit (lib : DecLib) : NalUnitType → Option Bool
  | .accessUnitDelimiter => some true
  | .codedSliceTrail | .codedSliceStsa | .codedSliceRasl | .codedSliceRadl | .codedSliceIdrWRadl
  | .codedSliceIdrNLp | .codedSliceCra | .codedSliceGdr => some lib.isSliceNaluFirstInAU
  | .eos | .eob | .suffixAps | .suffixSei | .fd => some false
  | _ => none

@[grind =] def isNewPicture (lib : DecLib) (feed : Feed) : Bool × Feed :=
  if lib.firstSliceInPicture then (false, feed)
  else
    let (ret, feed) := feed.lookAhead startsPicture
    (ret.getD false, feed)

/-- `isNewAccessUnit`, at the start of a picture. -/
@[grind =] def isNewAccessUnit (lib : DecLib) (feed : Feed) : Bool × Feed :=
  let (ret, feed) := feed.lookAhead (startsAccessUnit lib)
  (ret.getD false, feed)

/-- What is written of a picture. -/
structure Frame where
  poc : Int
  slices : List Nalu
deriving DecidableEq, Repr

/-- The samples of a picture. -/
def Picture.frame (pic : Picture) : Frame := ⟨pic.poc, pic.slices⟩

/-- The members and locals of `DecApp::decode`, with the calls made so far. `pcListPic`
says that the pointer to the picture list has been set. -/
structure DecApp where
  decLib : DecLib
  pcListPic : Bool
  iPOCLastDisplay : Int
  iSkipFrame : Nat
  iMaxTemporalLayer : Int
  loopFiltered : Bool
  passed : List Nalu
  filtered : List Frame
  finished : List Frame
  written : List Frame
deriving DecidableEq, Repr

namespace DecApp

/-- The state in front of the loop under the options' defaults. -/
def init : DecApp where
  decLib := .init
  pcListPic := false
  iPOCLastDisplay := -maxInt
  iSkipFrame := 0
  iMaxTemporalLayer := -1
  loopFiltered := false
  passed := []
  filtered := []
  finished := []
  written := []

section Output

/-- A picture that waits for its output. -/
def isWaiting (last : Int) (pic : Picture) : Bool := pic.neededForOutput && last < pic.poc

/-- A picture that counts for `dpbFullness`. -/
def isHeld (last : Int) (pic : Picture) : Bool := isWaiting last pic || pic.referenced

/-- A picture after it has been written. -/
@[grind =] def writtenPic (pic : Picture) : Picture :=
  { pic with
    reconstructed := pic.referenced && pic.reconstructed
    neededForOutput := false }

/-- The loop of `xWriteOutput` over the list: the list, `m_iPOCLastDisplay` and what
is written. -/
@[grind =] def writeLoop (numReorderPics maxDecPicBuffering : Nat) :
    (numPicsNotYetDisplayed dpbFullness : Nat) → Int → List Picture →
      List Picture × Int × List Frame
  | _, _, last, [] => ([], last, [])
  | num, full, last, pic :: rest =>
      if isWaiting last pic ∧ (num > numReorderPics ∨ full > maxDecPicBuffering) then
        let (rest, last, out) := writeLoop numReorderPics maxDecPicBuffering (num - 1)
          (if pic.referenced then full else full - 1) pic.poc rest
        (writtenPic pic :: rest, last, pic.frame :: out)
      else
        let (rest, last, out) := writeLoop numReorderPics maxDecPicBuffering num full last rest
        (pic :: rest, last, out)

/-- The layer whose limits `xWriteOutput` takes. A negative layer is a large unsigned
one in the comparison. -/
def highestTid (app : DecApp) (sps : SPS) : Nat :=
  if app.iMaxTemporalLayer < 0 ∨ app.iMaxTemporalLayer ≥ sps.maxTLayers then sps.maxTLayers - 1
  else app.iMaxTemporalLayer.toNat

def xWriteOutput (app : DecApp) : DecApp :=
  match app.decLib.listPic with
  | [] => app
  | front :: _ =>
      let last := app.iPOCLastDisplay
      let listPic := app.decLib.listPic
      let (listPic, last, out) := writeLoop
        (front.sps.getNumReorderPics (app.highestTid front.sps))
        (front.sps.getMaxDecPicBuffering (app.highestTid front.sps))
        (listPic.countP (isWaiting last)) (listPic.countP (isHeld last)) last listPic
      { app with
        decLib := { app.decLib with listPic }
        iPOCLastDisplay := last
        written := app.written ++ out }

def xFlushOutput (app : DecApp) : DecApp :=
  if app.pcListPic = false ∨ app.decLib.listPic = [] then app
  else
    { app with
      decLib := { app.decLib with listPic := [] }
      iPOCLastDisplay := -maxInt
      written := app.written ++
        (app.decLib.listPic.filter (·.neededForOutput)).map Picture.frame }

end Output

/-- A NAL unit taken from the buffer or the receiver. -/
def decodeNalu (app : DecApp) (nalu : Nalu) : Except String DecApp :=
  let app :=
    if app.decLib.firstSliceInPicture ∧ nalu.nalUnitType.isIDR then app.xFlushOutput else app
  if app.iMaxTemporalLayer < 0 ∨ (nalu.temporalId : Int) ≤ app.iMaxTemporalLayer then
    (app.decLib.decode nalu app.iSkipFrame).map fun (decLib, iSkipFrame) =>
      { app with decLib, iSkipFrame, passed := app.passed ++ [nalu] }
  else .ok app

/-- `executeLoopFilters` and `finishPicture`. -/
def finishPicture (app : DecApp) : DecApp :=
  let frame := app.decLib.currentPic.toList.map Picture.frame
  { app with
    decLib := app.decLib.finishPicture
    pcListPic := true
    filtered := app.filtered ++ frame
    finished := app.finished ++ frame }

/-- The part of the loop that finishes a picture. -/
def finishStep (app : DecApp) (bNewPicture lost isEOS : Bool) : DecApp :=
  if bNewPicture ∨ lost ∨ isEOS then
    if app.decLib.firstSliceInSequence then
      { app with decLib := { app.decLib with firstSliceInPicture := true } }
    else
      let app := if !app.loopFiltered ∨ !lost then app.finishPicture else app
      { app with
        loopFiltered := isEOS
        decLib := { app.decLib with
          firstSliceInSequence := app.decLib.firstSliceInSequence || isEOS } }
  else app

/-- The part of the loop that writes pictures. -/
def writeStep (app : DecApp) (bNewPicture isEOS isVcl : Bool) : DecApp :=
  if app.pcListPic then
    let app := if bNewPicture then app.xWriteOutput else app
    let app :=
      if isEOS then
        let app := app.xWriteOutput
        { app with decLib := { app.decLib with firstSliceInPicture := false } }
      else app
    if !bNewPicture ∧ isVcl then app.xWriteOutput else app
  else app

/-- The rest of the loop body, for the NAL unit type it has; behind a new picture no
unit has been read. -/
def afterNalu (app : DecApp) (bNewPicture lost : Bool) (nalUnitType : NalUnitType) : DecApp :=
  let isEOS := nalUnitType = .eos
  let isVcl := nalUnitType.code ≤ NalUnitType.reservedIrapVcl12.code
  (app.finishStep bNewPicture lost isEOS).writeStep bNewPicture isEOS isVcl

/-- The end of the loop body: the list of the units of the access unit is cleared. -/
def resetStep (app : DecApp) (bNewAccessUnit : Bool) : DecApp :=
  if bNewAccessUnit then { app with decLib := app.decLib.resetAccessUnitNals } else app

/-- How the body of the loop ends. -/
inductive Iteration where
  | again (app : DecApp) (feed : Feed)
  | leave (app : DecApp)
deriving DecidableEq, Repr

/-- The body of the loop. -/
@[grind =] def iteration (app : DecApp) (feed : Feed) : Except String Iteration :=
  let (bNewPicture, feed) := isNewPicture app.decLib feed
  if bNewPicture then
    let (bNewAccessUnit, feed) := isNewAccessUnit app.decLib feed
    .ok (.again ((app.afterNalu true feed.lost .invalid).resetStep bNewAccessUnit) feed)
  else
    match feed.next with
    | (none, _) => .ok (.leave app)
    | (some nalu, feed) =>
        (app.decodeNalu nalu).map fun app =>
          .again (app.afterNalu false feed.lost nalu.nalUnitType) feed

/-- The loop with what follows it, in at most `fuel` passes. -/
def loop : Nat → DecApp → Feed → Except String DecApp
  | 0, _, _ => .error "out of fuel"
  | fuel + 1, app, feed =>
      if feed.lost then .ok app.xFlushOutput
      else
        match app.iteration feed with
        | .error e => .error e
        | .ok (.leave app) => .ok app.xFlushOutput
        | .ok (.again app feed) => loop fuel app feed

/-- `DecApp::decode` on the NAL units that come before the Fin packet. -/
def decode (fuel : Nat) (nalus : List Nalu) : Except String DecApp :=
  loop fuel .init ⟨[], nalus, false⟩

end DecApp

end Vtm.Dec
