import Vtm.Output.Advance
import Vtm.Output.BufferInv
import Vtm.Output.Conformance

/-!
# The steps of the decoder application

Between two pictures the application is `Idle`, within a picture it is `Decoding`. The
units that carry no picture keep it where it is; the first slice, the other slices and
the end of a picture lead from one to the other.
-/

namespace Vtm.Dec

/-- Where a coded video sequence stands. -/
structure Stage where
  sps : SPS
  finished : List Frame
  future : List Int
  marked : List Int
  known : List Int

namespace Stage

def numReorderPics (stage : Stage) : Nat :=
  stage.sps.getNumReorderPics (stage.sps.maxTLayers - 1)

def maxDecPicBuffering (stage : Stage) : Nat :=
  stage.sps.getMaxDecPicBuffering (stage.sps.maxTLayers - 1)

/-- The limits of the sequence hold here. -/
def Limited (stage : Stage) : Prop :=
  Limits stage.numReorderPics stage.maxDecPicBuffering stage.finished stage.future stage.marked
    stage.known

/-- With no picture to come there is nothing to limit. -/
theorem limited_of_nil {stage : Stage} (gone : stage.future = []) : stage.Limited := by
  constructor
  · simp [gone]
  · simp [gone]

end Stage

/-- The calls made so far, with the units passed since the access unit began. -/
structure Calls where
  passed : List Nalu
  finished : List Frame
  loopFiltered : Bool
  accessUnit : List (NalUnitType × Nat)

/-- The state of the application: the frames of the sequence are written behind `base`. -/
structure AppInv (stage : Stage) (current : Option Nat) (base : List Frame) (calls : Calls)
    (app : DecApp) : Prop where
  buffer : ∃ written, app.written = base ++ written ∧
    BufferInv stage.sps current stage.finished stage.future stage.marked stage.known app.decLib
      app.iPOCLastDisplay written
  skip : app.iSkipFrame = 0
  layer : app.iMaxTemporalLayer = -1
  prior : app.decLib.isNoOutputPriorPics = false
  incorrect : app.decLib.lastNoIncorrectPicOutputFlag = false
  passed : app.passed = calls.passed
  filtered : app.filtered = calls.finished
  finished : app.finished = calls.finished
  loopFiltered : app.loopFiltered = calls.loopFiltered
  nals : app.decLib.accessUnitNals = calls.accessUnit
  seis : app.decLib.prefixSEINALUs = waitingSeis calls.passed

/-- The output that is complete once the waiting pictures are written. -/
def DecApp.total (app : DecApp) : List Frame :=
  app.written ++ waitingFrames app.decLib.listPic

theorem OutputInv.total_sorted {finished : List Frame} {future marked known : List Int}
    {listPic : List Picture} {last : Int} {written : List Frame}
    (inv : OutputInv finished future marked known listPic last written) :
    (written ++ waitingFrames listPic).Pairwise fun f g => f.poc < g.poc := by
  refine List.pairwise_append.mpr ⟨inv.sorted, ?_, ?_⟩
  · refine List.pairwise_map.mpr (List.pairwise_filter.mpr ?_)
    exact inv.ordered.imp fun before needed needed' => before needed needed'
  · intro f old g waits
    obtain ⟨pic, inside, rfl⟩ := List.mem_map.mp waits
    obtain ⟨here, needed⟩ := List.mem_filter.mp inside
    exact (inv.past f old).trans_lt (inv.behind pic here needed)

/-- Two orders of the same frames by POC are the same. -/
theorem eq_of_sorted_perm {frames frames' : List Frame} (perm : frames.Perm frames')
    (sorted : frames.Pairwise fun f g => f.poc < g.poc)
    (sorted' : frames'.Pairwise fun f g => f.poc < g.poc) : frames = frames' :=
  perm.eq_of_pairwise (fun _ _ _ _ before after => absurd before (by omega)) sorted sorted'

namespace AppInv

variable {stage : Stage} {current : Option Nat} {base : List Frame} {calls : Calls} {app : DecApp}

/-- `xWriteOutput` changes the list, the last POC displayed and what is written. -/
theorem xWriteOutput (inv : AppInv stage current base calls app) (limited : stage.Limited) :
    ∃ listPic last out, app.xWriteOutput =
        { app with
          decLib := { app.decLib with listPic }
          iPOCLastDisplay := last
          written := app.written ++ out } ∧
      List.Forall₂ DecApp.SameOrWritten app.decLib.listPic listPic ∧
      AppInv stage current base calls app.xWriteOutput ∧ app.xWriteOutput.total = app.total := by
  obtain ⟨written, split, buffer⟩ := inv.buffer
  cases list : app.decLib.listPic with
  | nil =>
      have same : app.xWriteOutput = app := by
        rw [DecApp.xWriteOutput, list]
      refine ⟨[], app.iPOCLastDisplay, [], ?_, .nil, same.symm ▸ inv, by rw [same]⟩
      rw [same, List.append_nil, ← list]
  | cons front rest =>
      have layer : app.highestTid stage.sps = stage.sps.maxTLayers - 1 := by
        rw [DecApp.highestTid, if_pos (.inl (by rw [inv.layer]; decide))]
      have sameSps : front.sps = stage.sps := buffer.sameSps front (by simp [list])
      have step := DecApp.writeLoop_inv limited [] app.decLib.listPic buffer.output (by simp)
        buffer.output.countP_isWaiting buffer.output.countP_isHeld
      have shape := DecApp.writeLoop_forall₂ stage.numReorderPics stage.maxDecPicBuffering
        (app.decLib.listPic.countP (DecApp.isWaiting app.iPOCLastDisplay))
        (app.decLib.listPic.countP (DecApp.isHeld app.iPOCLastDisplay)) app.iPOCLastDisplay
        app.decLib.listPic
      set result := DecApp.writeLoop stage.numReorderPics stage.maxDecPicBuffering
        (app.decLib.listPic.countP (DecApp.isWaiting app.iPOCLastDisplay))
        (app.decLib.listPic.countP (DecApp.isHeld app.iPOCLastDisplay)) app.iPOCLastDisplay
        app.decLib.listPic with resultDef
      have equation : app.xWriteOutput =
          { app with
            decLib := { app.decLib with listPic := result.1 }
            iPOCLastDisplay := result.2.1
            written := app.written ++ result.2.2 } := by
        rw [DecApp.xWriteOutput]
        split
        next empty => rw [empty] at list; cases list
        next first others same =>
          rw [same] at list
          obtain ⟨rfl, rfl⟩ := List.cons.inj list
          simp only [sameSps, layer]
          rfl
      have replaced := buffer.replace
        (shape.imp fun _ _ => BufferInv.samePicture_of_written) step
      refine ⟨result.1, result.2.1, result.2.2, equation, list ▸ shape, ?_, ?_⟩
      · rw [equation]
        exact { inv with buffer := ⟨written ++ result.2.2, by simp [split], replaced⟩ }
      · have perm := replaced.output.complete.trans buffer.output.complete.symm
        have same := eq_of_sorted_perm perm replaced.output.total_sorted
          buffer.output.total_sorted
        simp only [DecApp.total, equation, split, List.append_assoc]
        rw [← List.append_assoc written, same]

end AppInv

/-- Nothing is being decoded. -/
structure Idle (stage : Stage) (base : List Frame) (calls : Calls) (app : DecApp) : Prop where
  inv : AppInv stage none base calls app
  null : app.pcListPic = false → app.decLib.listPic = []
  emptied : app.decLib.listPic = [] → app.iPOCLastDisplay = -maxInt

/-- The picture `cur` is being decoded, `slices` are already there. -/
structure Decoding (stage : Stage) (cur : CodedPicture) (slices : List Nalu) (base : List Frame)
    (calls : Calls) (app : DecApp) : Prop where
  inv : AppInv stage app.decLib.pcPic base calls app
  current : ∃ pic ∈ app.decLib.listPic, app.decLib.pcPic = some pic.buffer ∧
    pic.neededForOutput = false ∧ pic.referenced = true ∧ pic.frame = ⟨cur.poc, slices⟩
  inPicture : app.decLib.firstSliceInPicture = false
  inSequence : app.decLib.firstSliceInSequence = false
  randomAccess : app.decLib.pocRandomAccess = -maxInt
  header : app.decLib.picHeader.picOutputFlag = cur.output
  valid : app.decLib.picHeaderValid = true
  lastType : slices.getLast?.map (·.nalUnitType) = some cur.first.nalUnitType

/-- Calls of `DecLib::decode`. -/
@[grind =] def Calls.pass (calls : Calls) (nalus : List Nalu) : Calls :=
  { calls with
    passed := calls.passed ++ nalus
    accessUnit := calls.accessUnit ++ nalus.map fun nalu => (nalu.nalUnitType, nalu.temporalId) }

@[simp] theorem Calls.pass_nil (calls : Calls) : calls.pass [] = calls := by
  simp [Calls.pass]

@[simp] theorem Calls.pass_pass (calls : Calls) (nalus more : List Nalu) :
    (calls.pass nalus).pass more = calls.pass (nalus ++ more) := by
  simp [Calls.pass]

/-- A slice of the temporal layer `tId` may follow in the access unit. -/
def Calls.Allows (calls : Calls) (tId : Nat) : Prop :=
  ∀ entry ∈ calls.accessUnit, DecLib.bindsTemporalId entry.1 → tId ≤ entry.2

theorem Calls.Allows.pass {calls : Calls} {tId : Nat} (allows : calls.Allows tId)
    {nalus : List Nalu}
    (layers : ∀ nalu ∈ nalus, DecLib.bindsTemporalId nalu.nalUnitType → tId ≤ nalu.temporalId) :
    (calls.pass nalus).Allows tId := by
  intro entry here binds
  rcases List.mem_append.mp here with old | new
  · exact allows entry old binds
  · obtain ⟨nalu, inside, rfl⟩ := List.mem_map.mp new
    exact layers nalu inside binds

/-- A unit that neither belongs to a picture nor ends a sequence. -/
@[grind =] def isPlain (t : NalUnitType) : Bool :=
  !t.isSlice && t ≠ .ph && t ≠ .eos && t ≠ .fd && t ≠ .invalid

section Plain

variable {app : DecApp} {nalu : Nalu}

theorem NalUnitType.isIDR_eq_false {t : NalUnitType} (noSlice : t.isSlice = false) :
    t.isIDR = false := by
  cases t <;> simp_all [NalUnitType.isSlice, NalUnitType.isIDR]

/-- What `decode` keeps of a unit other than a slice. -/
def DecLib.keep (lib : DecLib) (nalu : Nalu) : DecLib :=
  { lib with
    accessUnitNals := lib.accessUnitNals ++ [(nalu.nalUnitType, nalu.temporalId)]
    prefixSEINALUs :=
      if nalu.nalUnitType = .prefixSei then lib.prefixSEINALUs ++ [nalu] else lib.prefixSEINALUs }

/-- `DecLib::decode` of a plain unit changes nothing the output depends on. -/
theorem decodeNalu_plain (plain : isPlain nalu.nalUnitType) (layer : app.iMaxTemporalLayer = -1)
    (free : isReservedIrap nalu.nalUnitType → app.decLib.prefixSEINALUs = []) :
    app.decodeNalu nalu =
      .ok { app with decLib := app.decLib.keep nalu, passed := app.passed ++ [nalu] } := by
  simp only [isPlain, Bool.and_eq_true, Bool.not_eq_true', decide_eq_true_eq] at plain
  obtain ⟨⟨⟨⟨noSlice, noHeader⟩, noEos⟩, noFd⟩, noInvalid⟩ := plain
  have kept : app.decLib.decode nalu app.iSkipFrame = .ok (app.decLib.keep nalu, app.iSkipFrame) := by
    rw [DecLib.decode, noSlice, DecLib.keep]
    revert noHeader noEos noFd noInvalid free
    cases nalu.nalUnitType <;>
      simp +contextual [isReservedIrap, DecLib.xParsePrefixSEIsForUnknownVCLNal, Except.map]
  simp [DecApp.decodeNalu, NalUnitType.isIDR_eq_false noSlice, layer, kept, Except.map]

theorem decodeNalu_header (header : nalu.nalUnitType = .ph) (layer : app.iMaxTemporalLayer = -1) :
    app.decodeNalu nalu = .ok
      { app with
        decLib :=
          { app.decLib.keep nalu with picHeader := nalu.picHeader, picHeaderValid := true }
        passed := app.passed ++ [nalu] } := by
  have stored : app.decLib.decode nalu app.iSkipFrame =
      .ok ({ app.decLib.keep nalu with picHeader := nalu.picHeader, picHeaderValid := true },
        app.iSkipFrame) := by
    simp [DecLib.decode, DecLib.keep, header, NalUnitType.isSlice]
  simp [DecApp.decodeNalu, header, NalUnitType.isIDR, layer, stored, Except.map]

/-- Without a reason to finish a picture the rest of the loop at most writes. -/
theorem afterNalu_of_ne_eos (app : DecApp) {t : NalUnitType} (noEos : t ≠ .eos) :
    app.afterNalu false false t = app ∨ app.afterNalu false false t = app.xWriteOutput := by
  simp only [DecApp.afterNalu, DecApp.finishStep, DecApp.writeStep, noEos]
  cases set : app.pcListPic with
  | false => exact .inl (by simp [set])
  | true =>
      by_cases vcl : t.code ≤ NalUnitType.reservedIrapVcl12.code
      · exact .inr (by simp [vcl, set])
      · exact .inl (by simp [vcl])

end Plain

section Keep

variable {stage : Stage} {base : List Frame} {calls : Calls} {app : DecApp} {cur : CodedPicture}
  {slices : List Nalu}

theorem exists_mem_of_idle {list list' : List Picture}
    (same : List.Forall₂ DecApp.SameOrWritten list list') {pic : Picture} (here : pic ∈ list)
    (idle : pic.neededForOutput = false) : pic ∈ list' := by
  obtain ⟨q, there, related⟩ :=
    BufferInv.exists_of_mem_right (R := fun q p => DecApp.SameOrWritten p q) same.flip here
  rcases related with rfl | ⟨needed, -⟩
  · exact there
  · simp [idle] at needed

theorem Idle.xWriteOutput (idle : Idle stage base calls app) (limited : stage.Limited) :
    Idle stage base calls app.xWriteOutput ∧ app.xWriteOutput.total = app.total := by
  obtain ⟨listPic, last, out, equation, same, inv, total⟩ := idle.inv.xWriteOutput limited
  refine ⟨⟨inv, ?_, ?_⟩, total⟩
  · intro null
    rw [equation] at null ⊢
    rw [idle.null null] at same
    exact List.forall₂_nil_left_iff.mp same
  · intro empty
    rw [equation] at empty
    have none : app.decLib.listPic = [] := by
      simp only at empty
      rw [empty] at same
      exact List.forall₂_nil_right_iff.mp same
    have unchanged : app.xWriteOutput = app := by
      rw [DecApp.xWriteOutput, none]
    rw [unchanged]
    exact idle.emptied none

theorem Decoding.xWriteOutput (decoding : Decoding stage cur slices base calls app)
    (limited : stage.Limited) : Decoding stage cur slices base calls app.xWriteOutput := by
  obtain ⟨listPic, last, out, equation, same, inv, total⟩ := decoding.inv.xWriteOutput limited
  obtain ⟨pic, here, current, waits, frame⟩ := decoding.current
  rw [equation] at inv ⊢
  exact ⟨inv, ⟨pic, exists_mem_of_idle same here waits, current, waits, frame⟩,
    decoding.inPicture, decoding.inSequence, decoding.randomAccess, decoding.header,
    decoding.valid, decoding.lastType⟩

theorem AppInv.pass {current : Option Nat} (inv : AppInv stage current base calls app)
    {nalu : Nalu} (noSlice : nalu.nalUnitType.isSlice = false) :
    AppInv stage current base (calls.pass [nalu])
      { app with decLib := app.decLib.keep nalu, passed := app.passed ++ [nalu] } := by
  obtain ⟨written, split, buffer⟩ := inv.buffer
  refine { inv with buffer := ⟨written, split, buffer.congr _ rfl rfl⟩, passed := ?_, nals := ?_, seis := ?_ }
  · simp [Calls.pass, inv.passed]
  · simp [DecLib.keep, Calls.pass, inv.nals]
  · simp [DecLib.keep, Calls.pass, inv.seis, waitingSeis_concat, noSlice]

/-- A plain unit that is decoded. -/
theorem AppInv.decode_plain {current : Option Nat} (inv : AppInv stage current base calls app)
    {nalu : Nalu} (plain : isPlain nalu.nalUnitType) (free : Passable calls.passed [nalu]) :
    app.decodeNalu nalu =
      .ok { app with decLib := app.decLib.keep nalu, passed := app.passed ++ [nalu] } :=
  decodeNalu_plain plain inv.layer fun reserved => inv.seis.trans (free.2.1 reserved)

/-- What the units between two pictures leave alone. -/
structure SameFlags (app app' : DecApp) : Prop where
  total : app'.total = app.total
  inPicture : app'.decLib.firstSliceInPicture = app.decLib.firstSliceInPicture
  inSequence : app'.decLib.firstSliceInSequence = app.decLib.firstSliceInSequence
  randomAccess : app'.decLib.pocRandomAccess = app.decLib.pocRandomAccess

theorem SameFlags.refl (app : DecApp) : SameFlags app app := ⟨rfl, rfl, rfl, rfl⟩

theorem SameFlags.trans {app' app'' : DecApp} (first : SameFlags app app')
    (second : SameFlags app' app'') : SameFlags app app'' :=
  ⟨second.total.trans first.total, second.inPicture.trans first.inPicture,
    second.inSequence.trans first.inSequence, second.randomAccess.trans first.randomAccess⟩

/-- The rest of the loop behind a unit that does not end a sequence. -/
theorem Idle.afterNalu (idle : Idle stage base calls app) (limited : stage.Limited)
    {t : NalUnitType} (noEos : t ≠ .eos) :
    Idle stage base calls (app.afterNalu false false t) ∧
      SameFlags app (app.afterNalu false false t) ∧
      (app.afterNalu false false t).decLib.picHeader = app.decLib.picHeader ∧
      (app.afterNalu false false t).decLib.picHeaderValid = app.decLib.picHeaderValid := by
  rcases afterNalu_of_ne_eos app noEos with same | written
  · rw [same]
    exact ⟨idle, .refl app, rfl, rfl⟩
  · obtain ⟨idle', total⟩ := idle.xWriteOutput limited
    obtain ⟨listPic, last, out, equation, -⟩ := idle.inv.xWriteOutput limited
    rw [written]
    refine ⟨idle', ⟨total, ?_, ?_, ?_⟩, ?_, ?_⟩ <;> rw [equation]

theorem isPlain_ne_eos {t : NalUnitType} (plain : isPlain t) : t ≠ .eos := by
  rintro rfl
  simp [isPlain] at plain

theorem isPlain_noSlice {t : NalUnitType} (plain : isPlain t) : t.isSlice = false := by
  revert plain
  cases t <;> simp [isPlain, NalUnitType.isSlice]

/-- A plain unit between two pictures. -/
theorem Idle.plain (idle : Idle stage base calls app) (limited : stage.Limited) {nalu : Nalu}
    (plain : isPlain nalu.nalUnitType) (free : Passable calls.passed [nalu]) (rest : List Nalu)
    (same : app.decLib.firstSliceInPicture = true ∨
      DecApp.nextPicture (nalu :: rest) = some false) :
    ∃ app', DecApp.Advances app (nalu :: rest) app' rest ∧
      Idle stage base (calls.pass [nalu]) app' ∧ SameFlags app app' ∧
      app'.decLib.picHeader = app.decLib.picHeader ∧
      app'.decLib.picHeaderValid = app.decLib.picHeaderValid := by
  have passed : Idle stage base (calls.pass [nalu])
      { app with decLib := app.decLib.keep nalu, passed := app.passed ++ [nalu] } :=
    ⟨idle.inv.pass (isPlain_noSlice plain), idle.null, idle.emptied⟩
  obtain ⟨idle', flags, header, valid⟩ := passed.afterNalu limited (isPlain_ne_eos plain)
  exact ⟨_, DecApp.advances_decode same (idle.inv.decode_plain plain free), idle',
    ⟨flags.total, flags.inPicture, flags.inSequence, flags.randomAccess⟩, header, valid⟩

/-- A picture header between two pictures. -/
theorem Idle.header (idle : Idle stage base calls app) (limited : stage.Limited) {nalu : Nalu}
    (header : nalu.nalUnitType = .ph) (rest : List Nalu)
    (inPicture : app.decLib.firstSliceInPicture = true) :
    ∃ app', DecApp.Advances app (nalu :: rest) app' rest ∧
      Idle stage base (calls.pass [nalu]) app' ∧ SameFlags app app' ∧
      app'.decLib.picHeader = nalu.picHeader ∧ app'.decLib.picHeaderValid = true := by
  have kept := idle.inv.pass (show nalu.nalUnitType.isSlice = false by rw [header]; rfl)
  obtain ⟨written, split, buffer⟩ := kept.buffer
  have passed : Idle stage base (calls.pass [nalu])
      { app with
        decLib :=
          { app.decLib.keep nalu with picHeader := nalu.picHeader, picHeaderValid := true }
        passed := app.passed ++ [nalu] } :=
    ⟨{ kept with buffer := ⟨written, split, buffer.congr _ rfl rfl⟩ }, idle.null, idle.emptied⟩
  obtain ⟨idle', flags, sent, valid⟩ := passed.afterNalu limited
    (by rw [header]; decide : nalu.nalUnitType ≠ .eos)
  exact ⟨_, DecApp.advances_decode (.inl inPicture) (decodeNalu_header header idle.inv.layer),
    idle', ⟨flags.total, flags.inPicture, flags.inSequence, flags.randomAccess⟩, sent, valid⟩

/-- Plain units between two pictures. -/
theorem Idle.plains (idle : Idle stage base calls app) (limited : stage.Limited)
    {nalus : List Nalu} (plain : ∀ nalu ∈ nalus, isPlain nalu.nalUnitType)
    (free : Passable calls.passed nalus)
    (inPicture : app.decLib.firstSliceInPicture = true) (rest : List Nalu) :
    ∃ app', DecApp.Advances app (nalus ++ rest) app' rest ∧
      Idle stage base (calls.pass nalus) app' ∧ SameFlags app app' ∧
      app'.decLib.picHeader = app.decLib.picHeader ∧
      app'.decLib.picHeaderValid = app.decLib.picHeaderValid := by
  induction nalus generalizing app calls with
  | nil => exact ⟨app, .refl, by simpa using idle, .refl app, rfl, rfl⟩
  | cons nalu nalus ih =>
      obtain ⟨first, others⟩ := List.forall_mem_cons.mp plain
      obtain ⟨app', advance, idle', flags, header, valid⟩ :=
        idle.plain limited first free.first (nalus ++ rest) (.inl inPicture)
      obtain ⟨app'', advance', idle'', flags', header', valid'⟩ :=
        ih idle' others free.2.2 (flags.inPicture.trans inPicture)
      exact ⟨app'', advance.trans advance', by simpa using idle'', flags.trans flags',
        header'.trans header, valid'.trans valid⟩

/-- A unit other than a slice within a picture. -/
theorem Decoding.pass (decoding : Decoding stage cur slices base calls app) {nalu : Nalu}
    (noSlice : nalu.nalUnitType.isSlice = false) :
    Decoding stage cur slices base (calls.pass [nalu])
      { app with decLib := app.decLib.keep nalu, passed := app.passed ++ [nalu] } :=
  ⟨decoding.inv.pass noSlice, decoding.current, decoding.inPicture, decoding.inSequence,
    decoding.randomAccess, decoding.header, decoding.valid, decoding.lastType⟩

/-- A plain unit within a picture. -/
theorem Decoding.plain (decoding : Decoding stage cur slices base calls app)
    (limited : stage.Limited) {nalu : Nalu} (plain : isPlain nalu.nalUnitType)
    (free : Passable calls.passed [nalu]) {rest : List Nalu}
    (same : DecApp.nextPicture (nalu :: rest) = some false) :
    ∃ app', DecApp.Advances app (nalu :: rest) app' rest ∧
      Decoding stage cur slices base (calls.pass [nalu]) app' := by
  have advance := DecApp.advances_decode (.inr same)
    (decoding.inv.decode_plain plain free)
  have passed := decoding.pass (isPlain_noSlice plain)
  rcases afterNalu_of_ne_eos
    { app with decLib := app.decLib.keep nalu, passed := app.passed ++ [nalu] }
    (isPlain_ne_eos plain) with same | written
  · exact ⟨_, same ▸ advance, passed⟩
  · exact ⟨_, written ▸ advance, passed.xWriteOutput limited⟩

end Keep

section Slices

variable {stage : Stage} {base : List Frame} {calls : Calls} {app : DecApp} {cur : CodedPicture}
  {slices : List Nalu} {nalu : Nalu} {lib : DecLib}

theorem NalUnitType.ne_eos_of_isSlice {t : NalUnitType} (slice : t.isSlice) : t ≠ .eos := by
  rintro rfl
  simp [NalUnitType.isSlice] at slice

/-- Without a random access picture at the start of the sequence the inferences of a
slice change no more than `no_output_of_prior_pics_flag`. -/
theorem inferOutput_eq (prior : lib.isNoOutputPriorPics = false)
    (incorrect : lib.lastNoIncorrectPicOutputFlag = false)
    (inSequence : nalu.nalUnitType.isIDR ∨ lib.firstSliceInSequence = false) :
    ∃ noOutput lastPOC, (lib.checkNoOutputPriorPics nalu).inferOutput nalu =
      ({ lib with
          picHeader := ⟨lib.picHeader.picOutputFlag, noOutput⟩
          lastPOCNoOutputPriorPics := lastPOC }, nalu.slice.poc) := by
  have kept : lib.checkNoOutputPriorPics nalu = lib := by
    simp [DecLib.checkNoOutputPriorPics, prior]
  have noIncorrect : lib.noIncorrectPicOutputFlag nalu = false := by
    rcases inSequence with idr | inSequence
    · have other : nalu.nalUnitType.isCraOrGdr = false := by
        revert idr
        cases nalu.nalUnitType <;> simp [NalUnitType.isIDR, NalUnitType.isCraOrGdr]
      simp [DecLib.noIncorrectPicOutputFlag, other]
    · simp [DecLib.noIncorrectPicOutputFlag, inSequence]
  obtain ⟨nals, seis, listPic, nextBuffer, pcPic, ⟨output, noOutput⟩, valid, inPicture, inSeq,
    inBitstream, prevPOC, random, lastPOC, isPrior, last⟩ := lib
  obtain rfl : isPrior = false := prior
  obtain rfl : last = false := incorrect
  rw [kept]
  cases rap : DecLib.isRapOrGdr nalu with
  | true =>
      exact ⟨false, lastPOC, by
        simp [DecLib.inferOutput, DecLib.inferNoOutputOfPriorPics, rap, noIncorrect]⟩
  | false =>
      exact ⟨noOutput, lastPOC, by
        simp [DecLib.inferOutput, DecLib.inferNoOutputOfPriorPics, rap, noIncorrect]⟩

/-- The decoding of a slice that is neither skipped nor left for the next picture. -/
theorem decode_slice (slice : nalu.nalUnitType.isSlice) (valid : lib.picHeaderValid = true)
    (prior : lib.isNoOutputPriorPics = false)
    (incorrect : lib.lastNoIncorrectPicOutputFlag = false)
    (start : nalu.nalUnitType.isIDR ∨
      lib.firstSliceInSequence = false ∧ lib.pocRandomAccess = -maxInt)
    (range : -maxInt < nalu.slice.poc)
    (enter : lib.firstSliceInPicture = true ∨ nalu.slice.sliceCurStartCtuTsAddr ≠ 0 ∧
      lib.lastSliceType = some nalu.nalUnitType)
    (layers : ∀ entry ∈ lib.accessUnitNals, DecLib.bindsTemporalId entry.1 →
      nalu.temporalId ≤ entry.2)
    (gdr : nalu.nalUnitType = .codedSliceGdr → nalu.temporalId = 0)
    (available : lib.refPicsAvailable nalu = true) :
    ∃ noOutput lastPOC,
      let lib' : DecLib :=
        { lib with
          accessUnitNals := lib.accessUnitNals ++ [(nalu.nalUnitType, nalu.temporalId)]
          prefixSEINALUs := []
          picHeader := ⟨lib.picHeader.picOutputFlag, noOutput⟩
          lastPOCNoOutputPriorPics := lastPOC
          pocRandomAccess := -maxInt }
      lib.decode nalu 0 = .ok
        ((if lib.firstSliceInPicture then lib'.xActivateParameterSets nalu nalu.slice.poc
          else lib').decompressSlice nalu nalu.slice.poc, 0) := by
  set met : DecLib := { lib with
    accessUnitNals := lib.accessUnitNals ++ [(nalu.nalUnitType, nalu.temporalId)] } with metDef
  obtain ⟨noOutput, lastPOC, inferred⟩ :=
    @inferOutput_eq _ met prior incorrect (start.imp_right And.left)
  refine ⟨noOutput, lastPOC, ?_⟩
  have checked : met.checkSliceNalu nalu = .ok () := by
    have same : ¬ (met.firstSliceInPicture = false ∧ met.lastSliceType ≠ some nalu.nalUnitType) := by
      rintro ⟨inside, differs⟩
      rcases enter with first | ⟨-, same⟩
      · exact absurd (first.symm.trans inside) (by simp)
      · exact differs same
    have low : ¬ met.accessUnitNals.any fun entry =>
        DecLib.bindsTemporalId entry.1 && entry.2 < nalu.temporalId := by
      simp only [List.any_eq_true, Bool.and_eq_true, decide_eq_true_eq, not_exists, not_and,
        not_lt, metDef, List.mem_append, List.mem_singleton]
      rintro entry (old | rfl) binds
      · exact layers entry old binds
      · exact Nat.le_refl _
    rw [DecLib.checkSliceNalu, if_neg same, if_neg low, if_neg fun wrong => wrong.2 (gdr wrong.1)]
  have random : ∀ lib : DecLib, nalu.nalUnitType.isIDR ∨ lib.pocRandomAccess = -maxInt →
      lib.isRandomAccessSkipPicture nalu nalu.slice.poc 0 = (false, -maxInt, 0) := by
    intro lib known
    rw [DecLib.isRandomAccessSkipPicture, if_neg (by simp)]
    cases idr : nalu.nalUnitType.isIDR with
    | true => rfl
    | false =>
        have here : lib.pocRandomAccess = -maxInt := by simpa [idr] using known
        rw [if_neg (by simp), here, if_neg (by decide), if_neg (by omega)]
  have stays : ¬ (nalu.slice.sliceCurStartCtuTsAddr = 0 ∧ lib.firstSliceInPicture = false ∧
      lib.prevPOC ≥ -maxInt) := by
    rintro ⟨zero, inside, -⟩
    rcases enter with first | ⟨other, -⟩
    · simp [first] at inside
    · exact other zero
  have skip := random { met with
      picHeader := ⟨met.picHeader.picOutputFlag, noOutput⟩
      lastPOCNoOutputPriorPics := lastPOC } (start.imp_right And.right)
  have missing : ¬ lib.refPicsAvailable nalu = false := by simp [available]
  rw [DecLib.decode, if_pos slice, DecLib.xDecodeSlice, if_neg (by simp [valid]), ← metDef, checked]
  show met.decodeChecked nalu 0 = _
  simp only [DecLib.decodeChecked, inferred, skip, Bool.false_eq_true, if_false]
  rw [if_neg stays]
  exact if_neg missing

/-- The stage after the first slice of a picture. -/
def Stage.start (stage : Stage) (cur : CodedPicture) : Stage :=
  { stage with marked := cur.poc :: cur.refs, known := stage.known ++ [cur.poc] }

/-- `DecLib::decode` of the first slice of a picture. -/
theorem decode_firstSlice (inv : AppInv stage none base calls app)
    (inPicture : app.decLib.firstSliceInPicture = true)
    (header : app.decLib.picHeader.picOutputFlag = cur.output)
    (valid : app.decLib.picHeaderValid = true) (legal : cur.Valid stage.sps)
    (start : cur.isIDR ∨
      app.decLib.firstSliceInSequence = false ∧ app.decLib.pocRandomAccess = -maxInt)
    (new : cur.poc ∉ stage.known) (listed : cur.refs ⊆ stage.marked)
    (allows : calls.Allows cur.first.temporalId) :
    ∃ lib, app.decLib.decode cur.first app.iSkipFrame = .ok (lib, 0) ∧
      Decoding (stage.start cur) cur [cur.first] base (calls.pass [cur.first])
        { app with decLib := lib, iSkipFrame := 0, passed := app.passed ++ [cur.first] } := by
  obtain ⟨written, split, buffer⟩ := inv.buffer
  have available : app.decLib.refPicsAvailable cur.first = true := by
    rw [DecLib.refPicsAvailable]
    cases idr : cur.first.nalUnitType.isIDR with
    | true => rfl
    | false =>
        rw [Bool.false_or, List.all_eq_true]
        intro poc listedPoc
        have reference : poc ∈ cur.refs := by
          simpa [CodedPicture.refs, CodedPicture.isIDR, idr] using listedPoc
        obtain ⟨pic, here, named, referenced⟩ := buffer.present poc (listed reference)
        exact List.any_eq_true.mpr ⟨pic, here, by simp [named, referenced]⟩
  obtain ⟨noOutput, lastPOC, decoded⟩ := decode_slice legal.first valid inv.prior inv.incorrect
    start legal.range (.inl inPicture) (inv.nals ▸ allows) (fun gdr => legal.lowest (.inr gdr))
    available
  obtain ⟨listPic, nextBuffer, buf, started, inList, buffer'⟩ :=
    (buffer.congr
      { app.decLib with
        accessUnitNals := app.decLib.accessUnitNals ++
          [(cur.first.nalUnitType, cur.first.temporalId)]
        prefixSEINALUs := []
        picHeader := ⟨app.decLib.picHeader.picOutputFlag, noOutput⟩
        lastPOCNoOutputPriorPics := lastPOC
        pocRandomAccess := -maxInt } rfl rfl).start legal.sps new listed rfl
  dsimp only at decoded started
  rw [if_pos inPicture] at decoded
  rw [inv.skip]
  refine ⟨_, decoded, ?_⟩
  have pocs : cur.first.slice.poc = cur.poc := rfl
  rw [pocs, started]
  refine ⟨⟨⟨written, split, buffer'.congr _ rfl rfl⟩, rfl, inv.layer, inv.prior, inv.incorrect, ?_,
    inv.filtered, inv.finished, inv.loopFiltered, ?_, ?_⟩, ?_, rfl, rfl, rfl, header, valid, rfl⟩
  · simp [Calls.pass, inv.passed]
  · simp [Calls.pass, inv.nals]
  · simp [Calls.pass, waitingSeis_concat, legal.first]
  · exact ⟨_, inList, rfl, rfl, rfl, rfl⟩

/-- The current picture stands at one place of the list. -/
theorem Decoding.split (decoding : Decoding stage cur slices base calls app) :
    ∃ front pic rest, app.decLib.listPic = front ++ pic :: rest ∧
      app.decLib.pcPic = some pic.buffer ∧ pic.neededForOutput = false ∧
      pic.referenced = true ∧ pic.poc = cur.poc ∧ pic.slices = slices ∧
      ((front ++ pic :: rest).map (·.buffer)).Nodup := by
  obtain ⟨pic, here, current, waits, referenced, frame⟩ := decoding.current
  obtain ⟨front, rest, list⟩ := List.append_of_mem here
  obtain ⟨written, -, buffer⟩ := decoding.inv.buffer
  obtain ⟨poc, parts⟩ := Frame.mk.inj frame
  exact ⟨front, pic, rest, list, current, waits, referenced, poc, parts, list ▸ buffer.buffers⟩

/-- `m_pcPic` points to the picture at that place. -/
theorem currentPic_eq {front rest : List Picture} {pic : Picture}
    (list : lib.listPic = front ++ pic :: rest) (current : lib.pcPic = some pic.buffer)
    (apart : ((front ++ pic :: rest).map (·.buffer)).Nodup) : lib.currentPic = some pic := by
  rw [DecLib.currentPic, current, Option.bind_some, list, List.find?_eq_some_iff_append]
  refine ⟨by simp, front, rest, rfl, fun p inFront => ?_⟩
  rw [List.map_append, List.map_cons, List.nodup_append] at apart
  have other := apart.2.2 _ (List.mem_map_of_mem inFront) _ List.mem_cons_self
  simpa using other

/-- `DecLib::decode` of another slice of the picture. -/
theorem decode_nextSlice (decoding : Decoding stage cur slices base calls app)
    (slice : nalu.nalUnitType.isSlice) (poc : nalu.slice.poc = cur.poc) (range : -maxInt < cur.poc)
    (address : nalu.slice.sliceCurStartCtuTsAddr ≠ 0)
    (type : nalu.nalUnitType = cur.first.nalUnitType) (allows : calls.Allows nalu.temporalId)
    (gdr : nalu.nalUnitType = .codedSliceGdr → nalu.temporalId = 0)
    (listed : nalu.nalUnitType.isIDR ∨ nalu.slice.refPocs ⊆ stage.marked) :
    ∃ lib, app.decLib.decode nalu app.iSkipFrame = .ok (lib, 0) ∧
      Decoding stage cur (slices ++ [nalu]) base (calls.pass [nalu])
        { app with decLib := lib, iSkipFrame := 0, passed := app.passed ++ [nalu] } := by
  obtain ⟨written, splitWritten, buffer⟩ := decoding.inv.buffer
  obtain ⟨front, pic, rest, list, current, waits, referenced, named, parts, apart⟩ :=
    decoding.split
  have available : app.decLib.refPicsAvailable nalu = true := by
    rw [DecLib.refPicsAvailable]
    rcases listed with idr | listed
    · rw [idr, Bool.true_or]
    · rw [Bool.or_eq_true, List.all_eq_true]
      refine .inr fun poc inList => ?_
      obtain ⟨pic, here, named, referenced⟩ := buffer.present poc (listed inList)
      exact List.any_eq_true.mpr ⟨pic, here, by simp [named, referenced]⟩
  have sameType : app.decLib.lastSliceType = some nalu.nalUnitType := by
    rw [DecLib.lastSliceType, currentPic_eq list current apart, Option.bind_some, parts,
      decoding.lastType, type]
  obtain ⟨noOutput, lastPOC, decoded⟩ := decode_slice slice decoding.valid decoding.inv.prior
    decoding.inv.incorrect (.inr ⟨decoding.inSequence, decoding.randomAccess⟩) (poc ▸ range)
    (.inr ⟨address, sameType⟩) (decoding.inv.nals ▸ allows) gdr available
  dsimp only at decoded
  rw [if_neg (by simp [decoding.inPicture])] at decoded
  rw [decoding.inv.skip]
  refine ⟨_, decoded, ?_⟩
  have grown := buffer.addSlices list waits (pic.slices ++ [nalu])
  have moved : updatePic pic.buffer
      (fun p => { p with poc := nalu.slice.poc, referenced := true, slices := p.slices ++ [nalu] })
      (front ++ pic :: rest) = front ++ { pic with slices := pic.slices ++ [nalu] } :: rest := by
    rw [updatePic_append _ apart, poc, ← named, ← referenced]
  have listPic : (DecLib.decompressSlice
      { app.decLib with
        accessUnitNals := app.decLib.accessUnitNals ++ [(nalu.nalUnitType, nalu.temporalId)]
        prefixSEINALUs := []
        picHeader := ⟨app.decLib.picHeader.picOutputFlag, noOutput⟩
        lastPOCNoOutputPriorPics := lastPOC
        pocRandomAccess := -maxInt } nalu nalu.slice.poc).listPic =
        front ++ { pic with slices := pic.slices ++ [nalu] } :: rest := by
    simp only [DecLib.decompressSlice, current, list, moved]
  refine ⟨⟨⟨written, splitWritten, grown.congr _ listPic rfl⟩, rfl, decoding.inv.layer,
    decoding.inv.prior, decoding.inv.incorrect, ?_, decoding.inv.filtered, decoding.inv.finished,
    decoding.inv.loopFiltered, ?_, ?_⟩, ?_, rfl, rfl, rfl, decoding.header, decoding.valid, ?_⟩
  · simp [Calls.pass, decoding.inv.passed]
  · simp [Calls.pass, DecLib.decompressSlice, decoding.inv.nals]
  · simp [Calls.pass, DecLib.decompressSlice, waitingSeis_concat, slice]
  · refine ⟨{ pic with slices := pic.slices ++ [nalu] }, ?_, current, waits, referenced, ?_⟩
    · exact listPic ▸ List.mem_append_right _ List.mem_cons_self
    · rw [Picture.frame, named, parts]
  · simp [type]

/-- The stage after the end of a picture. -/
def Stage.finish (stage : Stage) (cur : CodedPicture) (slices : List Nalu) (future : List Int) :
    Stage :=
  { stage with
    finished := stage.finished ++ if cur.output then [⟨cur.poc, slices⟩] else []
    future }

/-- The end of a picture. -/
def Calls.finish (calls : Calls) (cur : CodedPicture) (slices : List Nalu) : Calls :=
  { calls with finished := calls.finished ++ [⟨cur.poc, slices⟩] }

/-- `executeLoopFilters` and `finishPicture` on the current picture. -/
theorem Decoding.finishPicture (decoding : Decoding stage cur slices base calls app)
    {future : List Int} (fewer : future ⊆ stage.future) (due : cur.output → cur.poc ∈ stage.future)
    (gone : cur.poc ∉ future) :
    Idle (stage.finish cur slices future) base (calls.finish cur slices) app.finishPicture := by
  obtain ⟨written, splitWritten, buffer⟩ := decoding.inv.buffer
  obtain ⟨front, pic, rest, list, current, waits, referenced, named, parts, apart⟩ :=
    decoding.split
  have found := currentPic_eq list current apart
  have frame : pic.frame = ⟨cur.poc, slices⟩ := by rw [Picture.frame, named, parts]
  have done := @BufferInv.finish stage.sps stage.finished stage.future stage.marked stage.known
    app.decLib app.iPOCLastDisplay written front rest pic (current ▸ buffer) list waits cur.output
    future fewer (named ▸ due) (named ▸ gone)
  have listPic : app.decLib.finishPicture.listPic = sortPicList (front ++
      { pic with neededForOutput := cur.output, reconstructed := true } :: rest) := by
    simp only [DecLib.finishPicture, current, list, updatePic_append _ apart, decoding.header]
  have nonempty : app.decLib.finishPicture.listPic ≠ [] := by
    intro wrong
    rw [listPic] at wrong
    have perm := sortPicList_perm (front ++
      { pic with neededForOutput := cur.output, reconstructed := true } :: rest)
    rw [wrong] at perm
    simpa using perm.length_eq
  refine ⟨⟨⟨written, splitWritten, ?_⟩, decoding.inv.skip, decoding.inv.layer,
    decoding.inv.prior, decoding.inv.incorrect, decoding.inv.passed, ?_, ?_,
    decoding.inv.loopFiltered, decoding.inv.nals, decoding.inv.seis⟩, ?_,
    fun wrong => absurd wrong nonempty⟩
  · rw [frame] at done
    exact done.congr _ listPic rfl
  · simp [DecApp.finishPicture, found, frame, Calls.finish, decoding.inv.filtered]
  · simp [DecApp.finishPicture, found, frame, Calls.finish, decoding.inv.finished]
  · intro wrong
    simp [DecApp.finishPicture] at wrong

end Slices

end Vtm.Dec
