import Vtm.LostPics.InUse
import Vtm.Output.WriteOutput

/-!
# Calls of xGetNewPicBuffer

The calls that the decoder makes in a run of the loop of `DecApp::decode`. The picture
that is being decoded has the flags of a free one, so a call for a lost reference picture
of one of its later slices can take it. `taken_not_inUse` says what keeps it.
-/

namespace Vtm.LostPics

open Vtm.RefPics Vtm.Std

/-- A call of `xGetNewPicBuffer`. -/
structure BufferCall where
  lib : DecLib
  sets : ParameterSets
  temporalLayer : Nat
  layerId : Nat

/-- The picture of the list that a call returns, as it was before; none if it is new. -/
def BufferCall.taken (call : BufferCall) : Option Picture :=
  call.lib.listPic[(call.lib.xGetNewPicBuffer call.sets call.temporalLayer call.layerId).2]?

/-- A picture that is a reference picture, waits for its output or is being decoded. -/
def InUse (lib : DecLib) (pic : Picture) : Prop :=
  pic.referenced ∨ pic.neededForOutput ∨ lib.isDecoding pic.buffer

/-- The call of a pass over a missing reference picture. -/
def fillCall (slice : Slice) (rpl : ReferencePictureList) (lib : DecLib) (layerId : Nat) :
    BufferCall :=
  ⟨checked slice rpl lib, lib.first, 0, layerId⟩

/-- The calls of the loops over missing reference pictures of a slice. -/
inductive LostCall (nalu : Nalu) (read : DecLib.Read) : BufferCall → Prop
  | list0 {tested : DecLib} {layerId : Nat}
      (reached : InLoop (read.lib.pilotSlice nalu read.poc) (nalu.slice.rpl .REF_PIC_LIST_0)
        read.lib tested)
      (missing : reported (read.lib.pilotSlice nalu read.poc) (nalu.slice.rpl .REF_PIC_LIST_0)
        tested.listPic > 0)
      (pilot : tested.pilotPic = some layerId) :
      LostCall nalu read (fillCall (read.lib.pilotSlice nalu read.poc)
        (nalu.slice.rpl .REF_PIC_LIST_0) tested layerId)
  | list1 {fills : List Fill} {middle tested : DecLib} {layerId : Nat}
      (first : Ends (read.lib.pilotSlice nalu read.poc) (nalu.slice.rpl .REF_PIC_LIST_0) read.lib
        fills middle)
      (reached : InLoop (read.lib.pilotSlice nalu read.poc) (nalu.slice.rpl .REF_PIC_LIST_1)
        middle tested)
      (missing : reported (read.lib.pilotSlice nalu read.poc) (nalu.slice.rpl .REF_PIC_LIST_1)
        tested.listPic > 0)
      (pilot : tested.pilotPic = some layerId) :
      LostCall nalu read (fillCall (read.lib.pilotSlice nalu read.poc)
        (nalu.slice.rpl .REF_PIC_LIST_1) tested layerId)

/-- A slice comes to its reference pictures. -/
structure DecLib.Reads (lib : DecLib) (nalu : Nalu) (iSkipFrame : Nat) (read : Read) :
    Prop where
  valid : lib.picHeaderValid
  front : lib.readAndSkip nalu iSkipFrame = .ok read
  kept : read.skipped = false
  goesOn : read.lib.findsNewPicture nalu = false

/-- The calls of `xDecodeSlice`. -/
inductive SliceCall (lib : DecLib) (nalu : Nalu) (iSkipFrame : Nat) : BufferCall → Prop
  | lost {read : DecLib.Read} {call : BufferCall} (reads : lib.Reads nalu iSkipFrame read)
      (lost : LostCall nalu read call) : SliceCall lib nalu iSkipFrame call
  | activate {read : DecLib.Read} {filled : DecLib} (reads : lib.Reads nalu iSkipFrame read)
      (inserted : read.lib.insertLostRefs (read.lib.pilotSlice nalu read.poc) = .ok filled)
      (inPicture : filled.firstSliceInPicture) :
      SliceCall lib nalu iSkipFrame
        ⟨{ filled with prevPOC := read.poc }, nalu.slice.sets, nalu.temporalId, nalu.nuhLayerId⟩

/-- The calls of a pass that decodes a NAL unit. -/
structure PassCall (app : DecApp) (nalu : Nalu) (call : BufferCall) : Prop where
  inLayers : app.iMaxTemporalLayer < 0 ∨ (nalu.temporalId : Int) ≤ app.iMaxTemporalLayer
  isSlice : nalu.nalUnitType.isSlice
  calls : SliceCall (app.flushForIDR nalu).decLib nalu app.iSkipFrame call

/-- The states in front of the passes of the loop, while the connection is not lost. In
front of a NAL unit that starts a picture `isNewPicture` is true, unless no slice of a
picture has been decoded yet. -/
inductive Run (iSkipFrame : Nat) (iMaxTemporalLayer : Int) : DecApp → Prop
  | init : Run iSkipFrame iMaxTemporalLayer (.init iSkipFrame iMaxTemporalLayer)
  | newPicture {app : DecApp} (before : Run iSkipFrame iMaxTemporalLayer app)
      (inPicture : app.decLib.firstSliceInPicture = false) :
      Run iSkipFrame iMaxTemporalLayer app.newPicturePass
  | nalu {app next : DecApp} {nalu : Nalu} (before : Run iSkipFrame iMaxTemporalLayer app)
      (notNew : app.decLib.firstSliceInPicture ∨
        Dec.startsPicture nalu.nalUnitType ≠ some true)
      (decoded : app.naluPass nalu = .ok next) :
      Run iSkipFrame iMaxTemporalLayer next

/-- A call spares the picture that is being decoded: there is room for a new picture, or
another one in front of it is neither a reference picture nor waits for its output. -/
def Spares (call : BufferCall) : Prop :=
  ∀ (place : Nat) (pic : Picture), call.lib.listPic[place]? = some pic → call.lib.isDecoding pic.buffer →
    call.lib.listPic.length < call.sets.sps.getMaxDecPicBuffering call.temporalLayer ∨
    ∃ earlier < place, ∃ other : Picture, call.lib.listPic[earlier]? = some other ∧
      other.referenced = false ∧ other.neededForOutput = false

/-! ## The calls as lists -/

/-- The calls of a loop over missing reference pictures, in at most `fuel` tests of its
condition. -/
def loopCalls (slice : Slice) (rpl : ReferencePictureList) : Nat → DecLib → List BufferCall
  | 0, _ => []
  | fuel + 1, lib =>
      if reported slice rpl lib.listPic > 0 then
        match lib.pilotPic with
        | none => []
        | some layerId =>
            fillCall slice rpl lib layerId ::
              match (checked slice rpl lib).insertMissing slice rpl (reported slice rpl lib.listPic)
                  (reportedEntry slice rpl lib.listPic) with
              | .error _ => []
              | .ok (next, _) => loopCalls slice rpl fuel next
      else []

/-- The calls for the missing reference pictures of a slice. -/
def lostCalls (nalu : Nalu) (read : DecLib.Read) : List BufferCall :=
  let slice := read.lib.pilotSlice nalu read.poc
  let fuel := read.lib.listPic.length + 1
  loopCalls slice (nalu.slice.rpl .REF_PIC_LIST_0) fuel read.lib ++
    match DecLib.insertLoop slice (nalu.slice.rpl .REF_PIC_LIST_0) fuel read.lib with
    | some (.ok (_, middle)) => loopCalls slice (nalu.slice.rpl .REF_PIC_LIST_1) fuel middle
    | _ => []

/-- The calls behind a state of the loop are among those of the loop. -/
theorem InLoop.loopCalls_subset {slice : Slice} {rpl : ReferencePictureList}
    {start tested : DecLib} (reached : InLoop slice rpl start tested) {fuel : Nat}
    (enough : (freePics start.listPic).length < fuel) :
    ∃ left, (freePics tested.listPic).length < left ∧
      loopCalls slice rpl left tested ⊆ loopCalls slice rpl fuel start := by
  induction reached with
  | start => exact ⟨fuel, enough, fun _ member => member⟩
  | @pass lib _ _ before missing inserted ih =>
      obtain ⟨left, free, behind⟩ := ih
      have fewer := congrArg List.length (freePics_insertMissing slice rpl inserted)
      rw [List.length_cons] at fewer
      obtain ⟨left, rfl⟩ : ∃ rest, left = rest + 1 := ⟨left - 1, by omega⟩
      refine ⟨left, by omega, fun call member => behind ?_⟩
      obtain ⟨_, _, _, refit, _, _⟩ := insertMissing_ok slice rpl inserted
      obtain ⟨layerId, pilot⟩ := Option.isSome_iff_exists.mp refit.pilot
      rw [loopCalls, if_pos missing, show lib.pilotPic = some layerId from pilot, inserted]
      exact List.mem_cons_of_mem _ member

theorem InLoop.fillCall_mem {slice : Slice} {rpl : ReferencePictureList} {start tested : DecLib}
    (reached : InLoop slice rpl start tested) (missing : reported slice rpl tested.listPic > 0)
    {layerId : Nat} (pilot : tested.pilotPic = some layerId) {fuel : Nat}
    (enough : (freePics start.listPic).length < fuel) :
    fillCall slice rpl tested layerId ∈ loopCalls slice rpl fuel start := by
  obtain ⟨left, free, behind⟩ := reached.loopCalls_subset enough
  apply behind
  obtain ⟨left, rfl⟩ : ∃ rest, left = rest + 1 := ⟨left - 1, by omega⟩
  rw [loopCalls, if_pos missing, pilot]
  exact List.mem_cons_self

/-- The lists are complete. -/
theorem LostCall.mem_lostCalls {nalu : Nalu} {read : DecLib.Read} {call : BufferCall}
    (lost : LostCall nalu read call) : call ∈ lostCalls nalu read := by
  have enough : (freePics read.lib.listPic).length < read.lib.listPic.length + 1 :=
    Nat.lt_succ_of_le (length_places_le Picture.isFree read.lib.listPic)
  cases lost with
  | list0 reached missing pilot =>
      exact List.mem_append_left _ (reached.fillCall_mem missing pilot enough)
  | list1 first reached missing pilot =>
      have fewer := first.freePics_suffix.length_le
      obtain ⟨more, run⟩ := first
      obtain ⟨result, ends⟩ := insertLoop_terminates (read.lib.pilotSlice nalu read.poc)
        (nalu.slice.rpl .REF_PIC_LIST_0) enough
      have left := insertLoop_mono _ _ ends (Nat.le_max_left _ more)
      have right := insertLoop_mono _ _ run (Nat.le_max_right (read.lib.listPic.length + 1) more)
      obtain rfl := Option.some.inj (left.symm.trans right)
      apply List.mem_append_right
      rw [ends]
      exact reached.fillCall_mem missing pilot (fewer.trans_lt enough)

/-! ## The pictures stay settled -/

theorem Settled.init : Settled .init := ⟨nofun, nofun⟩

theorem quieter_of_written {pic : Picture} {out : Dec.Picture}
    (written : Dec.DecApp.SameOrWritten pic.output out) :
    Quieter pic { pic with
      reconstructed := out.reconstructed, neededForOutput := out.neededForOutput } := by
  rcases written with rfl | ⟨-, rfl⟩
  · exact .refl pic
  · refine ⟨rfl, id, nofun, ?_⟩
    intro referenced open'
    simpa [Dec.DecApp.writtenPic, Picture.output, show pic.referenced = true from referenced]
      using open'

theorem exists_quieter_of_zipWith {listPic : List Picture} {written : List Dec.Picture}
    (same : List.Forall₂ Dec.DecApp.SameOrWritten (listPic.map Picture.output) written) :
    ∀ pic' ∈ List.zipWith (fun pic out =>
        { pic with reconstructed := out.reconstructed, neededForOutput := out.neededForOutput })
      listPic written, ∃ pic ∈ listPic, Quieter pic pic' := by
  induction listPic generalizing written with
  | nil => exact nofun
  | cons pic listPic ih =>
      cases same with
      | cons here behind =>
          intro pic' member
          rcases List.mem_cons.mp member with rfl | member
          · exact ⟨pic, List.mem_cons_self, quieter_of_written here⟩
          · obtain ⟨other, there, quieter⟩ := ih behind pic' member
            exact ⟨other, List.mem_cons_of_mem pic there, quieter⟩

theorem Settled.xWriteOutput {app : DecApp} (settled : Settled app.decLib) :
    Settled app.xWriteOutput.decLib := by
  unfold DecApp.xWriteOutput
  split
  · exact settled
  · refine settled.change ?_ rfl rfl rfl
    intro pic' member
    exact Or.inr (exists_quieter_of_zipWith (Dec.DecApp.writeLoop_forall₂ ..) pic' member)

theorem Settled.flushForIDR {app : DecApp} (settled : Settled app.decLib) (nalu : Nalu) :
    Settled (app.flushForIDR nalu).decLib := by
  unfold DecApp.flushForIDR DecApp.xFlushOutput
  split
  · split
    · exact settled
    · exact ⟨nofun, nofun⟩
  · exact settled

theorem Settled.decodeNalu {app next : DecApp} {nalu : Nalu} (settled : Settled app.decLib)
    (decoded : app.decodeNalu nalu = .ok next) : Settled next.decLib := by
  have flushed := settled.flushForIDR nalu
  unfold DecApp.decodeNalu at decoded
  dsimp only at decoded
  split at decoded
  · obtain ⟨⟨lib, left⟩, done, rfl⟩ := map_eq_ok_iff.mp decoded
    exact flushed.decode done
  · cases decoded
    exact flushed

theorem Settled.finishStep {app : DecApp} (settled : Settled app.decLib)
    (bNewPicture isEOS : Bool) : Settled (app.finishStep bNewPicture isEOS).decLib := by
  unfold DecApp.finishStep
  split
  · split
    · rename_i inSequence
      refine ⟨settled.output, fun pic here referenced open' => ?_⟩
      -- in front of the first slice of a sequence no picture is unfinished
      have started := (settled.unfinished pic here referenced open').1
      rw [inSequence] at started
      cases started
    · refine ⟨fun pic here => (settled.finishPicture pic here).1, ?_⟩
      intro pic here referenced open'
      rw [(settled.finishPicture pic here).2 referenced] at open'
      cases open'
  · exact settled

theorem Settled.writeStep {app : DecApp} (settled : Settled app.decLib)
    (bNewPicture isEOS isVcl : Bool) :
    Settled (app.writeStep bNewPicture isEOS isVcl).decLib := by
  have first : Settled (if bNewPicture then app.xWriteOutput else app).decLib := by
    split
    · exact settled.xWriteOutput
    · exact settled
  have second : Settled (if isEOS then
      { (if bNewPicture then app.xWriteOutput else app).xWriteOutput with
        decLib := { (if bNewPicture then app.xWriteOutput else app).xWriteOutput.decLib with
          firstSliceInPicture := false } }
      else if bNewPicture then app.xWriteOutput else app).decLib := by
    split
    · have written := first.xWriteOutput
      refine ⟨written.output, fun pic here referenced open' => ?_⟩
      obtain ⟨inSequence, -, current⟩ := written.unfinished pic here referenced open'
      exact ⟨inSequence, rfl, current⟩
    · exact first
  unfold DecApp.writeStep
  split
  · dsimp only
    split
    · exact second.xWriteOutput
    · exact second
  · exact settled

/-- The pictures are settled in every run. -/
theorem Run.settled {iSkipFrame : Nat} {iMaxTemporalLayer : Int} {app : DecApp}
    (run : Run iSkipFrame iMaxTemporalLayer app) : Settled app.decLib := by
  induction run with
  | init => exact .init
  | newPicture _ _ ih => exact (ih.finishStep true false).writeStep true false false
  | nalu _ _ decoded ih =>
      obtain ⟨after, done, rfl⟩ := map_eq_ok_iff.mp decoded
      exact ((ih.decodeNalu done).finishStep _ _).writeStep _ _ _

theorem SliceCall.settled {lib : DecLib} {nalu : Nalu} {iSkipFrame : Nat} {call : BufferCall}
    (calls : SliceCall lib nalu iSkipFrame call) (settled : Settled lib) :
    Settled call.lib := by
  cases calls with
  | lost reads lost =>
      have before := settled.readAndSkip reads.front
      cases lost with
      | list0 reached => exact (before.inLoop reached).checked _ _
      | list1 first reached => exact ((before.ends first).inLoop reached).checked _ _
  | activate reads inserted _ =>
      obtain ⟨_, _, middle, first, second⟩ := insertLostRefs_ok inserted
      have filled := ((settled.readAndSkip reads.front).ends first).ends second
      exact ⟨filled.output, filled.unfinished⟩

/-- A call that spares the picture that is being decoded takes no picture in use. -/
theorem Settled.not_inUse {call : BufferCall} (settled : Settled call.lib)
    (spares : Spares call) {pic : Picture} (taken : call.taken = some pic) :
    ¬ InUse call.lib pic := by
  rw [BufferCall.taken] at taken
  obtain ⟨got, -⟩ | ⟨i, first, full, head, here, free, got⟩ :=
    xGetNewPicBuffer_cases call.lib call.sets call.temporalLayer call.layerId
  · rw [got, DecLib.pushPic, List.getElem?_eq_none (Nat.le_refl _)] at taken
    cases taken
  · rw [got] at taken
    obtain rfl := Option.some.inj (here.symm.trans taken)
    have notDecoding : ¬ call.lib.isDecoding first.buffer := by
      intro decoding
      rcases spares i first here decoding with room | ⟨j, before, other, there, unused, idle⟩
      · omega
      · rw [← findIdx?_eq_head?_places] at head
        obtain ⟨inside, -, earlier⟩ := List.findIdx?_eq_some_iff_getElem.mp head
        apply earlier j before
        obtain ⟨_, rfl⟩ := List.getElem?_eq_some_iff.mp there
        simp [Picture.isFree, unused, idle]
    simp only [Picture.isFree, Bool.or_eq_true, Bool.and_eq_true, Bool.not_eq_true'] at free
    rintro (referenced | needed | decoding)
    · rcases free with ⟨open', -⟩ | ⟨unused, -⟩
      · exact notDecoding
          (settled.unfinished first (List.mem_of_getElem? here) referenced open').2
      · rw [referenced] at unused
        cases unused
    · rcases free with ⟨-, idle⟩ | ⟨-, idle⟩ <;>
      · rw [needed] at idle
        cases idle
    · exact notDecoding decoding

/-- A pass of the loop: the start of a picture is found, or a NAL unit is decoded. -/
def DecApp.pass (app : DecApp) : Option Nalu → Except String DecApp
  | none => if app.decLib.firstSliceInPicture = false then .ok app.newPicturePass
      else .error "no slice of a picture has been decoded"
  | some nalu =>
      if app.decLib.firstSliceInPicture ∨ Dec.startsPicture nalu.nalUnitType ≠ some true then
        app.naluPass nalu
      else .error "a picture starts"

def DecApp.passes (app : DecApp) (units : List (Option Nalu)) : Except String DecApp :=
  units.foldlM DecApp.pass app

theorem Run.passes {iSkipFrame : Nat} {iMaxTemporalLayer : Int} {app last : DecApp}
    (run : Run iSkipFrame iMaxTemporalLayer app) {units : List (Option Nalu)}
    (done : app.passes units = .ok last) : Run iSkipFrame iMaxTemporalLayer last := by
  induction units generalizing app with
  | nil =>
      cases done
      exact run
  | cons unit units ih =>
      obtain ⟨next, first, rest⟩ := bind_eq_ok_iff.mp done
      refine ih ?_ rest
      cases unit with
      | none =>
          rw [DecApp.pass] at first
          split at first
          · cases first
            exact .newPicture run ‹_›
          · cases first
      | some nalu =>
          rw [DecApp.pass] at first
          split at first
          · exact .nalu run ‹_› first
          · cases first

/-- A sequence with room for two pictures. -/
def pairSets : ParameterSets := ⟨⟨1, [0], [2], 4⟩, ⟨64, 64, 64, 64⟩⟩

/-- A NAL unit of such a sequence; the lists of a slice name one picture each. -/
def pairNalu (nalUnitType : NalUnitType) (lsb start : Nat) (delta : Int) : Nalu where
  nalUnitType := nalUnitType
  temporalId := 0
  nuhLayerId := 0
  picHeader := .init
  first := pairSets
  slice :=
    { sets := pairSets
      slicePicOrderCntLsb := lsb
      sliceCurStartCtuTsAddr := start
      sliceType := .B_SLICE
      rpl := fun _ => singleEntry delta
      localRPL := fun _ => singleEntry delta
      numRefIdx := fun _ => 1 }

/-- The picture of POC 0, and the first slice of the picture of POC 1, which refers to it. -/
def pairUnits : List (Option Nalu) :=
  [some (pairNalu .sps 0 0 0), some (pairNalu .ph 0 0 0), some (pairNalu .codedSliceIdrNLp 0 0 0),
    none, some (pairNalu .ph 0 0 0), some (pairNalu .codedSliceTrail 1 0 1)]

/-- The second slice of that picture refers to the picture of POC 5, which is lost. -/
def lostNalu : Nalu := pairNalu .codedSliceTrail 1 1 (-4)

/-- In every run, a call of `xGetNewPicBuffer` takes a picture in use only if it is one for
a lost reference picture of a later slice that does not spare the current picture. -/
theorem taken_not_inUse {iSkipFrame : Nat} {iMaxTemporalLayer : Int} {app : DecApp}
    (run : Run iSkipFrame iMaxTemporalLayer app) {nalu : Nalu} {call : BufferCall}
    (made : PassCall app nalu call) (spares : Spares call) {pic : Picture}
    (taken : call.taken = some pic) : ¬ InUse call.lib pic :=
  (made.calls.settled (run.settled.flushForIDR nalu)).not_inUse spares taken

/-- Four pictures, each of which refers to the one before it; of the last one, what is in
front of its slice. -/
def chainUnits : List (Option Nalu) :=
  pairUnits ++ [none, some (pairNalu .ph 0 0 0), some (pairNalu .codedSliceTrail 2 0 1),
    none, some (pairNalu .ph 0 0 0)]

/-- The slice of the last picture. -/
def chainNalu : Nalu := pairNalu .codedSliceTrail 3 0 1

/-- A sequence with room for four pictures. -/
def roomySets : ParameterSets := ⟨⟨1, [0], [4], 4⟩, ⟨64, 64, 64, 64⟩⟩

/-- A NAL unit of such a sequence. -/
def roomyNalu (nalUnitType : NalUnitType) (lsb start : Nat) (delta : Int) : Nalu :=
  let nalu := pairNalu nalUnitType lsb start delta
  { nalu with first := roomySets, slice := { nalu.slice with sets := roomySets } }

/-- Four pictures, each of which refers to the one before it; the last one is not finished. -/
def roomyUnits : List (Option Nalu) :=
  [some (roomyNalu .sps 0 0 0), some (roomyNalu .ph 0 0 0),
    some (roomyNalu .codedSliceIdrNLp 0 0 0),
    none, some (roomyNalu .ph 0 0 0), some (roomyNalu .codedSliceTrail 1 0 1),
    none, some (roomyNalu .ph 0 0 0), some (roomyNalu .codedSliceTrail 2 0 1),
    none, some (roomyNalu .ph 0 0 0), some (roomyNalu .codedSliceTrail 3 0 1)]

/-- The second slice of the last picture refers to the picture of POC 7, which is lost. -/
def roomyLost : Nalu := roomyNalu .codedSliceTrail 3 1 (-4)

/-- The call for the first picture that `roomyLost` misses. -/
def firstLostCall (read : DecLib.Read) : BufferCall :=
  fillCall (read.lib.pilotSlice roomyLost read.poc) (roomyLost.slice.rpl .REF_PIC_LIST_0) read.lib 0

/-- In the state in front of `roomyLost`, its call takes the first picture of the list, which
is not the one that is being decoded. -/
def lostSparesCurrent (app : DecApp) (read : DecLib.Read) : Bool :=
  app.iMaxTemporalLayer < 0 && (app.flushForIDR roomyLost).decLib.picHeaderValid &&
    !read.skipped && !read.lib.findsNewPicture roomyLost &&
    decide (reported (read.lib.pilotSlice roomyLost read.poc)
      (roomyLost.slice.rpl .REF_PIC_LIST_0) read.lib.listPic > 0) &&
    read.lib.pilotPic == some 0 && !read.lib.firstSliceInPicture &&
    (firstLostCall read).taken == (firstLostCall read).lib.listPic[0]? &&
    (firstLostCall read).lib.listPic[0]?.any fun pic =>
      !pic.referenced && !pic.neededForOutput && read.lib.pcPic != some pic.buffer

/-- A test of the state behind given units. -/
theorem exists_passes (units : List (Option Nalu)) (test : DecApp → Bool)
    (computed : (match (DecApp.init 0 (-1)).passes units with
      | .error _ => false
      | .ok app => test app) = true) :
    ∃ app, (DecApp.init 0 (-1)).passes units = .ok app ∧ test app = true := by
  split at computed
  · cases computed
  · exact ⟨_, ‹_›, computed⟩

/-- A run over given units, and what `xDecodeSlice` reads of the next one. -/
theorem exists_run (units : List (Option Nalu)) (nalu : Nalu) (test : DecApp → DecLib.Read → Bool)
    (computed : (match (DecApp.init 0 (-1)).passes units with
      | .error _ => false
      | .ok app =>
          match (app.flushForIDR nalu).decLib.readAndSkip nalu app.iSkipFrame with
          | .error _ => false
          | .ok read => test app read) = true) :
    ∃ app read, Run 0 (-1) app ∧
      (app.flushForIDR nalu).decLib.readAndSkip nalu app.iSkipFrame = .ok read ∧
      test app read = true := by
  obtain ⟨app, passed, computed⟩ := exists_passes units _ computed
  split at computed
  · cases computed
  · exact ⟨app, _, Run.init.passes passed, ‹_›, computed⟩

/-- In the state in front of `chainNalu`, its call takes the picture of POC 0. -/
def firstTakesIdle (app : DecApp) (read : DecLib.Read) : Bool :=
  match read.lib.insertLostRefs (read.lib.pilotSlice chainNalu read.poc) with
  | .error _ => false
  | .ok filled =>
      app.iMaxTemporalLayer < 0 && (app.flushForIDR chainNalu).decLib.picHeaderValid &&
        !read.skipped && !read.lib.findsNewPicture chainNalu && filled.firstSliceInPicture &&
        (BufferCall.taken ⟨{ filled with prevPOC := read.poc }, pairSets, 0, 0⟩).any
          fun pic => pic.poc == 0

/-- A first slice: the picture of POC 3 takes the picture of POC 0, which is out of use. -/
theorem firstSlice_not_inUse :
    ∃ app call pic, Run 0 (-1) app ∧ PassCall app chainNalu call ∧ Spares call ∧
      call.taken = some pic := by
  obtain ⟨app, read, run, front, computed⟩ := exists_run chainUnits chainNalu firstTakesIdle
    (by decide)
  unfold firstTakesIdle at computed
  split at computed
  · cases computed
  · rename_i filled inserted
    simp only [Bool.and_eq_true, decide_eq_true_eq, Bool.not_eq_true', beq_iff_eq,
      Option.any_eq_true] at computed
    obtain ⟨⟨⟨⟨⟨layers, valid⟩, kept⟩, goesOn⟩, inPicture⟩, pic, taken, -⟩ := computed
    have made : PassCall app chainNalu
        ⟨{ filled with prevPOC := read.poc }, pairSets, 0, 0⟩ :=
      ⟨Or.inl layers, rfl, .activate ⟨valid, front, kept, goesOn⟩ inserted inPicture⟩
    have spares : Spares ⟨{ filled with prevPOC := read.poc }, pairSets, 0, 0⟩ := by
      intro place other _ decoding
      have later : filled.firstSliceInPicture = false := decoding.1
      rw [inPicture] at later
      cases later
    exact ⟨app, _, pic, run, made, spares, taken⟩

/-- A later slice: for the picture of POC 7 the picture of POC 0 is taken, and the one that is
being decoded is spared. -/
theorem laterSlice_not_inUse :
    ∃ app call pic, Run 0 (-1) app ∧ PassCall app roomyLost call ∧ Spares call ∧
      call.lib.firstSliceInPicture = false ∧ call.taken = some pic := by
  obtain ⟨app, read, run, front, computed⟩ := exists_run roomyUnits roomyLost lostSparesCurrent
    (by decide)
  simp only [lostSparesCurrent, Bool.and_eq_true, decide_eq_true_eq, Bool.not_eq_true',
    beq_iff_eq, bne_iff_ne, Option.any_eq_true] at computed
  obtain ⟨⟨⟨⟨⟨⟨⟨⟨layers, valid⟩, kept⟩, goesOn⟩, missing⟩, pilot⟩, inPicture⟩, taken⟩, pic, first,
    ⟨unused, idle⟩, other⟩ := computed
  refine ⟨app, firstLostCall read, pic, run,
    ⟨Or.inl layers, rfl, .lost ⟨valid, front, kept, goesOn⟩ (.list0 .start missing pilot)⟩, ?_,
    inPicture, taken.trans first⟩
  intro place current here decoding
  refine Or.inr ⟨0, Nat.pos_of_ne_zero ?_, pic, first, unused, idle⟩
  rintro rfl
  rw [first] at here
  cases here
  exact other decoding.2

/-- Neither takes a picture in use. -/
theorem taken_not_inUse_poc3 :
    (∃ app call pic, Run 0 (-1) app ∧ PassCall app chainNalu call ∧ call.taken = some pic ∧
      ¬ InUse call.lib pic) ∧
    ∃ app call pic, Run 0 (-1) app ∧ PassCall app roomyLost call ∧
      call.lib.firstSliceInPicture = false ∧ call.taken = some pic ∧ ¬ InUse call.lib pic := by
  obtain ⟨app, call, pic, run, made, spares, taken⟩ := firstSlice_not_inUse
  obtain ⟨app', call', pic', run', made', spares', later, taken'⟩ := laterSlice_not_inUse
  exact ⟨⟨app, call, pic, run, made, taken, taken_not_inUse run made spares taken⟩,
    app', call', pic', run', made', later, taken', taken_not_inUse run' made' spares' taken'⟩

/-- The state in front of `lostNalu`, and what `xDecodeSlice` has read of it, when the
picture that is being decoded is taken for the lost one. -/
def lostTakesCurrent (app : DecApp) (read : DecLib.Read) : Bool :=
  let slice := read.lib.pilotSlice lostNalu read.poc
  let rpl := lostNalu.slice.rpl .REF_PIC_LIST_0
  app.iMaxTemporalLayer < 0 && (app.flushForIDR lostNalu).decLib.picHeaderValid &&
    !read.skipped && !read.lib.findsNewPicture lostNalu &&
    decide (reported slice rpl read.lib.listPic > 0) && read.lib.pilotPic == some 0 &&
    (fillCall slice rpl read.lib 0).taken.any fun pic =>
      pic.referenced && !read.lib.firstSliceInPicture && read.lib.pcPic == some pic.buffer

/-- The second slice of the picture of POC 1 refers to a lost picture: the picture of POC 1
is taken for it. -/
theorem lost_takes_current :
    ∃ app call pic, Run 0 (-1) app ∧ PassCall app lostNalu call ∧ call.taken = some pic ∧
      pic.referenced ∧ call.lib.isDecoding pic.buffer := by
  obtain ⟨app, read, run, front, computed⟩ := exists_run pairUnits lostNalu lostTakesCurrent
    (by decide)
  simp only [lostTakesCurrent, Bool.and_eq_true, decide_eq_true_eq, Bool.not_eq_true',
    beq_iff_eq, Option.any_eq_true] at computed
  obtain ⟨⟨⟨⟨⟨⟨layers, valid⟩, kept⟩, goesOn⟩, missing⟩, pilot⟩, pic, taken, ⟨referenced,
    inPicture⟩, current⟩ := computed
  exact ⟨app, _, pic, run,
    ⟨Or.inl layers, rfl, .lost ⟨valid, front, kept, goesOn⟩ (.list0 .start missing pilot)⟩, taken,
    referenced, inPicture, current⟩

end Vtm.LostPics
