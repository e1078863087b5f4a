import Vtm.LostPics.BufferCalls

/-!
# The POC anchor

`m_prevTid0POC` is what the POC of the next picture is derived from. Slices set it, and so
do the pictures filled in for lost ones. `prevTid0POC_eq_anchor` says when it is the POC
of the last slice of temporal layer 0 that is neither RASL nor RADL.
-/

namespace Vtm.LostPics

open Vtm.RefPics Vtm.Std

/-- A slice of temporal layer 0 that is neither RASL nor RADL. -/
def SliceObject.IsAnchor (object : SliceObject) : Prop :=
  object.tLayer = 0 ∧ object.nalUnitType ≠ .codedSliceRasl ∧
    object.nalUnitType ≠ .codedSliceRadl

instance (object : SliceObject) : Decidable object.IsAnchor :=
  inferInstanceAs (Decidable (_ ∧ _))

/-- The POC of the last anchor among the slices fed to the decoder. -/
def anchorPOC (fed : List SliceObject) : Int :=
  fed.foldl (fun poc object => if object.IsAnchor then object.poc else poc) 0

/-- The slice that a NAL unit feeds to `xDecodeSlice`, with the POC finally assigned to it;
none if there is no picture header for it. -/
def fedSlice (app : DecApp) (nalu : Nalu) : Option SliceObject :=
  let app := app.flushForIDR nalu
  if nalu.nalUnitType.isSlice ∧ app.decLib.picHeaderValid ∧
      (app.iMaxTemporalLayer < 0 ∨ (nalu.temporalId : Int) ≤ app.iMaxTemporalLayer) then
    match app.decLib.readAndSkip nalu app.iSkipFrame with
    | .ok read => some (nalu.object read.poc)
    | .error _ => none
  else none

/-- The states in front of the passes of the loop, with the slices fed so far, when every
NAL unit meets a condition. -/
inductive FedRun (meets : DecApp → Nalu → Prop) (iSkipFrame : Nat) (iMaxTemporalLayer : Int) :
    List SliceObject → DecApp → Prop
  | init : FedRun meets iSkipFrame iMaxTemporalLayer [] (.init iSkipFrame iMaxTemporalLayer)
  | newPicture {fed : List SliceObject} {app : DecApp}
      (before : FedRun meets iSkipFrame iMaxTemporalLayer fed app)
      (inPicture : app.decLib.firstSliceInPicture = false) :
      FedRun meets iSkipFrame iMaxTemporalLayer fed app.newPicturePass
  | nalu {fed : List SliceObject} {app next : DecApp} {nalu : Nalu}
      (before : FedRun meets iSkipFrame iMaxTemporalLayer fed app)
      (notNew : app.decLib.firstSliceInPicture ∨
        Dec.startsPicture nalu.nalUnitType ≠ some true)
      (holds : meets app nalu) (decoded : app.naluPass nalu = .ok next) :
      FedRun meets iSkipFrame iMaxTemporalLayer (fed ++ (fedSlice app nalu).toList) next

/-- No picture whose first slice is an anchor is taken for a lost one. -/
def SparesAnchor (app : DecApp) (nalu : Nalu) : Prop :=
  ∀ read call pic object rest,
    (app.flushForIDR nalu).decLib.Reads nalu app.iSkipFrame read → LostCall nalu read call →
    call.taken = some pic → pic.slices = object :: rest → ¬ object.IsAnchor

theorem xUpdatePreviousTid0POC_prevTid0POC (lib : DecLib) (object : SliceObject) :
    (lib.xUpdatePreviousTid0POC object).prevTid0POC =
      if object.IsAnchor then object.poc else lib.prevTid0POC := by
  unfold DecLib.xUpdatePreviousTid0POC
  by_cases anchor : object.IsAnchor
  · rw [if_pos anchor, if_pos (show _ ∧ _ from anchor)]
  · rw [if_neg anchor, if_neg (show ¬ (_ ∧ _) from anchor)]

/-- A pass that takes no anchor leaves the anchor alone. -/
theorem prevTid0POC_insertMissing {slice : Slice} {rpl : ReferencePictureList}
    {lib next : DecLib} {lostPoc : Int} {refPicIndex i : Nat}
    (inserted : lib.insertMissing slice rpl lostPoc refPicIndex = .ok (next, i))
    (spares : ∀ pic object rest, lib.listPic[i]? = some pic → pic.slices = object :: rest →
      ¬ object.IsAnchor) : next.prevTid0POC = lib.prevTid0POC := by
  obtain ⟨pic, object, rest, refit, slices, rfl⟩ := insertMissing_ok slice rpl inserted
  have notAnchor : ¬ SliceObject.IsAnchor { object with poc := lostPoc - 1 } :=
    spares pic object rest refit.here slices
  rw [xUpdatePreviousTid0POC_prevTid0POC, if_neg notAnchor]

/-- The picture a pass takes is the one its call of `xGetNewPicBuffer` returns. -/
theorem taken_fillCall {slice : Slice} {rpl : ReferencePictureList} {lib next : DecLib}
    {lostPoc : Int} {refPicIndex i layerId : Nat}
    (inserted : (checked slice rpl lib).insertMissing slice rpl lostPoc refPicIndex =
      .ok (next, i)) :
    (fillCall slice rpl lib layerId).taken = (checked slice rpl lib).listPic[i]? := by
  obtain ⟨pic, _, _, refit, _, _⟩ := insertMissing_ok slice rpl inserted
  have full : lib.first.sps.getMaxDecPicBuffering 0 ≤ (checked slice rpl lib).listPic.length :=
    refit.full
  have got : ((checked slice rpl lib).xGetNewPicBuffer lib.first 0 layerId).2 = i := by
    rw [DecLib.xGetNewPicBuffer, if_neg (Nat.not_lt.mpr full), findIdx?_eq_head?_places,
      refit.taken]
  exact congrArg ((checked slice rpl lib).listPic[·]?) got

theorem prevTid0POC_inLoop {slice : Slice} {rpl : ReferencePictureList} {start tested : DecLib}
    (spares : ∀ lib layerId pic object rest, InLoop slice rpl start lib →
      reported slice rpl lib.listPic > 0 → lib.pilotPic = some layerId →
      (fillCall slice rpl lib layerId).taken = some pic → pic.slices = object :: rest →
      ¬ object.IsAnchor)
    (reached : InLoop slice rpl start tested) : tested.prevTid0POC = start.prevTid0POC := by
  induction reached with
  | start => rfl
  | pass before missing inserted ih =>
      refine (prevTid0POC_insertMissing inserted ?_).trans ih
      intro pic object rest here slices
      obtain ⟨_, _, _, refit, _, _⟩ := insertMissing_ok slice rpl inserted
      obtain ⟨layerId, pilot⟩ := Option.isSome_iff_exists.mp refit.pilot
      rw [← taken_fillCall inserted] at here
      exact spares _ layerId pic object rest before missing pilot here slices

/-- A slice that takes no anchor for a lost picture leaves the anchor alone. -/
theorem prevTid0POC_insertLostRefs {nalu : Nalu} {read : DecLib.Read} {filled : DecLib}
    (spares : ∀ call pic object rest, LostCall nalu read call → call.taken = some pic →
      pic.slices = object :: rest → ¬ object.IsAnchor)
    (inserted : read.lib.insertLostRefs (read.lib.pilotSlice nalu read.poc) = .ok filled) :
    filled.prevTid0POC = read.lib.prevTid0POC := by
  obtain ⟨fills, _, middle, first, second⟩ := insertLostRefs_ok inserted
  obtain ⟨tested₀, reached₀, ended₀⟩ := first.inLoop
  obtain ⟨tested₁, reached₁, rfl⟩ := second.inLoop
  calc tested₁.prevTid0POC
      = middle.prevTid0POC := prevTid0POC_inLoop
          (fun lib layerId pic object rest reached missing pilot =>
            spares _ pic object rest (.list1 first reached missing pilot)) reached₁
    _ = tested₀.prevTid0POC := (congrArg DecLib.prevTid0POC ended₀).trans rfl
    _ = read.lib.prevTid0POC := prevTid0POC_inLoop
          (fun lib layerId pic object rest reached missing pilot =>
            spares _ pic object rest (.list0 reached missing pilot)) reached₀

/-- The anchor behind the header of a slice. -/
theorem prevTid0POC_readAndSkip {lib : DecLib} {nalu : Nalu} {iSkipFrame : Nat}
    {read : DecLib.Read} (front : lib.readAndSkip nalu iSkipFrame = .ok read) :
    read.lib.prevTid0POC =
      if (nalu.object read.poc).IsAnchor then read.poc else lib.prevTid0POC := by
  unfold DecLib.readAndSkip at front
  obtain ⟨started, start, rest⟩ := bind_eq_ok_iff.mp front
  have kept : started.prevTid0POC = lib.prevTid0POC := by
    rw [startSlice_eq lib nalu start]
  split at rest
  · cases rest
  · cases rest
    have anchors (poc poc' : Int) : (nalu.object poc).IsAnchor ↔ (nalu.object poc').IsAnchor :=
      Iff.rfl
    simp only [DecLib.readSlice, DecLib.resetPOC]
    split
    · simp only [xUpdatePreviousTid0POC_prevTid0POC, DecLib.inferOutput]
      rw [checkNoOutputPriorPics_eq]
      by_cases anchor : (nalu.object 0).IsAnchor
      · rw [if_pos ((anchors _ 0).mpr anchor), if_pos ((anchors _ 0).mpr anchor)]
        rfl
      · rw [if_neg fun h => anchor ((anchors _ 0).mp h),
          if_neg fun h => anchor ((anchors _ 0).mp h),
          if_neg fun h => anchor ((anchors _ 0).mp h)]
        exact kept
    · simp only [xUpdatePreviousTid0POC_prevTid0POC, DecLib.inferOutput]
      rw [checkNoOutputPriorPics_eq, kept]
      rfl

/-- The POC of a slice: that of its header, without its most significant bits in some CRA
and GDR pictures. -/
theorem poc_readAndSkip {lib : DecLib} {nalu : Nalu} {iSkipFrame : Nat} {read : DecLib.Read}
    (front : lib.readAndSkip nalu iSkipFrame = .ok read) :
    read.poc = nalu.parsePOC lib.prevTid0POC ∨
      nalu.nalUnitType.isCraOrGdr ∧
        read.poc = nalu.parsePOC lib.prevTid0POC % 2 ^ nalu.slice.sets.sps.bitsForPOC := by
  unfold DecLib.readAndSkip at front
  obtain ⟨started, start, rest⟩ := bind_eq_ok_iff.mp front
  have kept : started.prevTid0POC = lib.prevTid0POC := by
    rw [startSlice_eq lib nalu start]
  split at rest
  · cases rest
  · cases rest
    simp only [DecLib.readSlice, DecLib.resetPOC, kept]
    split
    · rename_i reset
      exact Or.inr ⟨reset.1, rfl⟩
    · exact Or.inl rfl

/-- The activation and the current picture have no part in the POCs of the decoder. -/
theorem pocs_decompressSlice {lib lib' : DecLib} {nalu : Nalu} {slice : Slice}
    (done : lib.decompressSlice nalu slice = .ok lib') :
    lib'.prevTid0POC = lib.prevTid0POC ∧ lib'.pocRandomAccess = lib.pocRandomAccess := by
  obtain ⟨last, constructed, rfl⟩ := map_eq_ok_iff.mp done
  obtain ⟨built, _, rfl⟩ := map_eq_ok_iff.mp constructed
  have first : DecLib.activateFirst { lib with prevPOC := slice.poc } nalu slice =
      { DecLib.activateFirst { lib with prevPOC := slice.poc } nalu slice with
        prevTid0POC := lib.prevTid0POC, pocRandomAccess := lib.pocRandomAccess } := by
    obtain ⟨got, -⟩ | ⟨_, _, _, _, _, _, got⟩ := xGetNewPicBuffer_cases
      { lib with prevPOC := slice.poc } nalu.slice.sets nalu.temporalId nalu.nuhLayerId
    · rw [DecLib.activateFirst, got]
      rfl
    · rw [DecLib.activateFirst, got]
  have next : DecLib.activateNext { lib with prevPOC := slice.poc } nalu slice =
      { DecLib.activateNext { lib with prevPOC := slice.poc } nalu slice with
        prevTid0POC := lib.prevTid0POC, pocRandomAccess := lib.pocRandomAccess } := by
    unfold DecLib.activateNext
    split <;> rfl
  have current (lib : DecLib) : lib.setCurrent nalu slice.poc =
      { lib.setCurrent nalu slice.poc with
        prevTid0POC := lib.prevTid0POC, pocRandomAccess := lib.pocRandomAccess } := by
    unfold DecLib.setCurrent
    split <;> rfl
  dsimp only
  rw [current]
  split
  · rw [first]
    exact ⟨rfl, rfl⟩
  · rw [next]
    exact ⟨rfl, rfl⟩

/-- The picture that is being decoded has a POC. -/
def AtPOC (poc : Int) (lib : DecLib) : Prop :=
  ∀ pic ∈ lib.listPic, lib.pcPic = some pic.buffer → pic.poc = poc

theorem AtPOC.of_unmarked {poc : Int} {lib lib' : DecLib} (at' : AtPOC poc lib)
    (same : lib'.listPic.map Picture.unmarked = lib.listPic.map Picture.unmarked)
    (current : lib'.pcPic = lib.pcPic) : AtPOC poc lib' := by
  intro pic' member here
  have twin : pic'.unmarked ∈ lib.listPic.map Picture.unmarked :=
    same ▸ List.mem_map_of_mem member
  obtain ⟨pic, there, unmarked⟩ := List.mem_map.mp twin
  have samePOC : pic.unmarked.poc = pic'.unmarked.poc := congrArg (·.poc) unmarked
  have sameBuffer : pic'.unmarked.buffer = pic.unmarked.buffer :=
    congrArg (·.buffer) unmarked.symm
  refine samePOC.symm.trans (at' pic there ?_)
  exact current.symm.trans (here.trans (congrArg some sameBuffer))

theorem atPOC_decompressSlice {lib lib' : DecLib} {nalu : Nalu} {slice : Slice}
    (done : lib.decompressSlice nalu slice = .ok lib') : AtPOC slice.poc lib' := by
  obtain ⟨last, constructed, rfl⟩ := map_eq_ok_iff.mp done
  obtain ⟨⟨lists, dpb⟩, built, rfl⟩ := map_eq_ok_iff.mp constructed
  have current (lib : DecLib) : AtPOC slice.poc (lib.setCurrent nalu slice.poc) := by
    unfold DecLib.setCurrent
    split
    · rename_i none'
      intro pic _ here
      rw [none'] at here
      cases here
    · rename_i buffer some'
      intro pic member here
      have own : pic.buffer = buffer := (Option.some.inj (some'.symm.trans here)).symm
      obtain ⟨-, other⟩ | ⟨_, -, -, rfl⟩ := mem_updatePic member
      · exact absurd own other
      · rfl
  exact (current _).of_unmarked (unmarked_zipWith (constructRefPicList_same built)) rfl

theorem AtPOC.xWriteOutput {poc : Int} {app : DecApp} (at' : AtPOC poc app.decLib) :
    AtPOC poc app.xWriteOutput.decLib := by
  unfold DecApp.xWriteOutput
  split
  · exact at'
  · intro pic' member here
    obtain ⟨i, inside⟩ := List.getElem?_of_mem member
    obtain ⟨pic, out, there, -, rfl⟩ := List.getElem?_zipWith_eq_some.mp inside
    exact at' pic (List.mem_of_getElem? there) here

/-- What a slice does to the anchor. -/
theorem prevTid0POC_xDecodeSlice {lib lib' : DecLib} {nalu : Nalu} {iSkipFrame left : Nat}
    {read : DecLib.Read} (valid : lib.picHeaderValid)
    (front : lib.readAndSkip nalu iSkipFrame = .ok read)
    (spares : lib.Reads nalu iSkipFrame read → ∀ call pic object rest,
      LostCall nalu read call → call.taken = some pic → pic.slices = object :: rest →
      ¬ object.IsAnchor)
    (done : lib.xDecodeSlice nalu iSkipFrame = .ok (lib', left)) :
    lib'.prevTid0POC =
      if (nalu.object read.poc).IsAnchor then read.poc else lib.prevTid0POC := by
  rw [← prevTid0POC_readAndSkip front]
  rw [DecLib.xDecodeSlice, if_neg (by simp [valid]), front] at done
  obtain ⟨_, decoded, same⟩ := map_eq_ok_iff.mp done
  obtain ⟨rfl, -⟩ := Prod.mk.inj same
  unfold DecLib.decodeRead at decoded
  split at decoded
  · cases decoded
    rfl
  · rename_i kept
    split at decoded
    · cases decoded
      rfl
    · rename_i goesOn
      obtain ⟨filled, inserted, decompressed⟩ := bind_eq_ok_iff.mp decoded
      rw [(pocs_decompressSlice decompressed).1]
      exact prevTid0POC_insertLostRefs
        (spares ⟨valid, front, by simpa using kept, by simpa using goesOn⟩) inserted

/-! ## The parts of a pass, by the fields they write -/

/-- A change of nothing but the pictures, the last POC written and the mark of a first
slice. -/
def DecApp.OnlyWrites (app app' : DecApp) : Prop :=
  ∃ listPic firstSliceInPicture iPOCLastDisplay, app' =
    { app with
      decLib := { app.decLib with listPic, firstSliceInPicture }
      iPOCLastDisplay }

theorem DecApp.OnlyWrites.trans {app app' app'' : DecApp} (first : app.OnlyWrites app')
    (second : app'.OnlyWrites app'') : app.OnlyWrites app'' := by
  obtain ⟨_, _, _, rfl⟩ := first
  obtain ⟨_, _, _, rfl⟩ := second
  exact ⟨_, _, _, rfl⟩

section Fields

variable (app : DecApp)

theorem onlyWrites_flushForIDR (nalu : Nalu) : app.OnlyWrites (app.flushForIDR nalu) := by
  unfold DecApp.flushForIDR DecApp.xFlushOutput
  split
  · split <;> exact ⟨_, _, _, rfl⟩
  · exact ⟨_, _, _, rfl⟩

theorem kept_flushForIDR (nalu : Nalu) :
    (app.flushForIDR nalu).decLib.prevTid0POC = app.decLib.prevTid0POC ∧
      (app.flushForIDR nalu).iMaxTemporalLayer = app.iMaxTemporalLayer ∧
      (app.flushForIDR nalu).iSkipFrame = app.iSkipFrame := by
  obtain ⟨_, _, _, flushed⟩ := onlyWrites_flushForIDR app nalu
  rw [flushed]
  exact ⟨rfl, rfl, rfl⟩

theorem onlyWrites_xWriteOutput : app.OnlyWrites app.xWriteOutput := by
  unfold DecApp.xWriteOutput
  split <;> exact ⟨_, _, _, rfl⟩

theorem onlyWrites_writeStep (bNewPicture isEOS isVcl : Bool) :
    app.OnlyWrites (app.writeStep bNewPicture isEOS isVcl) := by
  have first : app.OnlyWrites (if bNewPicture then app.xWriteOutput else app) := by
    split
    · exact onlyWrites_xWriteOutput app
    · exact ⟨_, _, _, rfl⟩
  have second : app.OnlyWrites (if isEOS then
      { (if bNewPicture then app.xWriteOutput else app).xWriteOutput with
        decLib := { (if bNewPicture then app.xWriteOutput else app).xWriteOutput.decLib with
          firstSliceInPicture := false } }
      else if bNewPicture then app.xWriteOutput else app) := by
    split
    · obtain ⟨_, _, _, written⟩ := first.trans (onlyWrites_xWriteOutput _)
      rw [written]
      exact ⟨_, _, _, rfl⟩
    · exact first
  unfold DecApp.writeStep
  split
  · dsimp only
    split
    · exact second.trans (onlyWrites_xWriteOutput _)
    · exact second
  · exact ⟨_, _, _, rfl⟩

theorem finishStep_eq (bNewPicture isEOS : Bool) :
    app.finishStep bNewPicture isEOS =
      { app.finishStep bNewPicture isEOS with
        decLib := { (app.finishStep bNewPicture isEOS).decLib with
          prevTid0POC := app.decLib.prevTid0POC
          pocRandomAccess := app.decLib.pocRandomAccess }
        iSkipFrame := app.iSkipFrame
        iMaxTemporalLayer := app.iMaxTemporalLayer } := by
  unfold DecApp.finishStep
  split
  · split <;> rfl
  · rfl

end Fields

/-- What a NAL unit does to the anchor. -/
theorem prevTid0POC_naluPass {app next : DecApp} {nalu : Nalu} (spares : SparesAnchor app nalu)
    (decoded : app.naluPass nalu = .ok next) :
    next.decLib.prevTid0POC = (fedSlice app nalu).toList.foldl
      (fun poc object => if object.IsAnchor then object.poc else poc) app.decLib.prevTid0POC := by
  obtain ⟨after, done, rfl⟩ := map_eq_ok_iff.mp decoded
  obtain ⟨_, _, _, written⟩ := onlyWrites_writeStep
    (after.finishStep false (nalu.nalUnitType = .eos)) false (nalu.nalUnitType = .eos)
    (nalu.nalUnitType.code ≤ NalUnitType.reservedIrapVcl12.code)
  rw [written, finishStep_eq]
  obtain ⟨flushed, _, kept⟩ := kept_flushForIDR app nalu
  rw [← flushed]
  unfold DecApp.decodeNalu at done
  unfold fedSlice
  dsimp only at done ⊢
  rw [kept] at done ⊢
  split at done
  · rename_i inLayers
    obtain ⟨⟨lib, left⟩, decodedLib, rfl⟩ := map_eq_ok_iff.mp done
    unfold DecLib.decode at decodedLib
    split at decodedLib
    · rename_i isSlice
      by_cases valid : (app.flushForIDR nalu).decLib.picHeaderValid
      · rw [if_pos ⟨isSlice, valid, inLayers⟩]
        rcases front : (app.flushForIDR nalu).decLib.readAndSkip nalu
            app.iSkipFrame with e | read
        · simp [DecLib.xDecodeSlice, valid, front, Except.bind] at decodedLib
        · exact prevTid0POC_xDecodeSlice valid front
            (fun reads call pic object rest => spares read call pic object rest reads) decodedLib
      · rw [if_neg fun h => valid h.2.1]
        rw [DecLib.xDecodeSlice, if_pos (by simpa using valid)] at decodedLib
        cases decodedLib
        rfl
    · rename_i notSlice
      rw [if_neg fun h => notSlice h.1]
      split at decodedLib <;> cases decodedLib <;> rfl
  · rename_i outside
    cases done
    rw [if_neg fun h => outside h.2.2]
    rfl

/-- The anchor in a run, by what one pass does to it. -/
theorem FedRun.prevTid0POC {iSkipFrame : Nat} {iMaxTemporalLayer : Int} {fed : List SliceObject}
    {app : DecApp} (run : FedRun SparesAnchor iSkipFrame iMaxTemporalLayer fed app) :
    app.decLib.prevTid0POC = anchorPOC fed := by
  induction run with
  | init => rfl
  | newPicture _ _ ih =>
      obtain ⟨_, _, _, written⟩ :=
        onlyWrites_writeStep (DecApp.finishStep _ true false) true false false
      rw [DecApp.newPicturePass, written, finishStep_eq]
      exact ih
  | nalu _ _ spares decoded ih =>
      rw [prevTid0POC_naluPass spares decoded, ih, anchorPOC, anchorPOC, List.foldl_append]

/-- Where the slice of a NAL unit comes from. -/
theorem fedSlice_eq_some {app : DecApp} {nalu : Nalu} {object : SliceObject}
    (fed : fedSlice app nalu = some object) :
    nalu.nalUnitType.isSlice ∧
      (app.iMaxTemporalLayer < 0 ∨ (nalu.temporalId : Int) ≤ app.iMaxTemporalLayer) ∧
      ∃ read, (app.flushForIDR nalu).decLib.readAndSkip nalu app.iSkipFrame = .ok read ∧
        object = nalu.object read.poc := by
  unfold fedSlice at fed
  dsimp only at fed
  obtain ⟨-, layers, kept⟩ := kept_flushForIDR app nalu
  rw [kept, layers] at fed
  split at fed
  · rename_i isFed
    refine ⟨isFed.1, isFed.2.2, ?_⟩
    split at fed
    · cases fed
      exact ⟨_, ‹_›, rfl⟩
    · cases fed
  · cases fed

/-- A slice that is decoded gives its POC to the current picture. -/
theorem atPOC_naluPass {app next : DecApp} {nalu : Nalu} {read : DecLib.Read}
    (isSlice : nalu.nalUnitType.isSlice)
    (inLayers : app.iMaxTemporalLayer < 0 ∨ (nalu.temporalId : Int) ≤ app.iMaxTemporalLayer)
    (reads : (app.flushForIDR nalu).decLib.Reads nalu app.iSkipFrame read)
    (decoded : app.naluPass nalu = .ok next) : AtPOC read.poc next.decLib := by
  obtain ⟨after, done, rfl⟩ := map_eq_ok_iff.mp decoded
  have notEOS : nalu.nalUnitType ≠ .eos := by
    intro eos
    rw [eos] at isSlice
    exact absurd isSlice (by decide)
  have slice : AtPOC read.poc after.decLib := by
    unfold DecApp.decodeNalu at done
    dsimp only at done
    obtain ⟨-, layers, kept⟩ := kept_flushForIDR app nalu
    rw [kept, layers, if_pos inLayers] at done
    obtain ⟨⟨lib, left⟩, decodedLib, rfl⟩ := map_eq_ok_iff.mp done
    rw [DecLib.decode, if_pos isSlice, DecLib.xDecodeSlice, if_neg (by simp [reads.valid]),
      reads.front] at decodedLib
    obtain ⟨_, behind, same⟩ := map_eq_ok_iff.mp decodedLib
    obtain ⟨rfl, -⟩ := Prod.mk.inj same
    rw [DecLib.decodeRead, if_neg (by simp [reads.kept]), if_neg (by simp [reads.goesOn])]
      at behind
    obtain ⟨filled, -, decompressed⟩ := bind_eq_ok_iff.mp behind
    exact atPOC_decompressSlice decompressed
  have finished : after.finishStep false (nalu.nalUnitType = .eos) = after := by
    simp [DecApp.finishStep, notEOS]
  rw [finished]
  unfold DecApp.writeStep
  split
  · simp only [notEOS, decide_false, Bool.false_eq_true, if_false]
    split
    · exact slice.xWriteOutput
    · exact slice
  · exact slice

/-- The slices fed by a list of passes. -/
def fedSlices : DecApp → List (Option Nalu) → List SliceObject
  | _, [] => []
  | app, unit :: units =>
      (unit.bind (fedSlice app)).toList ++
        match app.pass unit with
        | .ok next => fedSlices next units
        | .error _ => []

/-- Each NAL unit of a list of passes meets a condition in front of its pass. -/
def EachMeets (meets : DecApp → Nalu → Prop) : DecApp → List (Option Nalu) → Prop
  | _, [] => True
  | app, unit :: units =>
      (∀ nalu, unit = some nalu → meets app nalu) ∧
        ∀ next, app.pass unit = .ok next → EachMeets meets next units

theorem FedRun.passes {meets : DecApp → Nalu → Prop} {iSkipFrame : Nat} {iMaxTemporalLayer : Int}
    {fed : List SliceObject} {app last : DecApp}
    (run : FedRun meets iSkipFrame iMaxTemporalLayer fed app) {units : List (Option Nalu)}
    (each : EachMeets meets app units) (done : app.passes units = .ok last) :
    FedRun meets iSkipFrame iMaxTemporalLayer (fed ++ fedSlices app units) last := by
  induction units generalizing fed app with
  | nil =>
      cases done
      rwa [fedSlices, List.append_nil]
  | cons unit units ih =>
      obtain ⟨next, first, rest⟩ := bind_eq_ok_iff.mp done
      rw [fedSlices, first, ← List.append_assoc]
      refine ih ?_ (each.2 next first) rest
      cases unit with
      | none =>
          rw [DecApp.pass] at first
          split at first
          · cases first
            simpa using FedRun.newPicture run ‹_›
          · cases first
      | some nalu =>
          rw [DecApp.pass] at first
          split at first
          · exact .nalu run ‹_› (each.1 nalu rfl) first
          · cases first

/-- No call for a lost picture takes one whose first slice is an anchor, as a test of the
calls. -/
def sparesAnchor (app : DecApp) (nalu : Nalu) : Bool :=
  match (app.flushForIDR nalu).decLib.readAndSkip nalu app.iSkipFrame with
  | .error _ => true
  | .ok read =>
      (lostCalls nalu read).all fun call =>
        call.taken.all fun pic => pic.slices.head?.all fun object => !decide object.IsAnchor

theorem sparesAnchor_sound {app : DecApp} {nalu : Nalu} (spares : sparesAnchor app nalu) :
    SparesAnchor app nalu := by
  intro read call pic object rest reads lost taken slices
  rw [sparesAnchor, reads.front] at spares
  have tested := List.all_eq_true.mp spares call lost.mem_lostCalls
  simpa [taken, slices] using tested

/-- The test of each NAL unit of a list of passes. -/
def eachSparesAnchor : DecApp → List (Option Nalu) → Bool
  | _, [] => true
  | app, unit :: units =>
      unit.all (sparesAnchor app) &&
        match app.pass unit with
        | .ok next => eachSparesAnchor next units
        | .error _ => true

theorem eachSparesAnchor_sound {app : DecApp} {units : List (Option Nalu)}
    (spares : eachSparesAnchor app units) : EachMeets SparesAnchor app units := by
  induction units generalizing app with
  | nil => trivial
  | cons unit units ih =>
      rw [eachSparesAnchor, Bool.and_eq_true] at spares
      constructor
      · rintro nalu rfl
        exact sparesAnchor_sound spares.1
      · intro next first
        have behind := spares.2
        rw [first] at behind
        exact ih behind

/-- A sequence with room for three pictures. -/
def tripleSets : ParameterSets := ⟨⟨1, [0], [3], 4⟩, ⟨64, 64, 64, 64⟩⟩

/-- A NAL unit of such a sequence. -/
def tripleNalu (nalUnitType : NalUnitType) (lsb start : Nat) (delta : Int) : Nalu :=
  let nalu := pairNalu nalUnitType lsb start delta
  { nalu with first := tripleSets, slice := { nalu.slice with sets := tripleSets } }

/-- The pictures of POC 0 to 2, the last one in two slices that do not keep the picture of
POC 1, and the picture of POC 3, which refers to it. -/
def tripleUnits : List (Option Nalu) :=
  [some (tripleNalu .sps 0 0 0), some (tripleNalu .ph 0 0 0),
    some (tripleNalu .codedSliceIdrNLp 0 0 0),
    none, some (tripleNalu .ph 0 0 0), some (tripleNalu .codedSliceTrail 1 0 1),
    none, some (tripleNalu .ph 0 0 0), some (tripleNalu .codedSliceTrail 2 0 2),
    some (tripleNalu .codedSliceTrail 2 1 2),
    none, some (tripleNalu .ph 0 0 0), some (tripleNalu .codedSliceTrail 3 0 2)]

/-- The POC anchor in every run in which no anchor is taken for a lost picture: the POCs of
later slices are derived from slices alone. -/
theorem prevTid0POC_eq_anchor {iSkipFrame : Nat} {iMaxTemporalLayer : Int}
    {fed : List SliceObject} {app : DecApp}
    (run : FedRun SparesAnchor iSkipFrame iMaxTemporalLayer fed app) :
    app.decLib.prevTid0POC = anchorPOC fed ∧
      ∀ nalu object, fedSlice app nalu = some object →
        (object.poc = nalu.parsePOC (anchorPOC fed) ∨ nalu.nalUnitType.isCraOrGdr ∧
          object.poc =
            nalu.parsePOC (anchorPOC fed) % 2 ^ nalu.slice.sets.sps.bitsForPOC) ∧
        ∀ read next pic, (app.flushForIDR nalu).decLib.Reads nalu app.iSkipFrame read →
          app.naluPass nalu = .ok next → next.decLib.currentPic = some pic →
          pic.poc = object.poc := by
  have anchor := run.prevTid0POC
  refine ⟨anchor, fun nalu object isFed => ?_⟩
  obtain ⟨isSlice, inLayers, read, front, rfl⟩ := fedSlice_eq_some isFed
  constructor
  · have derived := poc_readAndSkip front
    rwa [(kept_flushForIDR app nalu).1, anchor] at derived
  · intro read' next pic reads decoded current
    obtain rfl := Except.ok.inj (front.symm.trans reads.front)
    obtain ⟨buffer, pcPic, found⟩ := Option.bind_eq_some_iff.mp current
    have same : pic.buffer = buffer := by simpa using List.find?_some found
    exact atPOC_naluPass isSlice inLayers reads decoded pic (List.mem_of_find?_eq_some found)
      (same ▸ pcPic)

/-- A NAL unit of a sequence with two temporal layers. -/
def layeredNalu (nalUnitType : NalUnitType) (temporalId lsb start : Nat) (delta : Int) : Nalu :=
  let sets : ParameterSets := ⟨⟨2, [0, 0], [3, 3], 4⟩, ⟨64, 64, 64, 64⟩⟩
  let nalu := pairNalu nalUnitType lsb start delta
  { nalu with temporalId := temporalId, first := sets, slice := { nalu.slice with sets := sets } }

/-- The pictures of `tripleUnits`, that of POC 1 in the higher layer, and the picture header of
one more. -/
def layeredUnits : List (Option Nalu) :=
  [some (layeredNalu .sps 0 0 0 0), some (layeredNalu .ph 0 0 0 0),
    some (layeredNalu .codedSliceIdrNLp 0 0 0 0),
    none, some (layeredNalu .ph 0 0 0 0), some (layeredNalu .codedSliceTrail 1 1 0 1),
    none, some (layeredNalu .ph 0 0 0 0), some (layeredNalu .codedSliceTrail 0 2 0 2),
    some (layeredNalu .codedSliceTrail 0 2 1 2),
    none, some (layeredNalu .ph 0 0 0 0), some (layeredNalu .codedSliceTrail 0 3 0 2),
    none, some (layeredNalu .ph 0 0 0 0)]

/-- A slice of the picture behind them. -/
def layeredNext : Nalu := layeredNalu .codedSliceTrail 0 11 0 8

/-- The lost picture of POC 1 is filled in with a slice object of POC 0, the anchor stays that
of POC 3, and the next picture gets its POC from it. -/
theorem prevTid0POC_eq_anchor_layered :
    ∃ fed app object, FedRun SparesAnchor 0 (-1) fed app ∧
      (∃ pic ∈ app.decLib.listPic, pic.poc = 1 ∧ pic.referenced ∧
        ∃ filled ∈ pic.slices, filled.poc = 0) ∧
      app.decLib.prevTid0POC = 3 ∧ fedSlice app layeredNext = some object ∧ object.poc = 11 := by
  obtain ⟨app, passed, computed⟩ := exists_passes layeredUnits (fun app =>
      eachSparesAnchor (.init 0 (-1)) layeredUnits &&
        (app.decLib.listPic.any fun pic =>
          pic.poc == 1 && pic.referenced && pic.slices.any fun filled => filled.poc == 0) &&
        anchorPOC (fedSlices (.init 0 (-1)) layeredUnits) == 3 &&
        (fedSlice app layeredNext).isSome) (by decide)
  simp only [Bool.and_eq_true, beq_iff_eq, List.any_eq_true] at computed
  obtain ⟨⟨⟨spares, pic, member, ⟨poc, referenced⟩, filled⟩, anchor⟩, isFed⟩ := computed
  obtain ⟨object, isFed⟩ := Option.isSome_iff_exists.mp isFed
  have run := FedRun.init.passes (eachSparesAnchor_sound spares) passed
  obtain ⟨kept, derived⟩ := prevTid0POC_eq_anchor run
  rw [List.nil_append, anchor] at kept derived
  refine ⟨_, app, object, run, ⟨pic, member, poc, referenced, filled⟩, kept, isFed, ?_⟩
  rcases (derived layeredNext object isFed).1 with same | ⟨reset, -⟩
  · exact same
  · cases reset

/-- The picture of POC 1 is taken for itself, with a slice object of POC 0: the picture
behind it gets a POC that is off by a cycle. -/
theorem anchor_lost :
    ∃ fed app, FedRun (fun _ _ => True) 0 (-1) fed app ∧ app.decLib.prevTid0POC = 0 ∧
      anchorPOC fed = 3 ∧
      (tripleNalu .codedSliceTrail 11 0 1).parsePOC app.decLib.prevTid0POC = -5 ∧
      (tripleNalu .codedSliceTrail 11 0 1).parsePOC (anchorPOC fed) = 11 := by
  obtain ⟨app, passed, computed⟩ := exists_passes tripleUnits (fun app =>
      let fed := fedSlices (.init 0 (-1)) tripleUnits
      app.decLib.prevTid0POC == 0 && anchorPOC fed == 3 &&
        (tripleNalu .codedSliceTrail 11 0 1).parsePOC app.decLib.prevTid0POC == -5 &&
        (tripleNalu .codedSliceTrail 11 0 1).parsePOC (anchorPOC fed) == 11) (by decide)
  simp only [Bool.and_eq_true, beq_iff_eq] at computed
  obtain ⟨⟨⟨anchor, expected⟩, wrong⟩, right⟩ := computed
  have each (app : DecApp) (units : List (Option Nalu)) :
      EachMeets (fun _ _ => True) app units := by
    induction units generalizing app with
    | nil => trivial
    | cons unit units ih => exact ⟨fun _ _ => trivial, fun next _ => ih next⟩
  exact ⟨_, app, FedRun.init.passes (each _ _) passed, anchor, expected, wrong, right⟩

end Vtm.LostPics
