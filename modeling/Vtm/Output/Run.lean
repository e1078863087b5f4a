import Vtm.Output.Step

/-!
# Runs over pictures and sequences

The passes of the loop are put together: over the NAL units of a picture, over the
pictures of a coded video sequence and over the sequences of a stream. A picture is
finished by the look-ahead that sees the start of the next one, or by an end of
sequence NAL unit.
-/

namespace Vtm.Dec

section NextPicture

open DecApp

theorem nextPicture_cons (nalu : Nalu) (rest : List Nalu) :
    nextPicture (nalu :: rest) = (startsPicture nalu.nalUnitType).or (nextPicture rest) := by
  rw [nextPicture, List.findSome?_cons]
  cases startsPicture nalu.nalUnitType <;> rfl

/-- Units that do not start a picture do not hide a unit that starts none. -/
theorem nextPicture_append_false {nalus rest : List Nalu}
    (inner : ∀ nalu ∈ nalus, startsPicture nalu.nalUnitType ≠ some true)
    (next : nextPicture rest = some false) : nextPicture (nalus ++ rest) = some false := by
  induction nalus with
  | nil => exact next
  | cons nalu nalus ih =>
      obtain ⟨first, others⟩ := List.forall_mem_cons.mp inner
      rw [List.cons_append, nextPicture_cons, ih others]
      match verdict : startsPicture nalu.nalUnitType with
      | none => rfl
      | some false => rfl
      | some true => exact absurd verdict first

/-- Units that do not say no do not hide a unit that says yes. -/
theorem findSome?_append_true {α : Type} {decides : α → Option Bool} {front rest : List α}
    (outer : ∀ a ∈ front, decides a ≠ some false) (next : rest.findSome? decides = some true) :
    (front ++ rest).findSome? decides = some true := by
  induction front with
  | nil => exact next
  | cons a front ih =>
      obtain ⟨first, others⟩ := List.forall_mem_cons.mp outer
      rw [List.cons_append, List.findSome?_cons]
      match verdict : decides a with
      | none => exact ih others
      | some true => rfl
      | some false => exact absurd verdict first

theorem startsPicture_of_isSlice {t : NalUnitType} (slice : t.isSlice) :
    startsPicture t = some false := by
  revert slice
  cases t <;> simp [NalUnitType.isSlice, startsPicture]

theorem startsAccessUnit_of_isSlice (lib : DecLib) {t : NalUnitType} (slice : t.isSlice) :
    startsAccessUnit lib t = some lib.picHeaderValid := by
  revert slice
  cases t <;> simp [NalUnitType.isSlice, startsAccessUnit, DecLib.isSliceNaluFirstInAU]

theorem startsAccessUnit_of_ne_false (lib : DecLib) {t : NalUnitType}
    (outer : startsPicture t ≠ some false) : startsAccessUnit lib t ≠ some false := by
  revert outer
  cases t <;> simp [startsPicture, startsAccessUnit]

theorem startsAccessUnit_of_isEarly (lib : DecLib) {t : NalUnitType} (early : isEarly t) :
    startsAccessUnit lib t ≠ some false := by
  revert early
  cases t <;> simp [isEarly, isTrailing, startsPicture, startsAccessUnit, NalUnitType.isSlice]

theorem isPlain_of_isLeading {t : NalUnitType} (leading : isLeading t) : isPlain t := by
  revert leading
  cases t <;> simp [isLeading, isPlain, startsPicture, NalUnitType.isSlice]

theorem isPlain_of_isTrailing {t : NalUnitType} (trailing : isTrailing t) (noFd : t ≠ .fd) :
    isPlain t := by
  revert trailing noFd
  cases t <;> simp [isTrailing, isPlain, startsPicture, NalUnitType.isSlice]

theorem isPlain_of_isEarly {t : NalUnitType} (early : isEarly t) : isPlain t := by
  revert early
  cases t <;> simp [isEarly, isTrailing, isPlain, startsPicture, NalUnitType.isSlice]

theorem startsPicture_of_isTrailing {t : NalUnitType} (trailing : isTrailing t) :
    startsPicture t ≠ some true := by
  revert trailing
  cases t <;> simp [isTrailing, startsPicture]

theorem startsPicture_of_isLeading {t : NalUnitType} (leading : isLeading t) :
    startsPicture t ≠ some false := by
  revert leading
  cases t <;> simp [isLeading, startsPicture]

end NextPicture

section Picture

variable {stage : Stage} {base : List Frame} {calls : Calls} {app : DecApp} {cur : CodedPicture}
  {slices : List Nalu}

/-- Plain units within a picture, in front of a unit that starts none. -/
theorem Decoding.plains (decoding : Decoding stage cur slices base calls app)
    (limited : stage.Limited) {nalus rest : List Nalu}
    (plain : ∀ nalu ∈ nalus, isPlain nalu.nalUnitType) (free : Passable calls.passed nalus)
    (inner : ∀ nalu ∈ nalus, startsPicture nalu.nalUnitType ≠ some true)
    (next : DecApp.nextPicture rest = some false) :
    ∃ app', DecApp.Advances app (nalus ++ rest) app' rest ∧
      Decoding stage cur slices base (calls.pass nalus) app' := by
  induction nalus generalizing app calls with
  | nil => exact ⟨app, .refl, by simpa using decoding⟩
  | cons nalu nalus ih =>
      have ahead := nextPicture_append_false inner next
      obtain ⟨first, others⟩ := List.forall_mem_cons.mp plain
      obtain ⟨app', advance, decoding'⟩ := decoding.plain limited first free.first ahead
      obtain ⟨app'', advance', decoding''⟩ :=
        ih decoding' others free.2.2 (List.forall_mem_cons.mp inner).2
      exact ⟨app'', advance.trans advance', by simpa using decoding''⟩

/-- `decodeNalu` in terms of `DecLib::decode`, behind the flush of an IDR picture. -/
theorem decodeNalu_slice {nalu : Nalu} {lib : DecLib}
    (layer : app.iMaxTemporalLayer = -1) {flushed : DecApp}
    (flush : flushed = if app.decLib.firstSliceInPicture ∧ nalu.nalUnitType.isIDR then
      app.xFlushOutput else app)
    (decoded : flushed.decLib.decode nalu flushed.iSkipFrame = .ok (lib, 0)) :
    app.decodeNalu nalu = .ok
      { flushed with decLib := lib, iSkipFrame := 0, passed := flushed.passed ++ [nalu] } := by
  have layer' : flushed.iMaxTemporalLayer = -1 := by
    rw [flush]
    split
    · rw [DecApp.xFlushOutput]
      split <;> exact layer
    · exact layer
  rw [DecApp.decodeNalu, ← flush]
  simp [layer', decoded, Except.map]

/-- What the slices behind the first one bring belongs to the layers of the picture. -/
theorem mem_moreNalus {part : List Nalu × Nalu} (inMore : part ∈ cur.more) {nalu : Nalu}
    (here : nalu ∈ part.1 ++ [part.2]) :
    nalu ∈ cur.leading ++ cur.header :: cur.early ++ cur.moreNalus :=
  List.mem_append_right _ (List.mem_flatMap.mpr ⟨part, inMore, here⟩)

/-- A slice behind the first one, with the units in front of it. -/
theorem Decoding.nextSlice (decoding : Decoding stage cur slices base calls app)
    (limited : stage.Limited) (legal : cur.Valid stage.sps)
    (marks : stage.marked = cur.poc :: cur.refs) {part : List Nalu × Nalu}
    (inMore : part ∈ cur.more) (free : Passable calls.passed part.1)
    (allows : calls.Allows cur.first.temporalId) (rest : List Nalu) :
    ∃ app', DecApp.Advances app (part.1 ++ part.2 :: rest) app' rest ∧
      Decoding stage cur (slices ++ [part.2]) base (calls.pass (part.1 ++ [part.2])) app' := by
  have type := legal.types part inMore
  have slice : part.2.nalUnitType.isSlice := type ▸ legal.first
  have starts : DecApp.nextPicture (part.2 :: rest) = some false := by
    rw [nextPicture_cons, startsPicture_of_isSlice slice]
    rfl
  have gaps := legal.gaps part inMore
  obtain ⟨app', advance, decoding'⟩ := decoding.plains limited
    (fun nalu here => isPlain_of_isTrailing (gaps nalu here) (free.noFd nalu here)) free
    (fun nalu here => startsPicture_of_isTrailing (gaps nalu here)) starts
  have layer := legal.layer part inMore
  have allows' : (calls.pass part.1).Allows part.2.temporalId :=
    layer.symm ▸ allows.pass fun nalu here =>
      legal.layers nalu (mem_moreNalus inMore (List.mem_append_left _ here))
  have listed : part.2.nalUnitType.isIDR ∨ part.2.slice.refPocs ⊆ stage.marked := by
    rw [type, marks]
    cases idr : cur.first.nalUnitType.isIDR with
    | true => exact .inl rfl
    | false =>
        refine .inr fun poc inList => List.mem_cons_of_mem _ ?_
        simpa [CodedPicture.refs, CodedPicture.isIDR, idr] using legal.lists part inMore inList
  obtain ⟨lib, decoded, decoding''⟩ := decode_nextSlice decoding' slice (legal.pocs part inMore)
    legal.range (legal.addresses part inMore) type allows'
    (fun gdr => layer.trans (legal.lowest (.inr (type ▸ gdr)))) listed
  have call := decodeNalu_slice decoding'.inv.layer
    (if_neg (by simp [decoding'.inPicture])).symm decoded
  have advance' := DecApp.advances_decode (.inr starts) call
  rcases afterNalu_of_ne_eos _ (NalUnitType.ne_eos_of_isSlice slice) with same | written
  · exact ⟨_, advance.trans (same ▸ advance'), by simpa using decoding''⟩
  · exact ⟨_, advance.trans (written ▸ advance'), by simpa using decoding''.xWriteOutput limited⟩

/-- All slices behind the first one. -/
theorem Decoding.nextSlices (decoding : Decoding stage cur slices base calls app)
    (limited : stage.Limited) (legal : cur.Valid stage.sps)
    (marks : stage.marked = cur.poc :: cur.refs) {more : List (List Nalu × Nalu)}
    (inMore : more ⊆ cur.more)
    (free : Passable calls.passed (more.flatMap fun part => part.1 ++ [part.2]))
    (allows : calls.Allows cur.first.temporalId) (rest : List Nalu) :
    ∃ app', DecApp.Advances app ((more.flatMap fun part => part.1 ++ [part.2]) ++ rest) app' rest ∧
      Decoding stage cur (slices ++ more.map (·.2)) base
        (calls.pass (more.flatMap fun part => part.1 ++ [part.2])) app' := by
  induction more generalizing app calls slices with
  | nil => exact ⟨app, .refl, by simpa using decoding⟩
  | cons part more ih =>
      obtain ⟨free, others⟩ := passable_append.mp (List.flatMap_cons ▸ free)
      obtain ⟨first, later⟩ := List.cons_subset.mp inMore
      obtain ⟨app', advance, decoding'⟩ := decoding.nextSlice limited legal marks first
        (passable_append.mp free).1 allows ((more.flatMap fun part => part.1 ++ [part.2]) ++ rest)
      obtain ⟨app'', advance', decoding''⟩ := ih decoding' later others
        (allows.pass fun nalu here => legal.layers nalu (mem_moreNalus first here))
      refine ⟨app'', ?_, by simpa using decoding''⟩
      have joined := advance.trans advance'
      simpa using joined

/-- The units behind the slices, up to those that leave the next picture open. -/
theorem Decoding.trailing (decoding : Decoding stage cur slices base calls app)
    (limited : stage.Limited) (legal : cur.Valid stage.sps)
    (free : Passable calls.passed cur.trailing) (rest : List Nalu) :
    ∃ app', DecApp.Advances app (cur.trailing ++ rest) app' (cur.openEnd ++ rest) ∧
      Decoding stage cur slices base
        (calls.pass (cur.trailing.rdropWhile CodedPicture.isOpen)) app' := by
  have parts : cur.trailing.rdropWhile CodedPicture.isOpen ++ cur.openEnd = cur.trailing :=
    List.rdropWhile_append_rtakeWhile
  have inside : cur.trailing.rdropWhile CodedPicture.isOpen ⊆ cur.trailing :=
    (List.rdropWhile_prefix CodedPicture.isOpen cur.trailing).subset
  by_cases none : cur.trailing.rdropWhile CodedPicture.isOpen = []
  · rw [none, List.nil_append] at parts
    rw [none, parts]
    exact ⟨app, .refl, by simpa using decoding⟩
  -- the last of these units says that no picture starts
  set last := (cur.trailing.rdropWhile CodedPicture.isOpen).getLast none with lastDef
  have split : (cur.trailing.rdropWhile CodedPicture.isOpen).dropLast ++ [last] =
      cur.trailing.rdropWhile CodedPicture.isOpen := List.dropLast_append_getLast none
  have each : ∀ nalu ∈ (cur.trailing.rdropWhile CodedPicture.isOpen).dropLast ++ [last],
      isPlain nalu.nalUnitType ∧ startsPicture nalu.nalUnitType ≠ some true := by
    intro nalu here
    rw [split] at here
    have trailing := legal.trailing nalu (inside here)
    exact ⟨isPlain_of_isTrailing trailing (free.noFd nalu (inside here)),
      startsPicture_of_isTrailing trailing⟩
  have closes : startsPicture last.nalUnitType = some false := by
    have decided : ¬ CodedPicture.isOpen last := List.rdropWhile_last_not _ _ none
    have notTrue := (each last (by simp)).2
    match verdict : startsPicture last.nalUnitType with
    | .none => simp [CodedPicture.isOpen, verdict] at decided
    | some true => exact absurd verdict notTrue
    | some false => rfl
  have next : DecApp.nextPicture (last :: (cur.openEnd ++ rest)) = some false := by
    rw [nextPicture_cons, closes]
    rfl
  obtain ⟨front, back⟩ := passable_append.mp
    (passable_append.mp ((split.symm ▸ parts).symm ▸ free)).1
  obtain ⟨app', advance, decoding'⟩ := decoding.plains limited
    (fun nalu here => (each nalu (List.mem_append_left _ here)).1) front
    (fun nalu here => (each nalu (List.mem_append_left _ here)).2) next
  obtain ⟨app'', advance', decoding''⟩ :=
    decoding'.plain limited (each last (by simp)).1 back next
  refine ⟨app'', ?_, by simpa [split] using decoding''⟩
  have joined := advance.trans advance'
  rwa [List.append_cons, ← List.append_assoc, split, parts] at joined

/-- The units in front of the first slice. -/
theorem Idle.lead (idle : Idle stage base calls app) (limited : stage.Limited) {sps : SPS}
    (legal : cur.Valid sps)
    (free : Passable calls.passed (cur.leading ++ cur.header :: cur.early))
    (inPicture : app.decLib.firstSliceInPicture = true) (rest : List Nalu) :
    ∃ app', DecApp.Advances app (cur.leading ++ cur.header :: cur.early ++ rest) app' rest ∧
      Idle stage base (calls.pass (cur.leading ++ cur.header :: cur.early)) app' ∧
      SameFlags app app' ∧ app'.decLib.picHeader.picOutputFlag = cur.output ∧
      app'.decLib.picHeaderValid = true := by
  obtain ⟨free₁, -, -, free₂⟩ := passable_append.mp free
  obtain ⟨app₁, advance₁, idle₁, flags₁, -⟩ := idle.plains limited
    (fun nalu here => isPlain_of_isLeading (legal.leading nalu here)) free₁ inPicture
    (cur.header :: cur.early ++ rest)
  obtain ⟨app₂, advance₂, idle₂, flags₂, header₂, valid₂⟩ := idle₁.header limited legal.header
    (cur.early ++ rest) (flags₁.inPicture.trans inPicture)
  obtain ⟨app₃, advance₃, idle₃, flags₃, header₃, valid₃⟩ := idle₂.plains limited
    (fun nalu here => isPlain_of_isEarly (legal.early nalu here)) free₂
    (flags₂.inPicture.trans (flags₁.inPicture.trans inPicture)) rest
  refine ⟨app₃, ?_, by simpa using idle₃, (flags₁.trans flags₂).trans flags₃, ?_,
    valid₃.trans valid₂⟩
  · have joined := (advance₁.trans advance₂).trans advance₃
    simpa using joined
  · rw [header₃, header₂]
    rfl

theorem xFlushOutput_decLib (app : DecApp) :
    ∃ listPic, app.xFlushOutput.decLib = { app.decLib with listPic } := by
  rw [DecApp.xFlushOutput]
  split
  · exact ⟨app.decLib.listPic, rfl⟩
  · exact ⟨[], rfl⟩

/-- The slices of a picture and what follows them, behind the flush of an IDR picture. -/
theorem body {flushed : DecApp}
    (flush : flushed = if cur.isIDR then app.xFlushOutput else app)
    (inv : AppInv stage none base calls flushed) (layer : app.iMaxTemporalLayer = -1)
    (inPicture : app.decLib.firstSliceInPicture = true)
    (header : app.decLib.picHeader.picOutputFlag = cur.output)
    (valid : app.decLib.picHeaderValid = true) (legal : cur.Valid stage.sps)
    (start : cur.isIDR ∨
      app.decLib.firstSliceInSequence = false ∧ app.decLib.pocRandomAccess = -maxInt)
    (new : cur.poc ∉ stage.known) (listed : cur.refs ⊆ stage.marked)
    (limited : (stage.start cur).Limited)
    (free : Passable calls.passed (cur.first :: cur.moreNalus ++ cur.trailing))
    (allows : calls.Allows cur.first.temporalId) (rest : List Nalu) :
    ∃ app', DecApp.Advances app (cur.first :: cur.moreNalus ++ cur.trailing ++ rest) app'
        (cur.openEnd ++ rest) ∧
      Decoding (stage.start cur) cur cur.slices base
        (calls.pass (cur.first :: cur.moreNalus ++
          cur.trailing.rdropWhile CodedPicture.isOpen)) app' := by
  have flags : ∃ listPic, flushed.decLib = { app.decLib with listPic } := by
    rw [flush]
    split
    · exact xFlushOutput_decLib app
    · exact ⟨app.decLib.listPic, rfl⟩
  obtain ⟨listPic, flags⟩ := flags
  obtain ⟨lib, decoded, decoding₁⟩ := decode_firstSlice inv (by rw [flags]; exact inPicture)
    (by rw [flags]; exact header) (by rw [flags]; exact valid) legal
    (by rw [flags]; exact start) new listed allows
  have flush' : flushed = if app.decLib.firstSliceInPicture ∧ cur.first.nalUnitType.isIDR then
      app.xFlushOutput else app := by
    by_cases idr : cur.isIDR
    · rw [flush, if_pos idr, if_pos ⟨inPicture, idr⟩]
    · rw [flush, if_neg idr, if_neg fun both => idr both.2]
  have call := decodeNalu_slice layer flush' decoded
  have first : ∃ app', DecApp.Advances app (cur.first :: (cur.moreNalus ++ cur.trailing ++ rest))
      app' (cur.moreNalus ++ cur.trailing ++ rest) ∧
      Decoding (stage.start cur) cur [cur.first] base (calls.pass [cur.first]) app' := by
    have advance : DecApp.Advances app
        (cur.first :: (cur.moreNalus ++ cur.trailing ++ rest)) _ _ :=
      DecApp.advances_decode (.inl inPicture) call
    rcases afterNalu_of_ne_eos
      { flushed with decLib := lib, iSkipFrame := 0, passed := flushed.passed ++ [cur.first] }
      (NalUnitType.ne_eos_of_isSlice legal.first) with same | written
    · exact ⟨_, same ▸ advance, decoding₁⟩
    · exact ⟨_, written ▸ advance, decoding₁.xWriteOutput limited⟩
  obtain ⟨app₁, advance₁, decoding₁⟩ := first
  obtain ⟨freeMore, freeTrailing⟩ := passable_append.mp free.2.2
  have allows₁ : (calls.pass [cur.first]).Allows cur.first.temporalId :=
    allows.pass (by simp)
  obtain ⟨app₂, advance₂, decoding₂⟩ := decoding₁.nextSlices limited legal rfl
    (List.Subset.refl _) freeMore allows₁ (cur.trailing ++ rest)
  obtain ⟨app₃, advance₃, decoding₃⟩ := decoding₂.trailing limited legal freeTrailing rest
  refine ⟨app₃, ?_, ?_⟩
  · have joined := (advance₁.trans (by simpa [CodedPicture.moreNalus] using advance₂)).trans
      advance₃
    simpa using joined
  · simpa [CodedPicture.slices, CodedPicture.moreNalus] using decoding₃

end Picture

section Junction

variable {stage : Stage} {base : List Frame} {calls : Calls} {app : DecApp} {cur : CodedPicture}
  {slices : List Nalu} {pending : List Nalu}

theorem Idle.flush (idle : Idle stage base calls app) (sps : SPS) (future : List Int)
    (inRange : ∀ poc ∈ future, -maxInt < poc) :
    AppInv ⟨sps, [], future, [], []⟩ none app.total calls app.xFlushOutput := by
  have none : app.xFlushOutput.decLib.listPic = [] ∧ app.xFlushOutput.iPOCLastDisplay = -maxInt ∧
      app.xFlushOutput.written = app.total := by
    rw [DecApp.xFlushOutput]
    split
    next empty =>
      have list : app.decLib.listPic = [] := empty.elim idle.null id
      exact ⟨list, idle.emptied list, by simp [DecApp.total, list, waitingFrames]⟩
    next => exact ⟨rfl, rfl, rfl⟩
  obtain ⟨list, last, written⟩ := none
  have buffer : BufferInv sps .none [] future [] [] app.xFlushOutput.decLib (-maxInt) [] :=
    BufferInv.empty list inRange
  obtain ⟨-, skip, layer, prior, incorrect, passed, filtered, finished, loopFiltered, nals, seis⟩ :=
    idle.inv
  have others : app.xFlushOutput.iSkipFrame = app.iSkipFrame ∧
      app.xFlushOutput.iMaxTemporalLayer = app.iMaxTemporalLayer ∧
      app.xFlushOutput.decLib.isNoOutputPriorPics = app.decLib.isNoOutputPriorPics ∧
      app.xFlushOutput.decLib.lastNoIncorrectPicOutputFlag =
        app.decLib.lastNoIncorrectPicOutputFlag ∧
      app.xFlushOutput.passed = app.passed ∧ app.xFlushOutput.filtered = app.filtered ∧
      app.xFlushOutput.finished = app.finished ∧
      app.xFlushOutput.loopFiltered = app.loopFiltered ∧
      app.xFlushOutput.decLib.accessUnitNals = app.decLib.accessUnitNals ∧
      app.xFlushOutput.decLib.prefixSEINALUs = app.decLib.prefixSEINALUs := by
    rw [DecApp.xFlushOutput]
    split <;> exact ⟨rfl, rfl, rfl, rfl, rfl, rfl, rfl, rfl, rfl, rfl⟩
  obtain ⟨skip', layer', prior', incorrect', passed', filtered', finished', loop', nals', seis'⟩ :=
    others
  exact ⟨⟨[], by simpa using written, last ▸ buffer⟩, skip'.trans skip, layer'.trans layer,
    prior'.trans prior, incorrect'.trans incorrect, passed'.trans passed,
    filtered'.trans filtered, finished'.trans finished, loop'.trans loopFiltered,
    nals'.trans nals, seis'.trans seis⟩

/-- The state behind the end of a picture, with the flags that are set there. -/
theorem Idle.setFlags (idle : Idle stage base calls app) (loopFiltered inSequence : Bool)
    (pocRandomAccess prevPOC : Int) :
    Idle stage base { calls with loopFiltered }
      { app with
        loopFiltered
        decLib := { app.decLib with
          firstSliceInSequence := inSequence, pocRandomAccess, prevPOC } } := by
  obtain ⟨written, split, buffer⟩ := idle.inv.buffer
  exact ⟨{ idle.inv with
    buffer := ⟨written, split, buffer.congr _ rfl rfl⟩
    loopFiltered := rfl }, idle.null, idle.emptied⟩

theorem Idle.setInPicture (idle : Idle stage base calls app) (inPicture : Bool) :
    Idle stage base calls
      { app with decLib := { app.decLib with firstSliceInPicture := inPicture } } := by
  obtain ⟨written, split, buffer⟩ := idle.inv.buffer
  exact ⟨{ idle.inv with buffer := ⟨written, split, buffer.congr _ rfl rfl⟩ }, idle.null,
    idle.emptied⟩

/-- The end of the loop body. -/
theorem Idle.resetStep (idle : Idle stage base calls app) (bNewAccessUnit : Bool) :
    Idle stage base
      { calls with accessUnit := if bNewAccessUnit then [] else calls.accessUnit }
      (app.resetStep bNewAccessUnit) := by
  cases bNewAccessUnit with
  | false => exact idle
  | true =>
      obtain ⟨written, split, buffer⟩ := idle.inv.buffer
      exact ⟨{ idle.inv with
        buffer := ⟨written, split, buffer.congr _ rfl rfl⟩
        nals := rfl }, idle.null, idle.emptied⟩

section Finish

variable {future : List Int} (decoding : Decoding stage cur slices base calls app)
  (fewer : future ⊆ stage.future) (due : cur.output → cur.poc ∈ stage.future)
  (gone : cur.poc ∉ future) (limited : (stage.finish cur slices future).Limited)

include decoding fewer due gone limited

/-- The look-ahead sees the next picture: the current one is finished. -/
theorem Decoding.newPicture (new : DecApp.nextPicture pending = some true)
    (opens : DecApp.nextAccessUnit app.decLib pending = some true) :
    ∃ app', DecApp.Advances app pending app' pending ∧
      Idle (stage.finish cur slices future) base
        { calls.finish cur slices with loopFiltered := false, accessUnit := [] } app' ∧
      app'.decLib.firstSliceInPicture = true ∧ app'.decLib.firstSliceInSequence = false ∧
      app'.decLib.pocRandomAccess = -maxInt := by
  have advance := DecApp.advances_newPicture decoding.inPicture new opens
  have finished := (decoding.finishPicture fewer due gone).setFlags false
    (app.finishPicture.decLib.firstSliceInSequence || false)
    app.finishPicture.decLib.pocRandomAccess app.finishPicture.decLib.prevPOC
  obtain ⟨idle, -⟩ := finished.xWriteOutput limited
  obtain ⟨listPic, last, out, equation, -⟩ := finished.inv.xWriteOutput limited
  have result : app.afterNalu true false .invalid = DecApp.xWriteOutput
      { app.finishPicture with
        loopFiltered := false
        decLib := { app.finishPicture.decLib with
          firstSliceInSequence := app.finishPicture.decLib.firstSliceInSequence || false } } := by
    have inSequence : app.decLib.firstSliceInSequence = false := decoding.inSequence
    simp [DecApp.afterNalu, DecApp.finishStep, inSequence, DecApp.writeStep,
      DecApp.finishPicture]
  rw [result] at advance
  refine ⟨_, advance, idle.resetStep true, ?_⟩
  rw [equation]
  refine ⟨rfl, ?_, decoding.randomAccess⟩
  rw [Bool.or_false]
  exact decoding.inSequence

/-- An end of sequence NAL unit finishes the current picture. -/
theorem Decoding.endOfSequence {eos : Nalu} (type : eos.nalUnitType = .eos) (rest : List Nalu) :
    ∃ app', DecApp.Advances app (eos :: rest) app' rest ∧
      Idle (stage.finish cur slices future) base
        { (calls.pass [eos]).finish cur slices with loopFiltered := true } app' ∧
      app'.decLib.firstSliceInPicture = false ∧ app'.decLib.firstSliceInSequence = true := by
  have next : DecApp.nextPicture (eos :: rest) = some false := by
    rw [nextPicture_cons, type]
    rfl
  set met : DecApp :=
    { app with decLib := app.decLib.keep eos, passed := app.passed ++ [eos] } with metDef
  have decoded : app.decodeNalu eos = .ok
      { met with decLib := { met.decLib with pocRandomAccess := maxInt, prevPOC := maxInt } } := by
    simp [DecApp.decodeNalu, type, NalUnitType.isIDR, decoding.inv.layer, DecLib.decode,
      NalUnitType.isSlice, Except.map, metDef, DecLib.keep]
  have advance := DecApp.advances_decode (.inr next) decoded
  have passed : Decoding stage cur slices base (calls.pass [eos]) met :=
    decoding.pass (by rw [type]; rfl)
  have finished := (passed.finishPicture fewer due gone).setFlags true true maxInt maxInt
  set closed : DecApp :=
    { met.finishPicture with
      loopFiltered := true
      decLib :=
        { met.finishPicture.decLib with
          firstSliceInSequence := true
          pocRandomAccess := maxInt
          prevPOC := maxInt } } with closedDef
  obtain ⟨idle, -⟩ := finished.xWriteOutput limited
  obtain ⟨listPic, last, out, equation, -⟩ := finished.inv.xWriteOutput limited
  have result : DecApp.afterNalu
      { met with decLib := { met.decLib with pocRandomAccess := maxInt, prevPOC := maxInt } }
      false false eos.nalUnitType =
      { closed.xWriteOutput with
        decLib := { closed.xWriteOutput.decLib with firstSliceInPicture := false } } := by
    have code : ¬ NalUnitType.eos.code ≤ NalUnitType.reservedIrapVcl12.code := by decide
    have inSequence : met.decLib.firstSliceInSequence = false := passed.inSequence
    simp [DecApp.afterNalu, DecApp.finishStep, inSequence, DecApp.writeStep,
      DecApp.finishPicture, type, code, DecLib.finishPicture, DecLib.currentPic, closedDef]
  have inSequence : closed.xWriteOutput.decLib.firstSliceInSequence = true := by
    rw [equation]
  rw [result] at advance
  exact ⟨_, advance, idle.setInPicture false, rfl, inSequence⟩

end Finish

end Junction

end Vtm.Dec
