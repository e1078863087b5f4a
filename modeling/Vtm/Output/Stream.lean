import Vtm.Output.Run

/-!
# Streams

`DecApp::decode` on a conforming stream. Every picture but the last one is finished
when the next one starts or the sequence ends. The Fin packet finishes nothing, so the
last picture has to be followed by an end of sequence NAL unit, or by one unit that
leaves the look-ahead open.
-/

namespace Vtm.Dec

/-- The waiting and the written frames of a sequence are its output in order. -/
theorem AppInv.total_eq {stage : Stage} {current : Option Nat} {base : List Frame} {calls : Calls}
    {app : DecApp} (inv : AppInv stage current base calls app) :
    app.total = base ++ sortFrames stage.finished := by
  obtain ⟨written, split, buffer⟩ := inv.buffer
  have strict := buffer.output.total_sorted
  have perm := buffer.output.complete
  have sorted : (sortFrames stage.finished).Pairwise fun f g => f.poc ≤ g.poc := by
    have ordered := @List.pairwise_mergeSort Frame (fun f g => decide (f.poc ≤ g.poc))
      (fun f g h fg gh => by simp only [decide_eq_true_eq] at *; omega)
      (fun f g => by simp only [Bool.or_eq_true, decide_eq_true_eq]; omega) stage.finished
    exact ordered.imp fun le => by simpa using le
  have same : written ++ waitingFrames app.decLib.listPic = sortFrames stage.finished := by
    have perm' : (written ++ waitingFrames app.decLib.listPic).Perm (sortFrames stage.finished) :=
      perm.trans (List.mergeSort_perm _ _).symm
    refine perm'.eq_of_pairwise ?_ (strict.imp fun before => before.le) sorted
    intro f g inLeft inRight le le'
    have apart : ((written ++ waitingFrames app.decLib.listPic).map (·.poc)).Nodup :=
      List.pairwise_map.mpr (strict.imp fun before => before.ne)
    exact List.inj_on_of_nodup_map apart inLeft (perm'.symm.subset inRight) (by omega)
  rw [DecApp.total, split, List.append_assoc, same]

/-- The stage while `cur` is decoded. -/
@[grind =] def Cvs.during (cvs : Cvs) (front : List CodedPicture) (cur : CodedPicture)
    (rest : List CodedPicture) : Stage :=
  ⟨cvs.sps, outputFrames front, outputPocs (cur :: rest), cur.poc :: cur.refs,
    (front ++ [cur]).map (·.poc)⟩

theorem outputFrames_append (front rest : List CodedPicture) :
    outputFrames (front ++ rest) = outputFrames front ++ outputFrames rest := by
  simp [outputFrames, outputs]

theorem Cvs.during_finish (cvs : Cvs) (front : List CodedPicture) (cur : CodedPicture)
    (rest : List CodedPicture) :
    (cvs.during front cur rest).finish cur cur.slices (outputPocs rest) =
      ⟨cvs.sps, outputFrames (front ++ [cur]), outputPocs rest, cur.poc :: cur.refs,
        (front ++ [cur]).map (·.poc)⟩ := by
  rw [outputFrames_append]
  cases out : cur.output <;>
    simp [Stage.finish, Cvs.during, out, outputFrames, outputs, CodedPicture.frame]

namespace Cvs.Conforming

variable {cvs : Cvs} {front rest : List CodedPicture} {cur : CodedPicture}

theorem limited_during (conforms : cvs.Conforming) (split : cvs.pictures = front ++ cur :: rest) :
    (cvs.during front cur rest).Limited :=
  conforms.limits_decoding split

theorem limited_finish (conforms : cvs.Conforming) (split : cvs.pictures = front ++ cur :: rest) :
    ((cvs.during front cur rest).finish cur cur.slices (outputPocs rest)).Limited := by
  rw [Cvs.during_finish]
  exact conforms.limits_finished split

theorem outputPocs_subset (cur : CodedPicture) (rest : List CodedPicture) :
    outputPocs rest ⊆ outputPocs (cur :: rest) := by
  intro poc here
  obtain ⟨pic, inside, rfl⟩ := List.mem_map.mp here
  obtain ⟨inRest, output⟩ := List.mem_filter.mp inside
  exact List.mem_map_of_mem (List.mem_filter.mpr ⟨List.mem_cons_of_mem _ inRest, output⟩)

theorem mem_outputPocs (output : cur.output) : cur.poc ∈ outputPocs (cur :: rest) :=
  List.mem_map_of_mem (List.mem_filter.mpr ⟨List.mem_cons_self, output⟩)

theorem mem_pocs_of_outputPocs {poc : Int} (here : poc ∈ outputPocs rest) :
    poc ∈ rest.map (·.poc) := by
  obtain ⟨pic, inside, rfl⟩ := List.mem_map.mp here
  exact List.mem_map_of_mem (List.mem_filter.mp inside).1

theorem poc_over (conforms : cvs.Conforming) (split : cvs.pictures = front ++ cur :: rest) :
    cur.poc ∉ outputPocs rest := by
  have apart := conforms.distinct
  rw [split, List.map_append, List.map_cons, List.nodup_append, List.nodup_cons] at apart
  exact fun wrong => apart.2.1.1 (mem_pocs_of_outputPocs wrong)

theorem poc_new (conforms : cvs.Conforming) (split : cvs.pictures = front ++ cur :: rest) :
    cur.poc ∉ front.map (·.poc) := by
  have apart := conforms.distinct
  rw [split, List.map_append, List.map_cons, List.nodup_append] at apart
  exact fun wrong => apart.2.2 _ wrong _ List.mem_cons_self rfl

theorem outputPocs_inRange (conforms : cvs.Conforming) :
    ∀ poc ∈ outputPocs cvs.pictures, -maxInt < poc := by
  intro poc here
  obtain ⟨pic, inside, rfl⟩ := List.mem_map.mp here
  exact (conforms.valid pic (List.mem_filter.mp inside).1).range

theorem not_isIDR {next : CodedPicture} (conforms : cvs.Conforming)
    (split : cvs.pictures = front ++ cur :: next :: rest) : next.isIDR = false := by
  obtain ⟨first, others, list, -, rest'⟩ := conforms.idr
  rw [list] at split
  cases front with
  | nil =>
      obtain ⟨-, rfl⟩ := List.cons.inj split
      exact rest' next List.mem_cons_self
  | cons head tail =>
      obtain ⟨-, rfl⟩ := List.cons.inj split
      exact rest' next (by simp)

theorem layers_openEnd {next : CodedPicture} (conforms : cvs.Conforming)
    (split : cvs.pictures = front ++ cur :: next :: rest) :
    ∀ nalu ∈ cur.openEnd, next.first.temporalId ≤ nalu.temporalId := by
  have chain := conforms.layers
  rw [split] at chain
  exact (List.isChain_append_cons_cons.mp chain).2.1

theorem refs_subset {next : CodedPicture} (conforms : cvs.Conforming)
    (split : cvs.pictures = front ++ cur :: next :: rest) : next.refs ⊆ cur.poc :: cur.refs := by
  have chain := conforms.references
  rw [split] at chain
  exact (List.isChain_append_cons_cons.mp chain).2.1

end Cvs.Conforming

section Sequence

variable {cvs : Cvs} {stage : Stage} {base : List Frame} {calls : Calls} {app : DecApp}

/-- The start of a picture is seen through units that leave it open. -/
theorem nextPicture_nalus {pic : CodedPicture} {sps : SPS} (legal : pic.Valid sps)
    {left : List Nalu} (outer : ∀ nalu ∈ left, startsPicture nalu.nalUnitType ≠ some false)
    (rest : List Nalu) : DecApp.nextPicture (left ++ pic.nalus ++ rest) = some true := by
  have header : DecApp.nextPicture (pic.header ::
      (pic.early ++ pic.first :: pic.moreNalus ++ pic.trailing ++ rest)) = some true := by
    rw [nextPicture_cons, legal.header]
    rfl
  have leading := findSome?_append_true
    (fun nalu here => startsPicture_of_isLeading (legal.leading nalu here)) header
  have parts : left ++ pic.nalus ++ rest = left ++ (pic.leading ++ (pic.header ::
      (pic.early ++ pic.first :: pic.moreNalus ++ pic.trailing ++ rest))) := by
    simp [CodedPicture.nalus]
  rw [parts]
  exact findSome?_append_true outer leading

/-- The first slice of a picture starts an access unit, behind the header of a picture. -/
theorem nextAccessUnit_nalus {pic : CodedPicture} {sps : SPS} (legal : pic.Valid sps)
    {left : List Nalu} (outer : ∀ nalu ∈ left, startsPicture nalu.nalUnitType ≠ some false)
    (rest : List Nalu) {lib : DecLib} (valid : lib.picHeaderValid = true) :
    DecApp.nextAccessUnit lib (left ++ pic.nalus ++ rest) = some true := by
  have slice : DecApp.nextAccessUnit lib
      (pic.first :: (pic.moreNalus ++ pic.trailing ++ rest)) = some true := by
    rw [DecApp.nextAccessUnit, List.findSome?_cons, startsAccessUnit_of_isSlice lib legal.first,
      valid]
  have early := findSome?_append_true
    (fun nalu here => startsAccessUnit_of_isEarly lib (legal.early nalu here)) slice
  have header : ∀ nalu ∈ left ++ pic.leading ++ [pic.header],
      startsAccessUnit lib nalu.nalUnitType ≠ some false := by
    intro nalu here
    refine startsAccessUnit_of_ne_false lib ?_
    simp only [List.mem_append, List.mem_singleton] at here
    rcases here with (before | lead) | rfl
    · exact outer nalu before
    · exact startsPicture_of_isLeading (legal.leading nalu lead)
    · rw [legal.header]
      decide
  have parts : left ++ pic.nalus ++ rest = left ++ pic.leading ++ [pic.header] ++ (pic.early ++
      pic.first :: (pic.moreNalus ++ pic.trailing ++ rest)) := by
    simp [CodedPicture.nalus]
  rw [parts]
  exact findSome?_append_true header early

theorem mem_nalus_first (pic : CodedPicture) : pic.first ∈ pic.nalus := by
  simp [CodedPicture.nalus]

theorem startsPicture_openEnd {pic : CodedPicture} :
    ∀ nalu ∈ pic.openEnd, startsPicture nalu.nalUnitType = none := by
  intro nalu here
  simpa [CodedPicture.isOpen] using List.mem_rtakeWhile_imp here

theorem isPlain_of_open {t : NalUnitType} (unclear : startsPicture t = none)
    (known : t ≠ .invalid) : isPlain t := by
  revert unclear known
  cases t <;> simp [startsPicture, isPlain, NalUnitType.isSlice]

theorem passable_openEnd (pic : CodedPicture) (passed : List Nalu) :
    Passable passed pic.openEnd := by
  refine passable_of_others (fun nalu here => ?_) passed
  have unclear := startsPicture_openEnd nalu here
  revert unclear
  cases nalu.nalUnitType <;> simp [startsPicture, isReservedIrap]

theorem isPlain_openEnd {pic : CodedPicture} {sps : SPS} (legal : pic.Valid sps) :
    ∀ nalu ∈ pic.openEnd, isPlain nalu.nalUnitType := by
  intro nalu here
  have trailing := legal.trailing nalu (List.rtakeWhile_suffix _ _ |>.subset here)
  refine isPlain_of_open (startsPicture_openEnd nalu here) fun wrong => ?_
  simp [isTrailing, wrong] at trailing

/-- A picture from its first NAL unit on, behind the units left over from the one
before. -/
theorem Idle.picture {cur : CodedPicture} {stage' : Stage} {base' : List Frame}
    (idle : Idle stage base calls app) (limited : stage.Limited)
    (inPicture : app.decLib.firstSliceInPicture = true) {left : List Nalu}
    (plain : ∀ nalu ∈ left, isPlain nalu.nalUnitType) (legal : cur.Valid stage'.sps)
    (free : Passable calls.passed (left ++ cur.nalus)) (allows : calls.Allows cur.first.temporalId)
    (layers : ∀ nalu ∈ left, cur.first.temporalId ≤ nalu.temporalId)
    (flush : ∀ app' calls', Idle stage base calls' app' → app'.total = app.total →
      AppInv stage' none base' calls' (if cur.isIDR then app'.xFlushOutput else app'))
    (start : cur.isIDR ∨
      app.decLib.firstSliceInSequence = false ∧ app.decLib.pocRandomAccess = -maxInt)
    (new : cur.poc ∉ stage'.known) (listed : cur.refs ⊆ stage'.marked)
    (limited' : (stage'.start cur).Limited) (rest : List Nalu) :
    ∃ app' nalus, DecApp.Advances app (left ++ cur.nalus ++ rest) app' (cur.openEnd ++ rest) ∧
      Decoding (stage'.start cur) cur cur.slices base' (calls.pass nalus) app' ∧
      nalus ++ cur.openEnd = left ++ cur.nalus := by
  have parts : cur.nalus = (cur.leading ++ cur.header :: cur.early) ++
      (cur.first :: cur.moreNalus ++ cur.trailing) := by
    simp [CodedPicture.nalus]
  obtain ⟨freeLeft, freeCur⟩ := passable_append.mp free
  obtain ⟨freeLead, freeBody⟩ := passable_append.mp (parts ▸ freeCur)
  obtain ⟨app₁, advance₁, idle₁, flags₁, -⟩ := idle.plains limited plain freeLeft inPicture
    (cur.nalus ++ rest)
  obtain ⟨app₂, advance₂, idle₂, flags₂, header, valid⟩ := idle₁.lead limited legal freeLead
    (flags₁.inPicture.trans inPicture)
    (cur.first :: cur.moreNalus ++ cur.trailing ++ rest)
  have allows₂ := (allows.pass fun nalu here _ => layers nalu here).pass fun nalu here =>
    legal.layers nalu (List.mem_append_left cur.moreNalus here)
  have flags := flags₁.trans flags₂
  obtain ⟨app₃, advance₃, decoding⟩ := body rfl (flush app₂ _ idle₂ flags.total) idle₂.inv.layer
    (flags.inPicture.trans inPicture) header valid legal
    (start.imp_right fun first =>
      ⟨flags.inSequence.trans first.1, flags.randomAccess.trans first.2⟩)
    new listed limited' freeBody allows₂ rest
  refine ⟨app₃, _, ?_, by simpa using decoding, ?_⟩
  · have nalus : cur.nalus ++ rest = cur.leading ++ cur.header :: cur.early ++
        (cur.first :: cur.moreNalus ++ cur.trailing ++ rest) := by
      simp [CodedPicture.nalus]
    rw [nalus] at advance₁
    have joined := (advance₁.trans advance₂).trans advance₃
    rwa [List.append_assoc, nalus]
  · have back : cur.trailing.rdropWhile CodedPicture.isOpen ++ cur.openEnd = cur.trailing :=
      List.rdropWhile_append_rtakeWhile
    simp [CodedPicture.nalus, back]

/-- The rest of the pictures of a sequence. -/
theorem Decoding.pictures (conforms : cvs.Conforming) {front rest : List CodedPicture}
    {cur : CodedPicture} (split : cvs.pictures = front ++ cur :: rest)
    (decoding : Decoding (cvs.during front cur rest) cur cur.slices base calls app)
    (free : Passable calls.passed (cur.openEnd ++ rest.flatMap CodedPicture.nalus))
    (tail : List Nalu) :
    ∃ front' last app' calls', cvs.pictures = front' ++ [last] ∧
      DecApp.Advances app (cur.openEnd ++ rest.flatMap CodedPicture.nalus ++ tail) app'
        (last.openEnd ++ tail) ∧
      Decoding (cvs.during front' last []) last last.slices base calls' app' ∧
      calls'.passed ++ last.openEnd =
        calls.passed ++ cur.openEnd ++ rest.flatMap CodedPicture.nalus ∧
      calls'.finished ++ [last.frame] =
        calls.finished ++ (cur :: rest).map CodedPicture.frame ∧
      calls'.loopFiltered = (decide (rest = []) && calls.loopFiltered) := by
  induction rest generalizing front cur app calls with
  | nil =>
      exact ⟨front, cur, app, calls, split, by simpa using DecApp.Advances.refl, decoding,
        by simp, by simp, by simp⟩
  | cons next rest ih =>
      have legal := conforms.valid cur (by simp [split])
      have legal' := conforms.valid next (by simp [split])
      have split' : cvs.pictures = (front ++ [cur]) ++ next :: rest := by simp [split]
      have starts : DecApp.nextPicture (cur.openEnd ++ next.nalus ++
          (rest.flatMap CodedPicture.nalus ++ tail)) = some true :=
        nextPicture_nalus legal' (fun nalu here => by simp [startsPicture_openEnd nalu here]) _
      have opens := @nextAccessUnit_nalus _ _ legal' cur.openEnd
        (fun nalu here => by simp [startsPicture_openEnd nalu here])
        (rest.flatMap CodedPicture.nalus ++ tail) _ decoding.valid
      obtain ⟨app₁, advance₁, idle, inPicture, inSequence, random⟩ :=
        decoding.newPicture (Cvs.Conforming.outputPocs_subset cur (next :: rest))
          Cvs.Conforming.mem_outputPocs (conforms.poc_over split) (conforms.limited_finish split)
          starts opens
      have free' : Passable calls.passed
          (cur.openEnd ++ next.nalus ++ rest.flatMap CodedPicture.nalus) := by
        simpa using free
      have notIdr := conforms.not_isIDR split
      rw [Cvs.during_finish] at idle
      have limited := Cvs.during_finish cvs front cur (next :: rest) ▸ conforms.limited_finish split
      have stage' : (⟨cvs.sps, outputFrames (front ++ [cur]), outputPocs (next :: rest),
          cur.poc :: cur.refs, (front ++ [cur]).map (·.poc)⟩ : Stage).start next =
          cvs.during (front ++ [cur]) next rest := by
        simp [Stage.start, Cvs.during]
      obtain ⟨app₂, nalus, advance₂, decoding₂, passed⟩ := idle.picture limited inPicture
        (isPlain_openEnd legal) legal' (passable_append.mp free').1 (by simp [Calls.Allows])
        (conforms.layers_openEnd split)
        (fun app' calls' idle' _ => by rw [if_neg (by simp [notIdr])]; exact idle'.inv)
        (.inr ⟨inSequence, random⟩) (conforms.poc_new split') (conforms.refs_subset split)
        (stage'.symm ▸ conforms.limited_during split') (rest.flatMap CodedPicture.nalus ++ tail)
      rw [stage'] at decoding₂
      obtain ⟨front', last, app₃, calls', whole, advance₃, decoding₃, passed', finished, filtered⟩ :=
        ih split' decoding₂ (by
          rw [← passed, List.append_assoc] at free'
          exact (passable_append.mp free').2)
      refine ⟨front', last, app₃, calls', whole, ?_, decoding₃, ?_, ?_, ?_⟩
      · rw [List.append_assoc] at advance₃
        have joined := (advance₁.trans advance₂).trans advance₃
        simpa using joined
      · rw [passed', Calls.pass]
        simp only [Calls.finish, List.flatMap_cons]
        rw [List.append_assoc calls.passed, passed]
        simp
      · rw [finished]
        simp [Calls.pass, Calls.finish, CodedPicture.frame]
      · rw [filtered]
        simp [Calls.pass]

/-- The pictures of a sequence, from the state between two sequences. -/
theorem Idle.sequence (conforms : cvs.Conforming) (idle : Idle stage base calls app)
    (gone : stage.future = []) (inPicture : app.decLib.firstSliceInPicture = true)
    {left : List Nalu} (plain : ∀ nalu ∈ left, isPlain nalu.nalUnitType)
    (free : Passable calls.passed (left ++ cvs.pictures.flatMap CodedPicture.nalus))
    (tail : List Nalu) :
    ∃ front' last app' calls', cvs.pictures = front' ++ [last] ∧
      DecApp.Advances app (left ++ cvs.pictures.flatMap CodedPicture.nalus ++ tail) app'
        (last.openEnd ++ tail) ∧
      Decoding (cvs.during front' last []) last last.slices app.total calls' app' ∧
      calls'.passed ++ last.openEnd =
        calls.passed ++ left ++ cvs.pictures.flatMap CodedPicture.nalus ∧
      calls'.finished ++ [last.frame] =
        calls.finished ++ cvs.pictures.map CodedPicture.frame ∧
      calls'.loopFiltered = (decide (cvs.pictures.length = 1) && calls.loopFiltered) := by
  obtain ⟨first, rest, list, idr, -⟩ := conforms.idr
  have split : cvs.pictures = [] ++ first :: rest := list
  have legal := conforms.valid first (by simp [list])
  have stage' : (⟨cvs.sps, [], outputPocs cvs.pictures, [], []⟩ : Stage).start first =
      cvs.during [] first rest := by
    simp [Stage.start, Cvs.during, list, outputFrames, outputs]
  have none : first.refs = [] := by simp [CodedPicture.refs, idr]
  have flush : ∀ app' calls', Idle stage base calls' app' → app'.total = app.total →
      AppInv ⟨cvs.sps, [], outputPocs cvs.pictures, [], []⟩ .none app.total calls'
        (if first.isIDR then app'.xFlushOutput else app') := by
    intro app' calls' idle' total
    rw [if_pos idr, ← total]
    exact idle'.flush cvs.sps _ conforms.outputPocs_inRange
  have lowest := legal.lowest (.inl idr)
  have free' : Passable calls.passed
      (left ++ first.nalus ++ rest.flatMap CodedPicture.nalus) := by
    simpa [list] using free
  obtain ⟨app₁, nalus, advance₁, decoding, passed⟩ := idle.picture (Stage.limited_of_nil gone)
    inPicture plain legal (passable_append.mp free').1 (by simp [Calls.Allows, lowest])
    (by simp [lowest]) flush (.inl idr) (by simp) (by simp [none]) (stage'.symm ▸ conforms.limited_during split)
    (rest.flatMap CodedPicture.nalus ++ tail)
  rw [stage'] at decoding
  obtain ⟨front', last, app₂, calls', whole, advance₂, decoding₂, passed', finished, filtered⟩ :=
    decoding.pictures conforms split (by
      rw [← passed, List.append_assoc] at free'
      exact (passable_append.mp free').2) tail
  refine ⟨front', last, app₂, calls', whole, ?_, decoding₂, ?_, ?_, ?_⟩
  · rw [List.append_assoc] at advance₂
    have joined := advance₁.trans advance₂
    simpa [list] using joined
  · rw [passed', list, Calls.pass]
    simp only [List.flatMap_cons]
    rw [List.append_assoc calls.passed, passed]
    simp
  · rw [finished, list]
    simp [Calls.pass]
  · rw [filtered, list]
    simp [Calls.pass]

/-- An end of sequence NAL unit behind a sequence. -/
theorem Decoding.endSequence (conforms : cvs.Conforming) {front : List CodedPicture}
    {last : CodedPicture} (split : cvs.pictures = front ++ [last])
    (decoding : Decoding (cvs.during front last []) last last.slices base calls app)
    {eos : Nalu} (type : eos.nalUnitType = .eos) (rest : List Nalu) :
    ∃ app' stage' accessUnit, DecApp.Advances app (last.openEnd ++ eos :: rest) app' rest ∧
      Idle stage' base ⟨calls.passed ++ last.openEnd ++ [eos], calls.finished ++ [last.frame], true,
        accessUnit⟩ app' ∧ stage'.future = [] ∧ app'.total = base ++ cvs.outputOrder ∧
      app'.decLib.firstSliceInPicture = false ∧ app'.decLib.firstSliceInSequence = true := by
  have legal := conforms.valid last (by simp [split])
  have next : DecApp.nextPicture (eos :: rest) = some false := by
    rw [nextPicture_cons, type]
    rfl
  obtain ⟨app₁, advance₁, decoding₁⟩ := decoding.plains (conforms.limited_during split)
    (isPlain_openEnd legal) (passable_openEnd last _)
    (fun nalu here => by simp [startsPicture_openEnd nalu here]) next
  obtain ⟨app₂, advance₂, idle, inPicture, inSequence⟩ := decoding₁.endOfSequence
    (Cvs.Conforming.outputPocs_subset last []) Cvs.Conforming.mem_outputPocs
    (conforms.poc_over split) (conforms.limited_finish split) type rest
  rw [Cvs.during_finish, ← split] at idle
  have order := idle.inv.total_eq
  refine ⟨app₂, ⟨cvs.sps, outputFrames cvs.pictures, outputPocs [], last.poc :: last.refs,
    cvs.pictures.map (·.poc)⟩, ((calls.pass last.openEnd).pass [eos]).accessUnit, advance₁.trans advance₂, ?_, rfl, order, inPicture, inSequence⟩
  simpa [Calls.pass, Calls.finish, CodedPicture.frame] using idle

/-- The next sequence ends one that has no end of sequence NAL unit. -/
theorem Decoding.nextSequence (conforms : cvs.Conforming) {front : List CodedPicture}
    {last : CodedPicture} (split : cvs.pictures = front ++ [last])
    (decoding : Decoding (cvs.during front last []) last last.slices base calls app)
    {pending : List Nalu} (next : DecApp.nextPicture pending = some true)
    (opens : DecApp.nextAccessUnit app.decLib pending = some true) :
    ∃ app' stage', DecApp.Advances app pending app' pending ∧
      Idle stage' base ⟨calls.passed, calls.finished ++ [last.frame], false, []⟩ app' ∧
      stage'.future = [] ∧ app'.total = base ++ cvs.outputOrder ∧
      app'.decLib.firstSliceInPicture = true := by
  obtain ⟨app₁, advance, idle, inPicture, -⟩ := decoding.newPicture
    (Cvs.Conforming.outputPocs_subset last []) Cvs.Conforming.mem_outputPocs
    (conforms.poc_over split) (conforms.limited_finish split) next opens
  rw [Cvs.during_finish, ← split] at idle
  exact ⟨app₁, _, advance, idle, rfl, idle.inv.total_eq, inPicture⟩

/-- The next sequence behind an end of sequence NAL unit. -/
theorem Idle.resume (idle : Idle stage base calls app) (gone : stage.future = [])
    (inPicture : app.decLib.firstSliceInPicture = false)
    (inSequence : app.decLib.firstSliceInSequence = true) {pending : List Nalu}
    (next : DecApp.nextPicture pending = some true)
    (slice : ∃ nalu ∈ pending, nalu.nalUnitType.isSlice) :
    ∃ app' accessUnit, DecApp.Advances app pending app' pending ∧
      Idle stage base { calls with accessUnit } app' ∧
      app'.total = app.total ∧ app'.decLib.firstSliceInPicture = true := by
  -- without a header in force the first slice does not start an access unit
  obtain ⟨bNewAccessUnit, verdict⟩ :
      ∃ b, DecApp.nextAccessUnit app.decLib pending = some b := by
    obtain ⟨nalu, inside, slice⟩ := slice
    refine Option.isSome_iff_exists.mp (List.findSome?_isSome_iff.mpr ⟨nalu, inside, ?_⟩)
    rw [startsAccessUnit_of_isSlice app.decLib slice]
    rfl
  have advance := DecApp.advances_newPicture inPicture next verdict
  have idle' := idle.setInPicture true
  cases set : app.pcListPic with
  | false =>
      have result : app.afterNalu true false .invalid =
          { app with decLib := { app.decLib with firstSliceInPicture := true } } := by
        simp [DecApp.afterNalu, DecApp.finishStep, inSequence, DecApp.writeStep, set]
      exact ⟨_, _, result ▸ advance, idle'.resetStep bNewAccessUnit, by
        cases bNewAccessUnit <;> rfl, by cases bNewAccessUnit <;> rfl⟩
  | true =>
      have result : app.afterNalu true false .invalid = DecApp.xWriteOutput
          { app with decLib := { app.decLib with firstSliceInPicture := true } } := by
        simp [DecApp.afterNalu, DecApp.finishStep, inSequence, DecApp.writeStep, set]
      obtain ⟨idle'', total⟩ := idle'.xWriteOutput (Stage.limited_of_nil gone)
      obtain ⟨listPic, last, out, equation, -⟩ :=
        idle'.inv.xWriteOutput (Stage.limited_of_nil gone)
      refine ⟨_, _, result ▸ advance, idle''.resetStep bNewAccessUnit, ?_, ?_⟩
      · rw [← show _ = app.total from total]
        cases bNewAccessUnit <;> rfl
      · rw [equation]
        cases bNewAccessUnit <;> rfl

end Sequence

/-- The application behind some sequences of a stream. `frames` are to be written and
`pictures` to be finished by then; the units `left` of the last sequence are not
decoded yet. Without an end of sequence NAL unit the last picture is still open. -/
inductive Behind (frames pictures : List Frame) (nalus : List Nalu) :
    Option Cvs → Bool → List Nalu → DecApp → Prop
  | rested {prev : Option Cvs} {loopFiltered : Bool} {app : DecApp} (stage : Stage)
      (base : List Frame) (accessUnit : List (NalUnitType × Nat))
      (ended : ∀ cvs ∈ prev, cvs.eos.isSome)
      (idle : Idle stage base ⟨nalus, pictures, loopFiltered, accessUnit⟩ app) (gone : stage.future = [])
      (total : app.total = frames)
      (flags : app.decLib.firstSliceInPicture = true ∨
        app.decLib.firstSliceInPicture = false ∧ app.decLib.firstSliceInSequence = true) :
      Behind frames pictures nalus prev loopFiltered [] app
  | unfinished {cvs : Cvs} {app : DecApp} (front : List CodedPicture) (last : CodedPicture)
      (base : List Frame) (calls : Calls) (conforms : cvs.Conforming) (noEos : cvs.eos = none)
      (split : cvs.pictures = front ++ [last])
      (decoding : Decoding (cvs.during front last []) last last.slices base calls app)
      (order : base ++ cvs.outputOrder = frames) (passed : calls.passed ++ last.openEnd = nalus)
      (finished : calls.finished ++ [last.frame] = pictures) :
      Behind frames pictures nalus (some cvs) calls.loopFiltered last.openEnd app

/-- The start of the next sequence closes the one before. -/
theorem Behind.ready {frames pictures : List Frame} {nalus : List Nalu} {prev : Option Cvs}
    {loopFiltered : Bool} {left : List Nalu} {app : DecApp}
    (behind : Behind frames pictures nalus prev loopFiltered left app) {cvs : Cvs}
    (conforms : cvs.Conforming) (tail : List Nalu) :
    ∃ app' stage base nalus' loopFiltered' accessUnit,
      DecApp.Advances app (left ++ cvs.pictures.flatMap CodedPicture.nalus ++ tail) app'
        (left ++ cvs.pictures.flatMap CodedPicture.nalus ++ tail) ∧
      Idle stage base ⟨nalus', pictures, loopFiltered', accessUnit⟩ app' ∧
      nalus' ++ left = nalus ∧
      stage.future = [] ∧ app'.total = frames ∧ app'.decLib.firstSliceInPicture = true ∧
      (loopFiltered' → loopFiltered ∧ ∀ cvs ∈ prev, cvs.eos.isSome) ∧
      (∀ nalu ∈ left, isPlain nalu.nalUnitType) ∧ Passable nalus' left := by
  obtain ⟨first, rest, list, -, -⟩ := conforms.idr
  have legal := conforms.valid first (by simp [list])
  have starts (left : List Nalu)
      (outer : ∀ nalu ∈ left, startsPicture nalu.nalUnitType ≠ some false) :
      DecApp.nextPicture (left ++ cvs.pictures.flatMap CodedPicture.nalus ++ tail) =
        some true := by
    have seen := nextPicture_nalus legal outer (rest.flatMap CodedPicture.nalus ++ tail)
    simpa [list] using seen
  cases behind with
  | rested stage base accessUnit ended idle gone total flags =>
      rcases flags with inPicture | ⟨inPicture, inSequence⟩
      · exact ⟨app, stage, base, nalus, loopFiltered, accessUnit, .refl, idle, by simp, gone, total,
          inPicture, fun filtered => ⟨filtered, ended⟩, by simp, trivial⟩
      · obtain ⟨app', accessUnit', advance, idle', total', inPicture'⟩ := idle.resume gone
          inPicture inSequence (starts [] (by simp))
          ⟨first.first, by simp [list, mem_nalus_first], legal.first⟩
        exact ⟨app', stage, base, nalus, loopFiltered, accessUnit', advance, idle', by simp, gone,
          total'.trans total, inPicture', fun filtered => ⟨filtered, ended⟩, by simp, trivial⟩
  | unfinished front last base calls conforms' _ split decoding order passed finished =>
      have open_ : ∀ nalu ∈ last.openEnd, startsPicture nalu.nalUnitType ≠ some false :=
        fun nalu here => by simp [startsPicture_openEnd nalu here]
      obtain ⟨app', stage', advance, idle, gone, total, inPicture⟩ :=
        decoding.nextSequence conforms' split
          (starts last.openEnd open_)
          (by
            have opens := nextAccessUnit_nalus legal open_
              (rest.flatMap CodedPicture.nalus ++ tail) decoding.valid
            simpa [list] using opens)
      exact ⟨app', stage', base, calls.passed, false, [], advance, finished ▸ idle, passed, gone,
        total.trans order, inPicture, by simp,
        isPlain_openEnd (conforms'.valid last (by simp [split])), passable_openEnd last _⟩

theorem Behind.sequence {frames pictures : List Frame} {nalus : List Nalu} {prev : Option Cvs}
    {loopFiltered : Bool} {left : List Nalu} {app : DecApp}
    (behind : Behind frames pictures nalus prev loopFiltered left app) {cvs : Cvs}
    (conforms : cvs.Conforming) (free : Passable nalus cvs.nalus) (tail : List Nalu) :
    ∃ app' loopFiltered' left', DecApp.Advances app (left ++ cvs.nalus ++ tail) app'
        (left' ++ tail) ∧
      Behind (frames ++ cvs.outputOrder) (pictures ++ cvs.pictures.map CodedPicture.frame)
        (nalus ++ cvs.nalus) (some cvs) loopFiltered' left' app' ∧
      (cvs.eos = none → loopFiltered' → cvs.pictures.length = 1 ∧ loopFiltered ∧
        ∀ cvs ∈ prev, cvs.eos.isSome) := by
  obtain ⟨app₁, stage, base, nalus', loopFiltered', accessUnit, advance₁, idle, passed, gone,
    total, inPicture, filtered, plain, freeLeft⟩ := behind.ready conforms (cvs.eos.toList ++ tail)
  have freePictures : Passable nalus' (left ++ cvs.pictures.flatMap CodedPicture.nalus) :=
    passable_append.mpr ⟨freeLeft, passed.symm ▸ (passable_append.mp free).1⟩
  obtain ⟨front, last, app₂, calls, split, advance₂, decoding, passed₂, finished₂, filtered₂⟩ :=
    idle.sequence conforms gone inPicture plain freePictures (cvs.eos.toList ++ tail)
  have joined := advance₁.trans advance₂
  rw [total] at decoding
  simp only [passed] at passed₂
  cases ended : cvs.eos with
  | none =>
      refine ⟨app₂, calls.loopFiltered, last.openEnd, ?_,
        .unfinished front last frames calls conforms ended split decoding rfl ?_ finished₂, ?_⟩
      · simpa [Cvs.nalus, ended] using joined
      · simpa [Cvs.nalus, ended] using passed₂
      · intro _ is
        rw [filtered₂, Bool.and_eq_true, decide_eq_true_eq] at is
        exact ⟨is.1, filtered is.2⟩
  | some eos =>
      rw [ended] at joined
      obtain ⟨app₃, stage', accessUnit', advance₃, idle', gone', total', inPicture',
        inSequence'⟩ := decoding.endSequence conforms split (conforms.eos eos (by simp [ended])) tail
      refine ⟨app₃, true, [], ?_, .rested stage' frames accessUnit' (by simp [ended]) ?_ gone' total'
        (.inr ⟨inPicture', inSequence'⟩), by simp⟩
      · have whole := joined.trans (by simpa using advance₃)
        simpa [Cvs.nalus, ended] using whole
      · rw [finished₂, passed₂] at idle'
        simpa [Cvs.nalus, ended] using idle'

theorem behind_init : Behind [] [] [] none false [] DecApp.init := by
  refine .rested ⟨⟨0, [], [], 0⟩, [], [], [], []⟩ [] [] (by simp) ⟨⟨⟨[], rfl, ?_⟩, rfl, rfl, rfl,
    rfl, rfl, rfl, rfl, rfl, rfl, rfl⟩, fun _ => rfl, fun _ => rfl⟩ rfl rfl (.inl rfl)
  exact BufferInv.empty rfl (by simp)

theorem behind_sequences (cvss : List Cvs) (conforms : ∀ cvs ∈ cvss, cvs.Conforming)
    (free : Passable [] (cvss.flatMap Cvs.nalus)) (tail : List Nalu) :
    ∃ app loopFiltered left,
      DecApp.Advances .init (cvss.flatMap Cvs.nalus ++ tail) app (left ++ tail) ∧
      Behind (cvss.flatMap Cvs.outputOrder)
        ((cvss.flatMap (·.pictures)).map CodedPicture.frame) (cvss.flatMap Cvs.nalus)
        cvss.getLast? loopFiltered left app ∧
      (loopFiltered → ∃ front cvs, cvss = front ++ [cvs] ∧ (cvs.eos = none →
        cvs.pictures.length = 1 ∧ ∃ prev ∈ front.getLast?, prev.eos.isSome)) := by
  induction cvss using List.reverseRecOn generalizing tail with
  | nil => exact ⟨.init, false, [], .refl, behind_init, by simp⟩
  | append_singleton cvss cvs ih =>
      rw [List.flatMap_append, List.flatMap_singleton, passable_append] at free
      obtain ⟨app, loopFiltered, left, advance, behind, filtered⟩ :=
        ih (fun c here => conforms c (by simp [here])) free.1 (cvs.nalus ++ tail)
      obtain ⟨app', loopFiltered', left', advance', behind', filtered'⟩ :=
        behind.sequence (conforms cvs (by simp)) free.2 tail
      refine ⟨app', loopFiltered', left', ?_, ?_, ?_⟩
      · have joined := advance.trans (by simpa using advance')
        simpa using joined
      · simpa using behind'
      · intro is
        refine ⟨cvss, cvs, rfl, fun noEos => ?_⟩
        obtain ⟨single, was, ended⟩ := filtered' noEos is
        refine ⟨single, ?_⟩
        obtain ⟨front, prev, list, -⟩ := filtered was
        have last : prev ∈ cvss.getLast? := by simp [list]
        exact ⟨prev, last, ended prev last⟩

namespace Stream

/-- Every NAL unit of the stream is decoded once and in order, every picture goes through
the loop filters and is finished once, and the pictures that are output are written once
each, sequence by sequence and in POC order within a sequence. -/
def DecodedInOrder (stream : Stream) : Prop :=
  ∃ passes, ∀ fuel, ∃ app, DecApp.decode (passes + fuel) stream.nalus = .ok app ∧
    app.passed = stream.nalus ∧ app.filtered = stream.pictures.map CodedPicture.frame ∧
    app.finished = stream.pictures.map CodedPicture.frame ∧
    app.written = stream.cvss.flatMap Cvs.outputOrder

/-- The stream has no filler data and no reserved IRAP unit between a prefix SEI unit and
the next slice, and its last picture is followed by an end of sequence NAL unit, or by
exactly one unit that leaves open whether a picture starts. The latter does not help a
picture that is alone in its sequence behind an end of sequence NAL unit. -/
structure EndsLastPicture (stream : Stream) : Prop where
  noFillerData : ∀ nalu ∈ stream.nalus, nalu.nalUnitType ≠ .fd
  seisTaken : ∀ front nalu rest, stream.nalus = front ++ nalu :: rest →
    isReservedIrap nalu.nalUnitType → waitingSeis front = []
  ends : ∀ front cvs, stream.cvss = front ++ [cvs] → cvs.eos.isSome ∨
    stream.eob = none ∧ (∀ pic ∈ cvs.pictures.getLast?, pic.openEnd.length = 1) ∧
      (cvs.pictures.length ≠ 1 ∨ ∀ prev ∈ front.getLast?, prev.eos = none)

/-- The flush behind the loop writes what still waits. -/
theorem flush_of_idle {stage : Stage} {base : List Frame} {calls : Calls} {app : DecApp}
    (idle : Idle stage base calls app) :
    app.xFlushOutput.passed = calls.passed ∧ app.xFlushOutput.filtered = calls.finished ∧
      app.xFlushOutput.finished = calls.finished ∧ app.xFlushOutput.written = app.total := by
  have flushed := idle.flush stage.sps [] (by simp)
  obtain ⟨written, split, buffer⟩ := flushed.buffer
  refine ⟨flushed.passed, flushed.filtered, flushed.finished, ?_⟩
  have nothing := List.Perm.eq_nil buffer.output.complete
  obtain ⟨rfl, -⟩ := List.append_eq_nil_iff.mp nothing
  simpa using split

/-- The end of bitstream NAL unit and the Fin packet behind a finished stream. -/
theorem returns_rested {stage : Stage} {base : List Frame} {calls : Calls} {app : DecApp}
    (idle : Idle stage base calls app) (gone : stage.future = []) {eob : Option Nalu}
    (type : ∀ nalu ∈ eob, nalu.nalUnitType = .eob) :
    ∃ final, DecApp.Returns app eob.toList final ∧ final.passed = calls.passed ++ eob.toList ∧
      final.filtered = calls.finished ∧ final.finished = calls.finished ∧
      final.written = app.total := by
  cases eob with
  | none =>
      obtain ⟨passed, filtered, finished, written⟩ := flush_of_idle idle
      exact ⟨_, DecApp.returns_nil, by simpa using passed, filtered, finished, written⟩
  | some nalu =>
      have isEob := type nalu rfl
      have next : DecApp.nextPicture [nalu] = some false := by
        rw [nextPicture_cons, isEob]
        rfl
      obtain ⟨app', advance, idle', flags, -⟩ := idle.plain (Stage.limited_of_nil gone)
        (by rw [isEob]; decide) ⟨by simp [isEob], by simp [isEob, isReservedIrap], trivial⟩ []
        (.inr next)
      obtain ⟨passed, filtered, finished, written⟩ := flush_of_idle idle'
      exact ⟨_, advance.returns DecApp.returns_nil, passed, filtered, finished,
        written.trans flags.total⟩

/-- The Fin packet behind one open unit finishes the last picture. -/
theorem returns_unfinished {cvs : Cvs} (conforms : cvs.Conforming) {front : List CodedPicture}
    {last : CodedPicture} (split : cvs.pictures = front ++ [last]) {base : List Frame}
    {calls : Calls} {app : DecApp}
    (decoding : Decoding (cvs.during front last []) last last.slices base calls app)
    (notFiltered : calls.loopFiltered = false) {nalu : Nalu} (isOpen : last.openEnd = [nalu]) :
    ∃ final, DecApp.Returns app [nalu] final ∧ final.passed = calls.passed ++ [nalu] ∧
      final.filtered = calls.finished ++ [last.frame] ∧
      final.finished = calls.finished ++ [last.frame] ∧
      final.written = base ++ cvs.outputOrder := by
  have legal := conforms.valid last (by simp [split])
  have inEnd : nalu ∈ last.openEnd := by simp [isOpen]
  have unclear := startsPicture_openEnd nalu inEnd
  have plain := isPlain_openEnd legal nalu inEnd
  have noVcl : ¬ nalu.nalUnitType.code ≤ NalUnitType.reservedIrapVcl12.code := by
    revert unclear
    cases nalu.nalUnitType <;> simp [startsPicture] <;> decide
  have result := DecApp.returns_open decoding.inPicture unclear
    (decoding.inv.decode_plain plain (isOpen ▸ passable_openEnd last _))
  have passed := decoding.pass (isPlain_noSlice plain)
  have finished := (passed.finishPicture (Cvs.Conforming.outputPocs_subset last [])
    Cvs.Conforming.mem_outputPocs (conforms.poc_over split)).setFlags false
    (app.decLib.firstSliceInSequence || false) app.decLib.pocRandomAccess app.decLib.prevPOC
  rw [Cvs.during_finish, ← split] at finished
  set met : DecApp :=
    { app with decLib := app.decLib.keep nalu, passed := app.passed ++ [nalu] } with metDef
  have ended : met.afterNalu false true nalu.nalUnitType =
      { met.finishPicture with
        loopFiltered := false
        decLib :=
          { met.finishPicture.decLib with
            firstSliceInSequence := app.decLib.firstSliceInSequence || false
            pocRandomAccess := app.decLib.pocRandomAccess
            prevPOC := app.decLib.prevPOC } } := by
    have filtered : app.loopFiltered = false := decoding.inv.loopFiltered.trans notFiltered
    simp [DecApp.afterNalu, DecApp.finishStep, decoding.inSequence, filtered,
      DecApp.writeStep, isPlain_ne_eos plain, noVcl, DecApp.finishPicture,
      DecLib.finishPicture, metDef, DecLib.keep]
  rw [ended] at result
  obtain ⟨passed', filtered', finished', written'⟩ := flush_of_idle finished
  exact ⟨_, result, passed', filtered', finished', written'.trans finished.inv.total_eq⟩

section Examples

/-- A list is split at each of its indices. -/
theorem forall_split {α : Type} {list : List α} {holds : List α → α → List α → Prop}
    (each : ∀ i (inside : i < list.length), holds (list.take i) list[i] (list.drop (i + 1))) :
    ∀ front a rest, list = front ++ a :: rest → holds front a rest := by
  rintro front a rest rfl
  simpa using each front.length (by simp)

/-- An SPS without reordering. -/
def lowDelaySPS : SPS := ⟨1, [0], [1], 8⟩

/-- An SPS of two temporal layers, with one picture out of order. -/
def reorderSPS : SPS := ⟨2, [0, 1], [1, 3], 8⟩

/-- A unit other than a slice; a picture header of this kind asks for output. -/
def otherNalu (nalUnitType : NalUnitType) (temporalId : Nat) : Nalu :=
  ⟨nalUnitType, temporalId, ⟨true, false⟩, ⟨0, 0, [], lowDelaySPS⟩⟩

/-- A coded picture of one IDR slice. -/
def idrPicture : CodedPicture where
  leading := []
  header := otherNalu .ph 0
  early := []
  first := ⟨.codedSliceIdrNLp, 0, .init, ⟨0, 0, [], lowDelaySPS⟩⟩
  more := []
  trailing := []

/-- A stream of one picture. -/
def singlePicture : Stream := ⟨[⟨[idrPicture], none, lowDelaySPS⟩], none⟩

theorem singlePicture_conforming : singlePicture.Conforming := by
  refine ⟨?_, by simp [singlePicture]⟩
  intro cvs here
  obtain rfl : cvs = ⟨[idrPicture], none, lowDelaySPS⟩ := by simpa [singlePicture] using here
  refine ⟨?_, by simp, ⟨idrPicture, [], rfl, rfl, by simp⟩, by simp, by simp, by simp,
    forall_split (by decide), forall_split (by decide)⟩
  intro pic inside
  obtain rfl : pic = idrPicture := by simpa using inside
  constructor <;> simp [idrPicture, otherNalu, CodedPicture.poc, CodedPicture.moreNalus,
    NalUnitType.isSlice, maxInt]

/-- A coded picture of two slices among other units. -/
def twoSlices (nalUnitType : NalUnitType) (temporalId : Nat) (poc : Int) (refPocs : List Int)
    (trailing : List Nalu) : CodedPicture where
  leading := [otherNalu .prefixSei temporalId, otherNalu .pps temporalId]
  header := otherNalu .ph temporalId
  early := [otherNalu .prefixAps temporalId]
  first := ⟨nalUnitType, temporalId, .init, ⟨poc, 0, refPocs, reorderSPS⟩⟩
  more := [([otherNalu .suffixSei temporalId],
    ⟨nalUnitType, temporalId, .init, ⟨poc, 4, refPocs, reorderSPS⟩⟩)]
  trailing

theorem twoSlices_valid {nalUnitType : NalUnitType} {temporalId : Nat} {poc : Int}
    {refPocs : List Int} {trailing : List Nalu} (slice : nalUnitType.isSlice)
    (range : -maxInt < poc) (behind : ∀ nalu ∈ trailing, isTrailing nalu.nalUnitType)
    (lowest : nalUnitType.isIDR ∨ nalUnitType = .codedSliceGdr → temporalId = 0) :
    (twoSlices nalUnitType temporalId poc refPocs trailing).Valid reorderSPS where
  leading := by simp [twoSlices, otherNalu, isLeading, startsPicture]
  header := rfl
  early := by simp [twoSlices, otherNalu, isEarly, isTrailing, startsPicture, NalUnitType.isSlice]
  first := slice
  address := rfl
  sps := rfl
  gaps := by simp [twoSlices, otherNalu, isTrailing, startsPicture, NalUnitType.isSlice]
  types := by simp [twoSlices]
  addresses := by simp [twoSlices]
  pocs := by simp [twoSlices, CodedPicture.poc]
  lists := by simp [twoSlices]
  trailing := behind
  range := range
  layers := by simp [twoSlices, otherNalu, CodedPicture.moreNalus]
  layer := by simp [twoSlices]
  lowest := lowest

/-- Two sequences. The pictures of the first one are not coded in output order, and an
end of sequence unit ends it; a single unit is left behind the second one. -/
def twoSequences : Stream where
  cvss :=
    [⟨[twoSlices .codedSliceIdrWRadl 0 0 [] [otherNalu .reservedIrapVcl11 0],
        twoSlices .codedSliceTrail 0 2 [0] [],
        twoSlices .codedSliceTrail 1 1 [0, 2] [otherNalu .suffixAps 1]],
      some (otherNalu .eos 0), reorderSPS⟩,
    ⟨[twoSlices .codedSliceIdrNLp 0 0 [] [],
        twoSlices .codedSliceTrail 0 1 [0] [otherNalu .suffixSei 0, otherNalu .unspecified28 0]],
      none, reorderSPS⟩]
  eob := none

theorem twoSequences_conforming : twoSequences.Conforming := by
  refine ⟨?_, by simp [twoSequences]⟩
  simp only [twoSequences, List.forall_mem_cons, List.not_mem_nil, false_implies, implies_true,
    and_true]
  constructor
  · refine ⟨?_, by simp [otherNalu], ⟨_, _, rfl, rfl, by decide⟩, by decide, by decide, by decide,
      forall_split (by decide), forall_split (by decide)⟩
    simp only [List.forall_mem_cons, List.not_mem_nil, false_implies, implies_true, and_true]
    exact ⟨twoSlices_valid rfl (by decide) (by decide) (by decide),
      twoSlices_valid rfl (by decide) (by decide) (by decide),
      twoSlices_valid rfl (by decide) (by decide) (by decide)⟩
  · refine ⟨?_, by simp, ⟨_, _, rfl, rfl, by decide⟩, by decide, by decide, by decide,
      forall_split (by decide), forall_split (by decide)⟩
    simp only [List.forall_mem_cons, List.not_mem_nil, false_implies, implies_true, and_true]
    exact ⟨twoSlices_valid rfl (by decide) (by decide) (by decide),
      twoSlices_valid rfl (by decide) (by decide) (by decide)⟩

end Examples

end Stream

end Vtm.Dec
