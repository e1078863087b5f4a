import Vtm.LostPics.Anchor

/-!
# Random access

What `isRandomAccessSkipPicture` skips, as `xDecodeSlice` calls it in a run of the loop of
`DecApp::decode`: the first pictures, what is in front of an IDR or a CRA picture, and the
RASL pictures of the CRA picture that decoding starts with. The function counts slices
where it should count pictures, which makes no difference if the slices that it counts too
few are those of no IDR or CRA picture.
-/

namespace Vtm.LostPics

open Vtm.RefPics Vtm.Std

/-- Decoding can start with the picture. -/
def SliceObject.startsDecoding (object : SliceObject) : Bool :=
  object.nalUnitType.isIDR || object.nalUnitType = .codedSliceCra

/-- The states in front of the passes of the loop, with the frames that were to be skipped
when the sequence began, and the slices fed since. -/
inductive SequenceRun (iSkipFrame : Nat) (iMaxTemporalLayer : Int) :
    Nat → List SliceObject → DecApp → Prop
  | init : SequenceRun iSkipFrame iMaxTemporalLayer iSkipFrame []
      (.init iSkipFrame iMaxTemporalLayer)
  | newPicture {n : Nat} {fed : List SliceObject} {app : DecApp}
      (before : SequenceRun iSkipFrame iMaxTemporalLayer n fed app)
      (inPicture : app.decLib.firstSliceInPicture = false) :
      SequenceRun iSkipFrame iMaxTemporalLayer n fed app.newPicturePass
  | nalu {n : Nat} {fed : List SliceObject} {app next : DecApp} {nalu : Nalu}
      (before : SequenceRun iSkipFrame iMaxTemporalLayer n fed app)
      (notNew : app.decLib.firstSliceInPicture ∨
        Dec.startsPicture nalu.nalUnitType ≠ some true)
      (goesOn : ¬ (nalu.nalUnitType = .eos ∧
        (app.iMaxTemporalLayer < 0 ∨ (nalu.temporalId : Int) ≤ app.iMaxTemporalLayer)))
      (bits : nalu.slice.sets.sps.bitsForPOC ≤ 16)
      (decoded : app.naluPass nalu = .ok next) :
      SequenceRun iSkipFrame iMaxTemporalLayer n (fed ++ (fedSlice app nalu).toList) next
  | eos {n : Nat} {fed : List SliceObject} {app next : DecApp} {nalu : Nalu}
      (before : SequenceRun iSkipFrame iMaxTemporalLayer n fed app)
      (ends : nalu.nalUnitType = .eos)
      (inLayers : app.iMaxTemporalLayer < 0 ∨ (nalu.temporalId : Int) ≤ app.iMaxTemporalLayer)
      (decoded : app.naluPass nalu = .ok next) :
      SequenceRun iSkipFrame iMaxTemporalLayer next.iSkipFrame [] next

/-- A picture in one or more slices. -/
structure SlicedPicture where
  object : SliceObject
  slices : Nat
  slices_pos : 0 < slices

/-- The slices of pictures, in order. -/
@[grind =] def allSlices (pics : List SlicedPicture) : List SliceObject :=
  pics.flatMap fun pic => List.replicate pic.slices pic.object

/-- The pictures that random access skips: the first `n` ones, those in front of the first
IDR or CRA picture behind them, and, up to the next IDR picture, the RASL pictures in front
of the POC of that CRA picture. -/
def skipsPicture (n : Nat) (front : List SliceObject) (pic : SliceObject) : Bool :=
  if front.length < n then true
  else if pic.nalUnitType.isIDR then false
  else if (front.drop n).any (·.nalUnitType.isIDR) then
    pic.nalUnitType = .codedSliceRasl && decide (pic.poc < -Dec.maxInt)
  else
    match (front.drop n).find? (·.nalUnitType = .codedSliceCra) with
    | some start => pic.nalUnitType = .codedSliceRasl && decide (pic.poc < start.poc)
    | none => decide (pic.nalUnitType ≠ .codedSliceCra)

/-! ## Slice by slice -/

/-- `m_pocRandomAccess` behind slices that are not skipped by the counter. -/
@[grind =] def randomAccessPOC (slices : List SliceObject) : Int :=
  if slices.any (·.nalUnitType.isIDR) then -Dec.maxInt
  else
    match slices.find? (·.nalUnitType = .codedSliceCra) with
    | some start => start.poc
    | none => Dec.maxInt

theorem startsDecoding_eq_false {object : SliceObject} :
    object.startsDecoding = false ↔
      object.nalUnitType.isIDR = false ∧ object.nalUnitType ≠ .codedSliceCra := by
  simp [SliceObject.startsDecoding]

/-- Nothing has started. -/
def Unstarted (slices : List SliceObject) : Prop :=
  ∀ object ∈ slices, object.startsDecoding = false

theorem Unstarted.any {slices : List SliceObject} (unstarted : Unstarted slices) :
    slices.any (·.nalUnitType.isIDR) = false := by
  rw [List.any_eq_false]
  intro object member
  simp [(startsDecoding_eq_false.mp (unstarted object member)).1]

theorem Unstarted.find? {slices : List SliceObject} (unstarted : Unstarted slices) :
    slices.find? (·.nalUnitType = .codedSliceCra) = none := by
  rw [List.find?_eq_none]
  intro object member
  simp [(startsDecoding_eq_false.mp (unstarted object member)).2]

theorem Unstarted.randomAccessPOC {slices : List SliceObject} (unstarted : Unstarted slices) :
    randomAccessPOC slices = Dec.maxInt := by
  rw [LostPics.randomAccessPOC, unstarted.any, unstarted.find?]
  rfl

theorem randomAccessPOC_concat {slices : List SliceObject}
    (started : randomAccessPOC slices = Dec.maxInt → Unstarted slices) (object : SliceObject) :
    randomAccessPOC (slices ++ [object]) =
      if object.nalUnitType.isIDR then -Dec.maxInt
      else if randomAccessPOC slices = Dec.maxInt ∧ object.nalUnitType = .codedSliceCra then
        object.poc
      else randomAccessPOC slices := by
  by_cases idr : object.nalUnitType.isIDR
  · simp [randomAccessPOC, idr]
  rw [if_neg idr]
  by_cases unstarted : Unstarted slices
  · rw [unstarted.randomAccessPOC]
    simp only [randomAccessPOC, List.any_append, unstarted.any, List.find?_append,
      unstarted.find?]
    rw [Bool.not_eq_true] at idr
    by_cases cra : object.nalUnitType = .codedSliceCra <;> simp_all
  · rw [if_neg fun h => unstarted (started h.1)]
    have reached := fun h => unstarted (started h)
    simp only [randomAccessPOC, List.any_append, List.find?_append] at reached ⊢
    cases anyIDR : slices.any (·.nalUnitType.isIDR) with
    | true => simp
    | false =>
        cases found : slices.find? (·.nalUnitType = .codedSliceCra) with
        | some start => simp [idr]
        | none => simp [anyIDR, found] at reached

/-- What the counter and `m_pocRandomAccess` are behind slices. -/
@[grind =] def checksBehind (n : Nat) (fed : List SliceObject) : Int × Nat :=
  (randomAccessPOC (fed.drop n), n - fed.length)

theorem isRandomAccessSkipPicture_concat {n : Nat} {fed : List SliceObject}
    (started : randomAccessPOC (fed.drop n) = Dec.maxInt → Unstarted (fed.drop n))
    (object : SliceObject) :
    (DecLib.isRandomAccessSkipPicture object.nalUnitType object.poc
      (randomAccessPOC (fed.drop n)) (n - fed.length)).2 = checksBehind n (fed ++ [object]) := by
  rw [checksBehind, List.length_append, List.length_singleton]
  by_cases counted : fed.length < n
  · have left : n - fed.length ≠ 0 := by omega
    rw [List.drop_eq_nil_of_le (by omega), List.drop_eq_nil_of_le (by simp; omega),
      DecLib.isRandomAccessSkipPicture, if_pos left]
    rw [Nat.sub_add_eq]
  · have left : n - fed.length = 0 := by omega
    have behind : n - (fed.length + 1) = 0 := by omega
    rw [List.drop_append_of_le_length (by omega), randomAccessPOC_concat started, left, behind]
    unfold DecLib.isRandomAccessSkipPicture
    by_cases idr : object.nalUnitType.isIDR
    · simp [idr]
    · rw [if_neg (not_not.mpr rfl), if_neg idr, if_neg idr]
      by_cases reached : randomAccessPOC (fed.drop n) = Dec.maxInt
      · by_cases cra : object.nalUnitType = .codedSliceCra <;> simp [reached, cra]
      · simp only [reached, false_and, if_false]
        split <;> rfl

theorem check_readAndSkip {lib : DecLib} {nalu : Nalu} {iSkipFrame : Nat} {read : DecLib.Read}
    (front : lib.readAndSkip nalu iSkipFrame = .ok read) :
    (read.skipped, read.lib.pocRandomAccess, read.iSkipFrame) =
      DecLib.isRandomAccessSkipPicture nalu.nalUnitType read.poc lib.pocRandomAccess
        iSkipFrame := by
  unfold DecLib.readAndSkip at front
  obtain ⟨started, start, rest⟩ := bind_eq_ok_iff.mp front
  split at rest
  · cases rest
  · cases rest
    have kept : (started.readSlice nalu).1.pocRandomAccess = lib.pocRandomAccess := by
      simp only [DecLib.readSlice]
      rw [resetPOC_eq]
      simp only [DecLib.inferOutput]
      rw [xUpdatePreviousTid0POC_eq, checkNoOutputPriorPics_eq, startSlice_eq lib nalu start]
    rw [← kept]

/-- The POC of the CRA picture that a sequence begins with has no most significant bits. -/
theorem poc_lt_of_first {lib : DecLib} {nalu : Nalu} {iSkipFrame : Nat} {read : DecLib.Read}
    (front : lib.readAndSkip nalu iSkipFrame = .ok read) (cra : nalu.nalUnitType = .codedSliceCra)
    (first : lib.firstSliceInSequence) (bits : nalu.slice.sets.sps.bitsForPOC ≤ 16) :
    read.poc < Dec.maxInt := by
  unfold DecLib.readAndSkip at front
  obtain ⟨started, start, rest⟩ := bind_eq_ok_iff.mp front
  have first' : started.firstSliceInSequence := by
    rw [startSlice_eq lib nalu start]
    exact first
  split at rest
  · cases rest
  · cases rest
    have reset : (started.readSlice nalu).2 =
        nalu.parsePOC started.prevTid0POC % 2 ^ nalu.slice.sets.sps.bitsForPOC := by
      have isCra : nalu.nalUnitType.isCraOrGdr := by
        rw [cra]
        decide
      have inFirst : ((started.checkNoOutputPriorPics nalu).xUpdatePreviousTid0POC (nalu.object
          (nalu.parsePOC started.prevTid0POC))).firstSliceInSequence := by
        rw [xUpdatePreviousTid0POC_eq, checkNoOutputPriorPics_eq]
        exact first'
      simp only [DecLib.readSlice, DecLib.resetPOC, DecLib.inferOutput,
        DecLib.noIncorrectPicOutputFlag, isCra, inFirst, Bool.and_self, if_true, and_self]
    have room : (2 : Int) ^ nalu.slice.sets.sps.bitsForPOC ≤ 2 ^ 16 :=
      pow_le_pow_right₀ (by norm_num) bits
    have below := Int.emod_lt_of_pos (nalu.parsePOC started.prevTid0POC)
      (show (0 : Int) < 2 ^ nalu.slice.sets.sps.bitsForPOC by positivity)
    change (started.readSlice nalu).2 < Dec.maxInt
    rw [reset, Dec.maxInt]
    omega

/-- Pictures are filled in only behind the start of decoding. -/
theorem pocRandomAccess_insertLostRefs {lib filled : DecLib} {slice : Slice}
    (reached : lib.pocRandomAccess ≠ Dec.maxInt)
    (inserted : lib.insertLostRefs slice = .ok filled) :
    filled.pocRandomAccess = lib.pocRandomAccess := by
  have loop {rpl : ReferencePictureList} {start last : DecLib} {fills : List Fill}
      (same : start.pocRandomAccess = lib.pocRandomAccess)
      (ends : Ends slice rpl start fills last) : last.pocRandomAccess = lib.pocRandomAccess := by
    obtain ⟨tested, inLoop, rfl⟩ := ends.inLoop
    refine inLoop.preserves (P := fun lib' => lib'.pocRandomAccess = lib.pocRandomAccess)
      (fun _ here => here) ?_ same
    intro lib' lostPoc refPicIndex next i here filledOne
    obtain ⟨_, _, _, _, _, rfl⟩ := insertMissing_ok slice rpl filledOne
    dsimp only
    rw [if_neg (here ▸ reached), here]
  obtain ⟨_, _, middle, first, second⟩ := insertLostRefs_ok inserted
  exact loop (loop rfl first) second

/-- What a slice does behind the check. -/
theorem kept_decodeRead {nalu : Nalu} {read : DecLib.Read} {lib : DecLib}
    (reached : read.skipped = false → read.lib.pocRandomAccess ≠ Dec.maxInt)
    (decoded : DecLib.decodeRead nalu read = .ok lib) :
    lib.pocRandomAccess = read.lib.pocRandomAccess ∧
      (lib.pocRandomAccess = Dec.maxInt →
        lib.firstSliceInSequence = read.lib.firstSliceInSequence) := by
  unfold DecLib.decodeRead at decoded
  split at decoded
  · cases decoded
    exact ⟨rfl, fun _ => rfl⟩
  · rename_i kept
    rw [Bool.not_eq_true] at kept
    split at decoded
    · cases decoded
      exact ⟨rfl, fun _ => rfl⟩
    · obtain ⟨filled, inserted, decompressed⟩ := bind_eq_ok_iff.mp decoded
      have same := (pocs_decompressSlice decompressed).2.trans
        (pocRandomAccess_insertLostRefs (reached kept) inserted)
      exact ⟨same, fun wrong => absurd (same.symm.trans wrong) (reached kept)⟩

/-- A slice that is not skipped is behind the start of decoding. -/
theorem reached_of_not_skipped {nalUnitType : NalUnitType} {poc pocRandomAccess : Int}
    {iSkipFrame : Nat}
    (start : nalUnitType = .codedSliceCra → pocRandomAccess = Dec.maxInt → poc < Dec.maxInt)
    (kept : (DecLib.isRandomAccessSkipPicture nalUnitType poc pocRandomAccess iSkipFrame).1 =
      false) :
    (DecLib.isRandomAccessSkipPicture nalUnitType poc pocRandomAccess iSkipFrame).2.1 ≠
      Dec.maxInt := by
  unfold DecLib.isRandomAccessSkipPicture at kept ⊢
  split
  · simp_all
  · split
    · exact show -Dec.maxInt ≠ Dec.maxInt by decide
    · split
      · split
        · rename_i unset cra
          exact (start cra unset).ne
        · simp_all
      · split
        · assumption
        · assumption

/-! ## The run -/

/-- What the decoder knows for its check. -/
structure Checks (n : Nat) (fed : List SliceObject) (app : DecApp) : Prop where
  check : (app.decLib.pocRandomAccess, app.iSkipFrame) = checksBehind n fed
  started : app.decLib.pocRandomAccess = Dec.maxInt → Unstarted (fed.drop n)
  first : app.decLib.pocRandomAccess = Dec.maxInt → app.decLib.firstSliceInSequence = true

theorem firstSliceInSequence_finishStep (app : DecApp) (bNewPicture isEOS : Bool) :
    (app.finishStep bNewPicture isEOS).decLib.firstSliceInSequence =
      (app.decLib.firstSliceInSequence || isEOS) := by
  unfold DecApp.finishStep
  split
  · split
    · rename_i first
      simp [first]
    · rename_i first
      simp [first]
  · rename_i neither
    simp [show isEOS = false by simpa using fun h => neither (Or.inr h)]

/-- The end of a pass changes nothing the check depends on. -/
theorem Checks.finish {n : Nat} {fed : List SliceObject} {app : DecApp} (checks : Checks n fed app)
    (bNewPicture isEOS isVcl : Bool) :
    Checks n fed ((app.finishStep bNewPicture isEOS).writeStep bNewPicture isEOS isVcl) := by
  obtain ⟨_, _, _, written⟩ :=
    onlyWrites_writeStep (app.finishStep bNewPicture isEOS) bNewPicture isEOS isVcl
  have same : (app.finishStep bNewPicture isEOS).decLib.pocRandomAccess =
      app.decLib.pocRandomAccess := by
    rw [finishStep_eq]
  rw [written]
  refine ⟨?_, ?_, ?_⟩
  · rw [finishStep_eq]
    exact checks.check
  · exact fun unset => checks.started (same.symm.trans unset)
  · intro unset
    change (app.finishStep bNewPicture isEOS).decLib.firstSliceInSequence = true
    rw [firstSliceInSequence_finishStep, checks.first (same.symm.trans unset), Bool.true_or]

theorem unstarted_concat {n : Nat} {fed : List SliceObject} {object : SliceObject}
    (started : randomAccessPOC (fed.drop n) = Dec.maxInt → Unstarted (fed.drop n))
    (start : object.nalUnitType = .codedSliceCra →
      randomAccessPOC (fed.drop n) = Dec.maxInt → object.poc < Dec.maxInt)
    (unset : randomAccessPOC ((fed ++ [object]).drop n) = Dec.maxInt) :
    Unstarted ((fed ++ [object]).drop n) := by
  by_cases counted : fed.length < n
  · rw [List.drop_eq_nil_of_le (by simp; omega)]
    exact List.forall_mem_nil _
  · rw [List.drop_append_of_le_length (by omega)] at unset ⊢
    rw [randomAccessPOC_concat started] at unset
    by_cases idr : object.nalUnitType.isIDR
    · rw [if_pos idr] at unset
      exact absurd unset (by decide)
    rw [if_neg idr] at unset
    split at unset
    · rename_i cra
      exact absurd unset (start cra.2 cra.1).ne
    · rename_i notFirst
      have notCra : object.nalUnitType ≠ .codedSliceCra := fun cra => notFirst ⟨unset, cra⟩
      intro other member
      rcases List.mem_append.mp member with member | member
      · exact started unset other member
      · rw [List.mem_singleton.mp member]
        exact startsDecoding_eq_false.mpr ⟨by simpa using idr, notCra⟩

theorem Unstarted.drop_of_concat {n : Nat} {fed : List SliceObject} {object : SliceObject}
    (unstarted : Unstarted ((fed ++ [object]).drop n)) : Unstarted (fed.drop n) := by
  intro other member
  apply unstarted other
  rw [List.drop_append]
  exact List.mem_append_left _ member

/-- A slice that `xDecodeSlice` has come to the check of. -/
theorem Checks.slice {n : Nat} {fed : List SliceObject} {app next : DecApp} {nalu : Nalu}
    {read : DecLib.Read} {lib : DecLib} (checks : Checks n fed app)
    (front : app.decLib.readAndSkip nalu app.iSkipFrame = .ok read)
    (bits : nalu.slice.sets.sps.bitsForPOC ≤ 16)
    (decoded : DecLib.decodeRead nalu read = .ok lib)
    (result : next = { app with decLib := lib, iSkipFrame := read.iSkipFrame }) :
    Checks n (fed ++ [nalu.object read.poc]) next := by
  subst result
  have left : app.iSkipFrame = n - fed.length := congrArg Prod.snd checks.check
  have poc : app.decLib.pocRandomAccess = randomAccessPOC (fed.drop n) :=
    congrArg Prod.fst checks.check
  have started := checks.started
  rw [poc] at started
  have start (cra : nalu.nalUnitType = .codedSliceCra)
      (unset : randomAccessPOC (fed.drop n) = Dec.maxInt) : read.poc < Dec.maxInt :=
    poc_lt_of_first front cra (checks.first (poc.trans unset)) bits
  have check := check_readAndSkip front
  rw [poc, left] at check
  have behind : (read.lib.pocRandomAccess, read.iSkipFrame) =
      checksBehind n (fed ++ [nalu.object read.poc]) :=
    (congrArg Prod.snd check).trans
      (isRandomAccessSkipPicture_concat started (nalu.object read.poc))
  have reached (kept : read.skipped = false) : read.lib.pocRandomAccess ≠ Dec.maxInt := by
    have checked : (DecLib.isRandomAccessSkipPicture nalu.nalUnitType read.poc
        (randomAccessPOC (fed.drop n)) (n - fed.length)).1 = false :=
      (congrArg Prod.fst check).symm.trans kept
    have result := reached_of_not_skipped start checked
    rwa [← check] at result
  obtain ⟨same, first⟩ := kept_decodeRead reached decoded
  have unstarted (unset : lib.pocRandomAccess = Dec.maxInt) :
      Unstarted ((fed ++ [nalu.object read.poc]).drop n) :=
    unstarted_concat started start
      ((congrArg Prod.fst behind).symm.trans (same.symm.trans unset))
  refine ⟨?_, unstarted, ?_⟩
  · rw [← behind, ← same]
  · intro unset
    rw [first unset, (readAndSkip_ok front).2.2.2]
    exact checks.first (poc.trans (unstarted unset).drop_of_concat.randomAccessPOC)

theorem Checks.flushForIDR {n : Nat} {fed : List SliceObject} {app : DecApp}
    (checks : Checks n fed app) (nalu : Nalu) : Checks n fed (app.flushForIDR nalu) := by
  obtain ⟨_, _, _, flushed⟩ := onlyWrites_flushForIDR app nalu
  rw [flushed]
  exact ⟨checks.check, checks.started, checks.first⟩

/-- What a NAL unit does to the check. -/
theorem Checks.decodeNalu {n : Nat} {fed : List SliceObject} {app next : DecApp} {nalu : Nalu}
    (checks : Checks n fed app)
    (goesOn : ¬ (nalu.nalUnitType = .eos ∧
      (app.iMaxTemporalLayer < 0 ∨ (nalu.temporalId : Int) ≤ app.iMaxTemporalLayer)))
    (bits : nalu.slice.sets.sps.bitsForPOC ≤ 16) (decoded : app.decodeNalu nalu = .ok next) :
    Checks n (fed ++ (fedSlice app nalu).toList) next := by
  have flushed := checks.flushForIDR nalu
  obtain ⟨-, layers, -⟩ := kept_flushForIDR app nalu
  rw [← layers] at goesOn
  unfold DecApp.decodeNalu at decoded
  unfold fedSlice
  dsimp only at decoded ⊢
  split at decoded
  · rename_i inLayers
    obtain ⟨⟨lib, left⟩, decodedLib, rfl⟩ := map_eq_ok_iff.mp decoded
    unfold DecLib.decode at decodedLib
    split at decodedLib
    · rename_i isSlice
      by_cases valid : (app.flushForIDR nalu).decLib.picHeaderValid
      · rw [if_pos ⟨isSlice, valid, inLayers⟩]
        rw [DecLib.xDecodeSlice, if_neg (by simp [valid])] at decodedLib
        obtain ⟨read, front, behind⟩ := bind_eq_ok_iff.mp decodedLib
        obtain ⟨_, done, same⟩ := map_eq_ok_iff.mp behind
        obtain ⟨rfl, rfl⟩ := Prod.mk.inj same
        rw [front]
        exact flushed.slice front bits done rfl
      · rw [if_neg fun h => valid h.2.1]
        rw [DecLib.xDecodeSlice, if_pos (by simpa using valid)] at decodedLib
        cases decodedLib
        rw [Option.toList_none, List.append_nil]
        exact flushed
    · rename_i notSlice
      rw [if_neg fun h => notSlice h.1, Option.toList_none, List.append_nil]
      split at decodedLib <;> cases decodedLib
      case h_4 eos => exact absurd ⟨eos, inLayers⟩ goesOn
      all_goals exact ⟨flushed.check, flushed.started, flushed.first⟩
  · rename_i outside
    cases decoded
    rw [if_neg fun h => outside h.2.2, Option.toList_none, List.append_nil]
    exact flushed

theorem checks_init (iSkipFrame : Nat) (iMaxTemporalLayer : Int) :
    Checks iSkipFrame [] (.init iSkipFrame iMaxTemporalLayer) where
  check := by simp [checksBehind, randomAccessPOC, DecApp.init, DecLib.init]
  started := by simp [Unstarted]
  first := fun _ => rfl

/-- Behind the end of a sequence the decoder is where it began. -/
theorem checks_eos {app next : DecApp} {nalu : Nalu} (ends : nalu.nalUnitType = .eos)
    (inLayers : app.iMaxTemporalLayer < 0 ∨ (nalu.temporalId : Int) ≤ app.iMaxTemporalLayer)
    (decoded : app.naluPass nalu = .ok next) : Checks next.iSkipFrame [] next := by
  obtain ⟨after, done, rfl⟩ := map_eq_ok_iff.mp decoded
  obtain ⟨-, layers, -⟩ := kept_flushForIDR app nalu
  unfold DecApp.decodeNalu at done
  dsimp only at done
  rw [layers, if_pos inLayers, DecLib.decode, if_neg (by simp [ends, NalUnitType.isSlice]),
    ends] at done
  cases done
  obtain ⟨_, _, _, written⟩ := onlyWrites_writeStep
    (DecApp.finishStep _ false (nalu.nalUnitType = .eos)) false (nalu.nalUnitType = .eos)
    (nalu.nalUnitType.code ≤ NalUnitType.reservedIrapVcl12.code)
  rw [written]
  refine ⟨?_, fun _ => ?_, fun _ => ?_⟩
  · simp only [checksBehind, List.drop_nil, List.length_nil, Nat.sub_zero]
    rw [finishStep_eq]
    rfl
  · rw [List.drop_nil]
    exact List.forall_mem_nil _
  · rw [firstSliceInSequence_finishStep]
    simp [ends]

theorem SequenceRun.checks {iSkipFrame : Nat} {iMaxTemporalLayer : Int} {n : Nat}
    {fed : List SliceObject} {app : DecApp}
    (run : SequenceRun iSkipFrame iMaxTemporalLayer n fed app) : Checks n fed app := by
  induction run with
  | init => exact checks_init iSkipFrame iMaxTemporalLayer
  | newPicture _ _ ih => exact ih.finish true false false
  | nalu _ _ goesOn bits decoded ih =>
      obtain ⟨after, done, rfl⟩ := map_eq_ok_iff.mp decoded
      exact (ih.decodeNalu goesOn bits done).finish false _ _
  | eos _ ends inLayers decoded _ => exact checks_eos ends inLayers decoded

/-! ## Picture by picture -/

theorem mem_allSlices {pics : List SlicedPicture} {object : SliceObject} :
    object ∈ allSlices pics ↔ ∃ pic ∈ pics, pic.object = object := by
  simp only [allSlices, List.mem_flatMap, List.mem_replicate]
  constructor
  · rintro ⟨pic, member, -, rfl⟩
    exact ⟨pic, member, rfl⟩
  · rintro ⟨pic, member, rfl⟩
    exact ⟨pic, member, pic.slices_pos.ne', rfl⟩

theorem length_le_allSlices (pics : List SlicedPicture) :
    pics.length ≤ (allSlices pics).length := by
  induction pics with
  | nil => exact le_refl 0
  | cons pic pics ih =>
      have := pic.slices_pos
      simp only [allSlices, List.flatMap_cons, List.length_append, List.length_replicate,
        List.length_cons] at ih ⊢
      omega

/-- The slices of pictures are searched as the pictures are. -/
theorem find?_allSlices (pics : List SlicedPicture) (p : SliceObject → Bool) :
    (allSlices pics).find? p = (pics.map (·.object)).find? p := by
  induction pics with
  | nil => rfl
  | cons pic pics ih =>
      rw [allSlices, List.flatMap_cons, List.find?_append]
      change _ = List.find? p (pic.object :: pics.map (·.object))
      rw [List.find?_cons, ← ih]
      cases here : p pic.object with
      | true => simp [List.find?_replicate, here, pic.slices_pos.ne']
      | false => simp [List.find?_replicate, here, allSlices]

theorem any_allSlices (pics : List SlicedPicture) (p : SliceObject → Bool) :
    (allSlices pics).any p = (pics.map (·.object)).any p := by
  rw [Bool.eq_iff_iff, List.any_eq_true, List.any_eq_true]
  simp [mem_allSlices]

/-- The check of a slice that is not counted, by the slices in front of it. -/
theorem skipped_uncounted {slices : List SliceObject}
    (started : randomAccessPOC slices = Dec.maxInt → Unstarted slices) (object : SliceObject) :
    (DecLib.isRandomAccessSkipPicture object.nalUnitType object.poc (randomAccessPOC slices) 0).1 =
      if object.nalUnitType.isIDR then false
      else if slices.any (·.nalUnitType.isIDR) then
        object.nalUnitType = .codedSliceRasl && decide (object.poc < -Dec.maxInt)
      else
        match slices.find? (·.nalUnitType = .codedSliceCra) with
        | some start => object.nalUnitType = .codedSliceRasl && decide (object.poc < start.poc)
        | none => decide (object.nalUnitType ≠ .codedSliceCra) := by
  unfold DecLib.isRandomAccessSkipPicture
  rw [if_neg (not_not.mpr rfl)]
  by_cases idr : object.nalUnitType.isIDR
  · rw [if_pos idr, if_pos idr]
  rw [if_neg idr, if_neg idr]
  by_cases unset : randomAccessPOC slices = Dec.maxInt
  · have unstarted := started unset
    rw [if_pos unset, unstarted.any, unstarted.find?]
    by_cases cra : object.nalUnitType = .codedSliceCra <;> simp [cra]
  · rw [if_neg unset]
    have limited (limit : Int) :
        (if object.poc < limit ∧ object.nalUnitType = .codedSliceRasl then (true, limit, 0)
          else (false, limit, 0)).1 =
          (object.nalUnitType = .codedSliceRasl && decide (object.poc < limit)) := by
      split
      · rename_i leading
        simp [leading]
      · rename_i notLeading
        simpa [and_comm] using notLeading
    rw [limited]
    unfold randomAccessPOC at unset ⊢
    split
    · rfl
    · rename_i noIDR
      rw [if_neg noIDR] at unset
      split
      · rfl
      · rename_i none'
        rw [none'] at unset
        exact absurd rfl unset

/-- The check of a slice of a picture, wherever the slice is in it. -/
theorem skipped_of_slicing {n : Nat} {fed : List SliceObject} {front back : List SlicedPicture}
    {pic : SlicedPicture} {j : Nat}
    (started : randomAccessPOC (fed.drop n) = Dec.maxInt → Unstarted (fed.drop n))
    (slicing : fed = allSlices front ++ List.replicate j pic.object) (more : j < pic.slices)
    (uncounted : Unstarted ((allSlices ((front ++ pic :: back).take n)).drop n)) :
    (DecLib.isRandomAccessSkipPicture pic.object.nalUnitType pic.object.poc
      (randomAccessPOC (fed.drop n)) (n - fed.length)).1 =
      skipsPicture n (front.map (·.object)) pic.object := by
  rw [skipsPicture, List.length_map]
  by_cases counted : fed.length < n
  · have fewer : front.length < n := by
      have := length_le_allSlices front
      rw [slicing, List.length_append] at counted
      omega
    rw [if_pos fewer, DecLib.isRandomAccessSkipPicture, if_pos (by omega)]
  rw [show n - fed.length = 0 by omega, skipped_uncounted started]
  by_cases fewer : front.length < n
  · -- the slice is one of those that the function counts too few
    obtain ⟨m, rfl⟩ : ∃ m, n = front.length + (m + 1) := ⟨n - front.length - 1, by omega⟩
    obtain ⟨k, slices⟩ : ∃ k, pic.slices = j + (k + 1) := ⟨pic.slices - j - 1, by omega⟩
    have around : allSlices ((front ++ pic :: back).take (front.length + (m + 1))) =
        fed ++ (List.replicate (k + 1) pic.object ++ allSlices (back.take m)) := by
      rw [List.take_length_add_append, List.take_succ_cons, slicing]
      simp [allSlices, slices, List.replicate_add]
    rw [around, List.drop_append_of_le_length (by omega)] at uncounted
    have unstarted : Unstarted (fed.drop (front.length + (m + 1))) := fun object member =>
      uncounted object (List.mem_append_left _ member)
    have own := startsDecoding_eq_false.mp (uncounted pic.object
      (List.mem_append_right _ (List.mem_append_left _ (by simp))))
    rw [if_pos fewer, unstarted.any, unstarted.find?]
    simp [own]
  · rw [if_neg fewer, ← List.map_drop]
    rw [List.take_append_of_le_length (by omega)] at uncounted
    have room := length_le_allSlices (front.take n)
    rw [List.length_take, Nat.min_eq_left (by omega)] at room
    have behind : fed.drop n = (allSlices (front.take n)).drop n ++
        (allSlices (front.drop n) ++ List.replicate j pic.object) := by
      have parts : allSlices front = allSlices (front.take n) ++ allSlices (front.drop n) := by
        rw [allSlices, allSlices, allSlices, ← List.flatMap_append, List.take_append_drop]
      rw [slicing, parts, List.append_assoc, List.drop_append_of_le_length room]
    by_cases idr : pic.object.nalUnitType.isIDR
    · rw [if_pos idr, if_pos idr]
    rw [if_neg idr, if_neg idr]
    have anyIDR : (fed.drop n).any (·.nalUnitType.isIDR) =
        ((front.drop n).map (·.object)).any (·.nalUnitType.isIDR) := by
      rw [behind, List.any_append, uncounted.any, List.any_append, any_allSlices]
      simp [idr]
    have firstCRA : (fed.drop n).find? (·.nalUnitType = .codedSliceCra) =
        (((front.drop n).map (·.object)).find? (·.nalUnitType = .codedSliceCra)).or
          ((List.replicate j pic.object).find? (·.nalUnitType = .codedSliceCra)) := by
      rw [behind, List.find?_append, uncounted.find?, List.find?_append, find?_allSlices]
      rfl
    rw [anyIDR, firstCRA]
    split
    · rfl
    · cases ((front.drop n).map (·.object)).find? (·.nalUnitType = .codedSliceCra) with
      | some start => rfl
      | none =>
          -- the slices in front of it in a CRA picture have started the decoding
          by_cases cra : pic.object.nalUnitType = .codedSliceCra
          · cases j with
            | zero => rfl
            | succ j => simp [cra]
          · simp [cra]

/-- What is decoded first. -/
theorem startsDecoding_of_first {n : Nat} {front : List SliceObject} {pic : SliceObject}
    (kept : skipsPicture n front pic = false)
    (skipped : ∀ before earlier behind, front = before ++ earlier :: behind →
      skipsPicture n before earlier = true) : pic.startsDecoding = true := by
  unfold skipsPicture at kept
  split at kept
  · cases kept
  rename_i counted
  have earlierSkipped {before behind : List SliceObject} {earlier : SliceObject}
      (here : front.drop n = before ++ earlier :: behind) :
      skipsPicture n (front.take n ++ before) earlier = true := by
    apply skipped _ _ behind
    rw [List.append_assoc, ← here, List.take_append_drop]
  have uncounted (before : List SliceObject) : ¬ (front.take n ++ before).length < n := by
    rw [List.length_append, List.length_take]
    omega
  split at kept
  · rename_i idr
    simp [SliceObject.startsDecoding, idr]
  split at kept
  · rename_i anyIDR
    obtain ⟨earlier, member, idr⟩ := List.any_eq_true.mp anyIDR
    obtain ⟨before, behind, here⟩ := List.append_of_mem member
    have wrong := earlierSkipped here
    rw [skipsPicture, if_neg (uncounted before), if_pos idr] at wrong
    cases wrong
  rename_i noIDR
  split at kept
  · rename_i start found
    obtain ⟨cra, before, behind, here, none'⟩ := List.find?_eq_some_iff_append.mp found
    have wrong := earlierSkipped here
    rw [Bool.not_eq_true, List.any_eq_false] at noIDR
    have notIDR := noIDR start (here ▸ by simp)
    have beforeIDR : before.any (·.nalUnitType.isIDR) = false := by
      rw [List.any_eq_false]
      exact fun object member => noIDR object (here ▸ List.mem_append_left _ member)
    have beforeCRA : before.find? (·.nalUnitType = .codedSliceCra) = none := by
      rw [List.find?_eq_none]
      intro object member
      simpa using none' object member
    have drop : (front.take n ++ before).drop n = before := by
      rw [List.drop_append_of_le_length (by rw [List.length_take]; omega)]
      simp
    rw [skipsPicture, if_neg (uncounted before), if_neg notIDR, drop, beforeIDR, beforeCRA] at wrong
    simp_all
  · rw [decide_eq_false_iff_not, not_not] at kept
    simp [SliceObject.startsDecoding, kept]

theorem SequenceRun.passes {iSkipFrame : Nat} {iMaxTemporalLayer : Int} {n : Nat}
    {fed : List SliceObject} {app last : DecApp}
    (run : SequenceRun iSkipFrame iMaxTemporalLayer n fed app) {units : List (Option Nalu)}
    (goesOn : ∀ unit ∈ units, ∀ nalu ∈ unit,
      nalu.nalUnitType ≠ .eos ∧ nalu.slice.sets.sps.bitsForPOC ≤ 16)
    (done : app.passes units = .ok last) :
    SequenceRun iSkipFrame iMaxTemporalLayer n (fed ++ fedSlices app units) last := by
  induction units generalizing fed app with
  | nil =>
      cases done
      rwa [fedSlices, List.append_nil]
  | cons unit units ih =>
      obtain ⟨next, first, rest⟩ := bind_eq_ok_iff.mp done
      rw [fedSlices, first, ← List.append_assoc]
      refine ih ?_ (fun unit member => goesOn unit (List.mem_cons_of_mem _ member)) rest
      cases unit with
      | none =>
          rw [DecApp.pass] at first
          split at first
          · cases first
            simpa using SequenceRun.newPicture run ‹_›
          · cases first
      | some nalu =>
          obtain ⟨notEOS, bits⟩ := goesOn (some nalu) List.mem_cons_self nalu rfl
          rw [DecApp.pass] at first
          split at first
          · exact .nalu run ‹_› (fun h => notEOS h.1) bits first
          · cases first

/-- A NAL unit of pictures in one slice each, which refer to no other picture. -/
def intraNalu (nalUnitType : NalUnitType) (lsb : Nat) : Nalu :=
  let nalu := tripleNalu nalUnitType lsb 0 lsb
  { nalu with slice := { nalu.slice with sliceType := .I_SLICE } }

/-- The check of the slice behind some NAL units, with what has been fed. -/
def checkBehind (units : List (Option Nalu)) (nalu : Nalu) :
    Option (List SliceObject × Option SliceObject × Bool) :=
  match (DecApp.init 0 (-1)).passes units with
  | .error _ => none
  | .ok app =>
      match (app.flushForIDR nalu).decLib.readAndSkip nalu app.iSkipFrame with
      | .error _ => none
      | .ok read => some (fedSlices (.init 0 (-1)) units, fedSlice app nalu, read.skipped)

theorem exists_of_checkBehind (units : List (Option Nalu)) (nalu : Nalu)
    {fed : List SliceObject} {object : Option SliceObject} {skipped : Bool}
    (goesOn : ∀ unit ∈ units, ∀ nalu ∈ unit,
      nalu.nalUnitType ≠ .eos ∧ nalu.slice.sets.sps.bitsForPOC ≤ 16)
    (computed : checkBehind units nalu = some (fed, object, skipped)) :
    ∃ app read, SequenceRun 0 (-1) 0 fed app ∧ fedSlice app nalu = object ∧
      (app.flushForIDR nalu).decLib.readAndSkip nalu app.iSkipFrame = .ok read ∧
      read.skipped = skipped := by
  unfold checkBehind at computed
  split at computed
  · cases computed
  · rename_i app passed
    split at computed
    · cases computed
    · rename_i read check
      cases computed
      exact ⟨app, read, SequenceRun.init.passes goesOn passed, rfl, check, rfl⟩

/-- In every run, `xDecodeSlice` makes one decision for all slices of a picture: it skips
those that random access skips. The first picture that is decoded is IDR or CRA. -/
theorem skipped_eq_skipsPicture {iSkipFrame : Nat} {iMaxTemporalLayer : Int} {n : Nat}
    {fed : List SliceObject} {app : DecApp}
    (run : SequenceRun iSkipFrame iMaxTemporalLayer n fed app)
    {front back : List SlicedPicture} {pic : SlicedPicture} {j : Nat}
    (slicing : fed = allSlices front ++ List.replicate j pic.object) (more : j < pic.slices)
    (uncounted : Unstarted ((allSlices ((front ++ pic :: back).take n)).drop n))
    {nalu : Nalu} {read : DecLib.Read} (isFed : fedSlice app nalu = some pic.object)
    (check : (app.flushForIDR nalu).decLib.readAndSkip nalu app.iSkipFrame = .ok read) :
    read.skipped = skipsPicture n (front.map (·.object)) pic.object ∧
      (read.skipped = false →
        (∀ before earlier behind, front.map (·.object) = before ++ earlier :: behind →
          skipsPicture n before earlier = true) →
        pic.object.startsDecoding = true) := by
  obtain ⟨-, -, read', check', object⟩ := fedSlice_eq_some isFed
  obtain rfl := Except.ok.inj (check.symm.trans check')
  have checks := run.checks.flushForIDR nalu
  have left : (app.flushForIDR nalu).iSkipFrame = n - fed.length := congrArg Prod.snd checks.check
  have poc : (app.flushForIDR nalu).decLib.pocRandomAccess = randomAccessPOC (fed.drop n) :=
    congrArg Prod.fst checks.check
  have started := checks.started
  have decision := congrArg Prod.fst (check_readAndSkip check)
  rw [poc] at started decision
  rw [← (kept_flushForIDR app nalu).2.2, left] at decision
  have law : read.skipped = skipsPicture n (front.map (·.object)) pic.object := by
    rw [← skipped_of_slicing started slicing more uncounted, object]
    exact decision
  exact ⟨law, fun kept => startsDecoding_of_first (law.symm.trans kept)⟩

/-- The CRA picture of POC 8. -/
def craPicture : SlicedPicture := ⟨⟨8, 0, .codedSliceCra⟩, 1, Nat.one_pos⟩

/-- A RASL picture of POC 6 in two slices. -/
def raslPicture : SlicedPicture := ⟨⟨6, 0, .codedSliceRasl⟩, 2, Nat.two_pos⟩

/-- The CRA picture, and the first slice of the RASL picture. -/
def leadingUnits : List (Option Nalu) :=
  [some (intraNalu .sps 0), some (intraNalu .ph 0), some (intraNalu .codedSliceCra 8),
    none, some (intraNalu .ph 0), some (intraNalu .codedSliceRasl 6)]

/-- The second slice of the RASL picture is skipped. -/
theorem skipped_eq_skipsPicture_rasl :
    ∃ fed app read, SequenceRun 0 (-1) 0 fed app ∧
      (app.flushForIDR (intraNalu .codedSliceRasl 6)).decLib.readAndSkip
        (intraNalu .codedSliceRasl 6) app.iSkipFrame = .ok read ∧ read.skipped = true := by
  have computed : checkBehind leadingUnits (intraNalu .codedSliceRasl 6) =
      some (allSlices [craPicture] ++ List.replicate 1 raslPicture.object,
        some raslPicture.object, true) := by
    decide
  obtain ⟨app, read, run, isFed, check, -⟩ := exists_of_checkBehind leadingUnits
    (intraNalu .codedSliceRasl 6) (by decide) computed
  have uncounted : Unstarted ((allSlices (([craPicture] ++ raslPicture :: []).take 0)).drop 0) :=
    List.forall_mem_nil _
  have decided := skipped_eq_skipsPicture run rfl Nat.one_lt_two uncounted isFed check
  exact ⟨_, app, read, run, check, decided.1.trans (by decide)⟩

/-- A CRA picture of POC 8, an IDR picture, and another CRA picture. -/
def twoStartUnits : List (Option Nalu) :=
  [some (intraNalu .sps 0), some (intraNalu .ph 0), some (intraNalu .codedSliceCra 8),
    none, some (intraNalu .ph 0), some (intraNalu .codedSliceIdrNLp 0),
    none, some (intraNalu .ph 0), some (intraNalu .codedSliceCra 4),
    none, some (intraNalu .ph 0)]

/-- Behind an IDR picture a RASL picture is decoded, though it is in front of the POC of the
CRA picture that decoding has started with. -/
theorem rasl_decoded :
    ∃ app read, SequenceRun 0 (-1) 0 [⟨8, 0, .codedSliceCra⟩, ⟨0, 0, .codedSliceIdrNLp⟩,
        ⟨4, 0, .codedSliceCra⟩] app ∧
      fedSlice app (intraNalu .codedSliceRasl 2) = some ⟨2, 0, .codedSliceRasl⟩ ∧
      (app.flushForIDR (intraNalu .codedSliceRasl 2)).decLib.readAndSkip
        (intraNalu .codedSliceRasl 2) app.iSkipFrame = .ok read ∧ read.skipped = false :=
  exists_of_checkBehind twoStartUnits _ (by decide) (by decide)

end Vtm.LostPics
