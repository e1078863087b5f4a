import Vtm.RoundTrip.BitCount
import Vtm.RoundTrip.PicHeaderLists
import Vtm.RoundTrip.PicHeaderTools

/-!
# Reading back the picture header

The parts of `parsePictureHeader` put together: `codePictureHeader_round_trip_iff` says for
which headers the decoder ends with the values of the encoder.
-/

namespace Vtm.RoundTrip.PicHeader

open Vtm.Std Vtm.VLCWriter Vtm.VLCReader Vtm.RefPics Vtm.PicHeaders Vtm.RoundTrip.BitCount

/-- A header that can be written: it passes the checks of the writer and its fields fit their
syntax elements. -/
structure FitsHeader (sps : HeaderSPS) (pps : HeaderPPS) (picHeader : PicHeader) : Prop where
  ppsId : picHeader.ppsId < 2 ^ 32 - 1
  subPicIds : FitsSubPicIds sps pps picHeader.toSubPicIds
  boundaries : FitsBoundaries picHeader.toVirtualBoundaries
  colourPlane : sps.separateColourPlaneFlag = true → picHeader.colourPlaneId < 4
  lists : picHeader.picRplPresentFlag = true → FitsLists sps pps picHeader.toPicLists
  constraints : OverridesConstraints sps picHeader.toPartitionConstraints →
    FitsPartitionSizes sps picHeader.sizes
  subdiv : FitsQpSubdiv pps picHeader.toQpSubdiv
  interTools : FitsInterTools sps pps picHeader.toInterTools
  toolLists : FitsToolLists sps pps (writtenMaxNumMergeCand pps picHeader.maxNumMergeCand)
    picHeader.toToolLists
  alf : FitsAlf sps picHeader.toAlfFlags
  deblocking : FitsDeblocking picHeader.toDeblocking
  lmcs : sps.useReshaper = true → picHeader.lmcsEnabledFlag = true →
    0 ≤ picHeader.lmcsApsId ∧ picHeader.lmcsApsId < 4
  scalingLists : sps.scalingListFlag = true → picHeader.scalingListPresentFlag = true →
    0 ≤ picHeader.scalingListApsId ∧ picHeader.scalingListApsId < 8

/-- The decoder has the values of the encoder, as far as it reads them. -/
structure SameHeader (sps : HeaderSPS) (pps : HeaderPPS) (written parsed : PicHeader) : Prop where
  start : SameStart written.toPicStart parsed.toPicStart
  subPicIds : SameSubPicIds sps written.toSubPicIds parsed.toSubPicIds
  boundaries : SameBoundaries written.toVirtualBoundaries parsed.toVirtualBoundaries
  output : parsed.picOutputFlag = written.picOutputFlag
  lists : SamePicLists sps written.toPicLists parsed.toPicLists
  constraints : SameConstraints sps written.toPartitionConstraints parsed.toPartitionConstraints
  subdiv : parsed.toQpSubdiv = written.toQpSubdiv
  interTools : parsed.toInterTools = written.toInterTools
  toolLists : SameToolLists sps written.toToolLists parsed.toToolLists
  sao : SameSao sps written.toSaoFlags parsed.toSaoFlags
  alf : SameAlf sps written.toAlfFlags parsed.toAlfFlags
  quantTools : parsed.toQuantTools = written.toQuantTools
  deblocking : SameDeblocking pps written.toDeblocking parsed.toDeblocking
  lmcs : SameLmcs written.toLmcs parsed.toLmcs
  scalingLists : SameScalingLists written.toScalingLists parsed.toScalingLists

/-- What a header has to be like for the decoder to end with its values. -/
structure ReproducibleHeader (sps : HeaderSPS) (pps : HeaderPPS) (picHeader : PicHeader) :
    Prop where
  subPicIds : ReproducibleSubPicIds sps pps picHeader.toSubPicIds
  boundaries : ReproducibleBoundaries sps picHeader.toVirtualBoundaries
  colourPlane : sps.separateColourPlaneFlag = true → picHeader.colourPlaneId ≤ 2
  lists : ReproducibleLists sps pps picHeader.toPicLists
  constraints : OverridesConstraints sps picHeader.toPartitionConstraints →
    ReproduciblePartitionSizes sps picHeader.sizes
  interTools : ReproducibleInterTools pps picHeader.toInterTools
  toolLists : ReproducibleToolLists sps pps
    (writtenMaxNumMergeCand pps picHeader.maxNumMergeCand) picHeader.toToolLists
  sao : ReproducibleSao sps picHeader.toSaoFlags
  alf : ReproducibleAlf sps picHeader.toAlfFlags

section

variable {fifo : List UInt8} {locations : List Nat} {sps : HeaderSPS} {pps : HeaderPPS}

theorem SamePicLists.refl (lists : PicLists) : SamePicLists sps lists lists := by
  have entries : ∀ X (picList : PicList), SamePicList sps X picList picList := fun X picList =>
    ⟨rfl, rfl, rfl, fun _ _ => rfl, fun _ _ _ => rfl, fun _ _ _ => rfl,
      fun _ _ _ => ⟨rfl, fun _ => rfl⟩⟩
  exact ⟨rfl, fun _ => entries _ _, fun _ => entries _ _⟩

theorem SameAlf.refl (alf : AlfFlags) : SameAlf sps alf alf :=
  ⟨fun _ => rfl, rfl, rfl, rfl, fun _ _ => rfl, fun _ _ _ _ => rfl, fun _ _ _ => rfl⟩

/-- The parameter sets that the header refers to are found. -/
theorem accepts_lookup {sets : ParameterSets} {ppsId : Nat} (foundPPS : sets.getPPS ppsId = some pps)
    (foundSPS : sets.getSPS pps.spsId = some sps) :
    Accepts (VLC.inputView fifo locations) (lookupParameterSets sets ppsId) [] (sps, pps) := by
  unfold lookupParameterSets
  rw [foundPPS]
  dsimp only
  rw [foundSPS]
  exact Accepts.pure (sps, pps)

/-- The parts of the header in their order. -/
theorem reproducibleHeader_iff {picHeader : PicHeader} :
    ReproducibleHeader sps pps picHeader ↔
      ReproducibleSubPicIds sps pps picHeader.toSubPicIds ∧
      ReproducibleBoundaries sps picHeader.toVirtualBoundaries ∧
      (sps.separateColourPlaneFlag = true → picHeader.colourPlaneId ≤ 2) ∧
      ReproducibleLists sps pps picHeader.toPicLists ∧
      (OverridesConstraints sps picHeader.toPartitionConstraints →
        ReproduciblePartitionSizes sps picHeader.sizes) ∧
      ReproducibleInterTools pps picHeader.toInterTools ∧
      ReproducibleToolLists sps pps (writtenMaxNumMergeCand pps picHeader.maxNumMergeCand)
        picHeader.toToolLists ∧
      ReproducibleSao sps picHeader.toSaoFlags ∧
      ReproducibleAlf sps picHeader.toAlfFlags ∧ True :=
  ⟨fun all => ⟨all.subPicIds, all.boundaries, all.colourPlane, all.lists, all.constraints,
    all.interTools, all.toolLists, all.sao, all.alf, trivial⟩,
    fun ⟨subPicIds, boundaries, colourPlane, lists, constraints, interTools, toolLists, sao, alf, _⟩ =>
      ⟨subPicIds, boundaries, colourPlane, lists, constraints, interTools, toolLists, sao, alf⟩⟩

theorem settles_picHeader {picHeader : PicHeader} (fits : FitsHeader sps pps picHeader)
    {sets : ParameterSets} (foundPPS : sets.getPPS picHeader.ppsId = some pps)
    (foundSPS : sets.getSPS pps.spsId = some sps) (old : PicHeader) :
    Settles VLC.outputView (VLC.inputView fifo locations) (codePicHeaderElements sps pps picHeader)
      (parsePicHeaderElements sets old.initPicHeader) (ReproducibleHeader sps pps picHeader)
      (SameHeader sps pps) := by
  unfold codePicHeaderElements parsePicHeaderElements
  refine Settles.congr ?_ reproducibleHeader_iff
  refine Settles.after (codes_picStart fits.ppsId) ?_
  rintro start parsedStart ⟨sameStart, ppsId⟩
  rw [ppsId]
  refine Settles.readerStep (accepts_lookup foundPPS foundSPS) ?_
  -- a part that does not come back leaves its own fields different, whatever is read behind it
  refine Settles.bind (settles_subPicIds fits.subPicIds) (Yields.trivial _)
    (fun subPics => ⟨subPics, fun _ _ => rfl⟩) ?_ fun _ _ differs => ?_
  on_goal 2 =>
    iterate 14 refine Refutes.bind fun _ _ => ?_
    exact Refutes.pure fun same => differs same.subPicIds
  intro subPics parsedSubPics _ sameSubPics
  refine Settles.bind (settles_virtualBoundaries fits.boundaries) (Yields.trivial _)
    (fun bounds => ⟨bounds, SameBoundaries.refl bounds⟩) ?_ fun _ _ differs => ?_
  on_goal 2 =>
    iterate 13 refine Refutes.bind fun _ _ => ?_
    exact Refutes.pure fun same => differs same.boundaries
  intro bounds parsedBounds _ sameBounds
  refine Settles.bind (settles_picOutput fits.colourPlane) (Yields.trivial _)
    (fun output => ⟨output, rfl⟩) ?_ fun _ _ differs => ?_
  on_goal 2 =>
    iterate 12 refine Refutes.bind fun _ _ => ?_
    exact Refutes.pure fun same => differs same.output
  intro output parsedOutput _ sameOutput
  refine Settles.bind (settles_picLists fits.lists) (Yields.trivial _)
    (fun lists => ⟨lists, SamePicLists.refl lists⟩) ?_ fun _ _ differs => ?_
  on_goal 2 =>
    iterate 11 refine Refutes.bind fun _ _ => ?_
    exact Refutes.pure fun same => differs same.lists
  intro lists parsedLists _ sameLists
  refine Settles.bind (settles_partitionConstraints fits.constraints) (Yields.trivial _)
    (fun constraints => ⟨constraints, rfl, fun _ => ⟨rfl, rfl, fun _ => rfl⟩⟩) ?_
    fun _ _ differs => ?_
  on_goal 2 =>
    iterate 10 refine Refutes.bind fun _ _ => ?_
    exact Refutes.pure fun same => differs same.constraints
  intro constraints parsedConstraints _ sameConstraints
  refine Settles.after (codes_qpSubdiv fits.subdiv) ?_
  rintro subdiv _ rfl
  refine Settles.bind (settles_interTools fits.interTools) (yields_interTools _)
    (fun tools => ⟨tools, rfl⟩) ?_ fun _ _ differs => ?_
  on_goal 2 =>
    iterate 8 refine Refutes.bind fun _ _ => ?_
    exact Refutes.pure fun same => differs same.interTools
  rintro tools _ merge rfl
  rw [merge]
  refine Settles.bind (settles_toolLists fits.toolLists) (Yields.trivial _)
    (fun toolLists => ⟨toolLists, fun _ => rfl, fun _ => rfl, rfl⟩) ?_ fun _ _ differs => ?_
  on_goal 2 =>
    iterate 7 refine Refutes.bind fun _ _ => ?_
    exact Refutes.pure fun same => differs same.toolLists
  intro toolLists parsedToolLists _ sameToolLists
  refine Settles.bind (settles_saoFlags rfl) (Yields.trivial _)
    (fun sao => ⟨sao, fun _ => rfl, rfl, rfl⟩) ?_ fun _ _ differs => ?_
  on_goal 2 =>
    iterate 6 refine Refutes.bind fun _ _ => ?_
    exact Refutes.pure fun same => differs same.sao
  intro sao parsedSao _ sameSao
  refine Settles.bind (settles_alfFlags fits.alf) (Yields.trivial _)
    (fun alf => ⟨alf, SameAlf.refl alf⟩) ?_ fun _ _ differs => ?_
  on_goal 2 =>
    iterate 5 refine Refutes.bind fun _ _ => ?_
    exact Refutes.pure fun same => differs same.alf
  intro alf parsedAlf _ sameAlf
  refine Codes.settled ?_
  refine (codes_quantTools _).bind ?_
  rintro quant _ rfl
  refine (codes_deblocking _ fits.deblocking).bind fun deblocking parsedDeblocking sameDeblocking => ?_
  refine (codes_lmcs _ fits.lmcs).bind fun lmcs parsedLmcs sameLmcs => ?_
  refine (codes_scalingLists _ fits.scalingLists).bind fun scaling parsedScaling sameScaling => ?_
  refine codes_headerExtension.bind fun _ _ _ => ?_
  exact Codes.pure ⟨sameStart, sameSubPics, sameBounds, sameOutput, sameLists, sameConstraints, rfl,
    rfl, sameToolLists, sameSao, sameAlf, rfl, sameDeblocking, sameLmcs, sameScaling⟩

end

/-- `parsePictureHeader` reads exactly what `codePictureHeader` writes, from one byte boundary
to the next, and ends with the values of the encoder, whatever an earlier picture has left in
the object. -/
def RoundTrips (sps : HeaderSPS) (pps : HeaderPPS) (picHeader : PicHeader) : Prop :=
  ∀ before : OutputBitstream, before.WellFormed → before.numHeldBits = 0 →
    ∃ written after bits, codePictureHeader sps pps picHeader before = .ok (written, after) ∧
      after.bits = before.bits ++ bits ∧
      ∀ (sets : ParameterSets) (old : PicHeader) (s : InputBitstream) (rest : List Bool),
        sets.getPPS picHeader.ppsId = some pps → sets.getSPS pps.spsId = some sps →
        s.WellFormed → s.numHeldBits = 0 → s.remaining = bits ++ rest →
        ∃ parsed s', parsePictureHeader sets old.initPicHeader s = .ok (parsed, s') ∧
          s'.remaining = rest ∧ SameHeader sps pps written parsed

section

variable {sps : HeaderSPS} {pps : HeaderPPS} {picHeader : PicHeader}

/-- The parameter sets with these two only. -/
def onlySets (sps : HeaderSPS) (pps : HeaderPPS) : ParameterSets :=
  ⟨fun _ => some pps, fun _ => some sps⟩

/-- What the writer does, and what the reader does with it. -/
theorem codePictureHeader_run (fits : FitsHeader sps pps picHeader) {before : OutputBitstream}
    (wf : before.WellFormed) (start : before.numHeldBits = 0) :
    ∃ written after elements ending,
      codePictureHeader sps pps picHeader before = .ok (written, after) ∧ after.WellFormed ∧
      after.bits = before.bits ++ (elements ++ ending) ∧
      ∀ (sets : ParameterSets) (old : PicHeader) (s : InputBitstream) (rest : List Bool),
        sets.getPPS picHeader.ppsId = some pps → sets.getSPS pps.spsId = some sps →
        s.WellFormed → s.numHeldBits = 0 → s.remaining = elements ++ ending ++ rest →
        (ReproducibleHeader sps pps picHeader →
          ∃ parsed s', parsePictureHeader sets old.initPicHeader s = .ok (parsed, s') ∧
            s'.remaining = rest ∧ SameHeader sps pps written parsed) ∧
        (¬ ReproducibleHeader sps pps picHeader → ∀ parsed s',
          parsePictureHeader sets old.initPicHeader s = .ok (parsed, s') →
            ¬ SameHeader sps pps written parsed) := by
  have settles : ∀ (sets : ParameterSets) (old : PicHeader) (s : InputBitstream),
      sets.getPPS picHeader.ppsId = some pps → sets.getSPS pps.spsId = some sps →
      Settles VLC.outputView (VLC.inputView s.fifo s.emulationPreventionByteLocation) _ _ _ _ :=
    fun sets old s foundPPS foundSPS => settles_picHeader fits foundPPS foundSPS old
  obtain ⟨written, middle, elements, run, wf', whole, _⟩ :=
    settles (onlySets sps pps) picHeader (InputBitstream.ofFifo []) rfl rfl before wf
  obtain ⟨after, ending, trailing, wf₂, total, reads⟩ := VLC.trailing_written wf' start whole
  have writes : codePictureHeader sps pps picHeader before = .ok (written, after) :=
    (bind_run run).trans (bind_run trailing)
  refine ⟨written, after, elements, ending, writes, wf₂, total, ?_⟩
  intro sets old s rest foundPPS foundSPS ready begins next
  obtain ⟨_, _, elements', run', _, whole', accepts, refutes⟩ :=
    settles sets old s foundPPS foundSPS before wf
  rw [run] at run'
  cases run'
  obtain rfl : elements = elements' := List.append_cancel_left (whole.symm.trans whole')
  have next' : s.remaining = elements ++ (ending ++ rest) := next.trans (List.append_assoc ..)
  constructor
  · intro reproducible
    obtain ⟨parsed, same, accepted⟩ := accepts reproducible
    obtain ⟨t, parses, ⟨ready', _, _⟩, left⟩ :=
      accepted s (ending ++ rest) ⟨ready, rfl, rfl⟩ next'
    obtain ⟨s', ends, view⟩ := reads s t rest begins next ready' left
    exact ⟨parsed, s', (bind_run parses).trans (bind_run ends), view, same⟩
  · intro fails parsed s' parses
    obtain ⟨header, t, elementsRun, rest'⟩ := bind_run_ok_iff.mp parses
    obtain ⟨_, t', _, returned⟩ := bind_run_ok_iff.mp rest'
    cases returned
    exact refutes fails s (ending ++ rest) parsed t ⟨ready, rfl, rfl⟩ next' elementsRun

/-- A header that is read back is reproducible. -/
theorem reproducible_of_roundTrips (fits : FitsHeader sps pps picHeader)
    (roundTrips : RoundTrips sps pps picHeader) : ReproducibleHeader sps pps picHeader := by
  by_contra fails
  obtain ⟨written, after, elements, ending, run, wf, total, reads⟩ :=
    codePictureHeader_run fits OutputBitstream.wellFormed_empty rfl
  obtain ⟨written', after', bits, run', total', returns⟩ :=
    roundTrips OutputBitstream.empty OutputBitstream.wellFormed_empty rfl
  rw [run] at run'
  cases run'
  obtain rfl : bits = elements ++ ending := List.append_cancel_left (total'.symm.trans total)
  obtain ⟨s, rest, ready, begins, next⟩ := stream_of_bits wf
  have view : s.remaining = elements ++ ending ++ rest := by
    rw [next, total, OutputBitstream.bits_empty, List.nil_append]
  obtain ⟨parsed, s', parses, _, same⟩ :=
    returns (onlySets sps pps) picHeader s rest rfl rfl ready begins view
  exact (reads (onlySets sps pps) picHeader s rest rfl rfl ready begins view).2 fails parsed s'
    parses same

theorem roundTrips_of_reproducible (fits : FitsHeader sps pps picHeader)
    (reproducible : ReproducibleHeader sps pps picHeader) : RoundTrips sps pps picHeader := by
  intro before wf start
  obtain ⟨written, after, elements, ending, run, _, total, reads⟩ :=
    codePictureHeader_run fits wf start
  refine ⟨written, after, elements ++ ending, run, total, ?_⟩
  intro sets old s rest foundPPS foundSPS ready begins next
  exact (reads sets old s rest foundPPS foundSPS ready begins next).1 reproducible

end

/-- The picture header is read back exactly when it is reproducible. -/
theorem codePictureHeader_round_trip_iff (sps : HeaderSPS) (pps : HeaderPPS)
    (picHeader : PicHeader) (fits : FitsHeader sps pps picHeader) :
    RoundTrips sps pps picHeader ↔ ReproducibleHeader sps pps picHeader :=
  ⟨reproducible_of_roundTrips fits, roundTrips_of_reproducible fits⟩

/-! ## A loop filter for chroma -/

/-- A sequence with the adaptive loop filter and no other tool. -/
def filteredSPS (chromaFormatIdc : ChromaFormat) : HeaderSPS where
  useWP := false
  useWPBiPred := false
  bitsForPOC := 8
  longTermRefsPresent := false
  rpl1CopyFromRPL0Flag := false
  rplList0 := []
  rplList1 := []
  subPicIdPresentFlag := false
  subPicIdSignallingPresentFlag := false
  numSubPics := 0
  subPicId := fun _ => 0
  loopFilterAcrossVirtualBoundariesDisabledFlag := false
  numVerVirtualBoundaries := 0
  numHorVirtualBoundaries := 0
  virtualBoundariesPosX := fun _ => 0
  virtualBoundariesPosY := fun _ => 0
  separateColourPlaneFlag := false
  splitConsOverrideEnabledFlag := false
  log2MinCodingBlockSize := 2
  ctuSize := 128
  useDualITree := false
  sizes := ⟨.zero, .zero, .zero⟩
  spsTemporalMVPEnabledFlag := false
  useAffine := false
  sbtmvpEnabledFlag := false
  fpelMmvdEnabledFlag := false
  bdofControlPresentFlag := false
  dmvrControlPresentFlag := false
  profControlPresentFlag := false
  useTriangle := false
  ibcFlag := false
  jointCbCrEnabledFlag := false
  saoEnabledFlag := false
  chromaFormatIdc := chromaFormatIdc
  alfEnabledFlag := true
  useReshaper := false
  scalingListFlag := false

def filteredPPS : HeaderPPS where
  ppsRefPicListSPSIdc := fun _ => 0
  rpl1IdxPresentFlag := false
  spsId := 0
  numSubPics := 0
  subPicId := fun _ => 0
  outputFlagPresentFlag := false
  useDQP := false
  cuChromaQpOffsetEnabledFlag := false
  ppsMvdL1ZeroIdc := 0
  ppsSixMinusMaxNumMergeCandPlus1 := 0
  ppsMaxNumMergeCandMinusMaxNumTriangleCandPlus1 := 0
  ppsDepQuantEnabledIdc := 0
  deblockingFilterControlPresentFlag := false
  deblockingFilterOverrideEnabledFlag := false
  ppsDeblockingFilterDisabledFlag := false
  deblockingFilterBetaOffsetDiv2 := 0
  deblockingFilterTcOffsetDiv2 := 0
  pictureHeaderExtensionPresentFlag := false

/-- A header with the filter on for luma and Cb. -/
def filteredHeader : PicHeader :=
  let fresh : PicHeader := PicHeader.initPicHeader
    ⟨⟨false, false, false, 0, 0⟩, ⟨false, 0, fun _ => 0⟩, ⟨false, 0, 0, fun _ => 0, fun _ => 0⟩,
      ⟨0, false⟩, ⟨false, ⟨0, ⟨.localRPL, .empty, fun _ => none⟩⟩,
        ⟨0, ⟨.localRPL, .empty, fun _ => none⟩⟩⟩, ⟨false, ⟨.zero, .zero, .zero⟩⟩, ⟨0, 0, 0, 0⟩,
      ⟨false, false, 0, 0, false, false, false, false⟩, ⟨0, 0, false⟩, ⟨false, false, false⟩,
      ⟨false, false, false, false, 0, [], 0⟩, ⟨false, false⟩, ⟨false, false, false, 0, 0⟩,
      ⟨false, 0, false⟩, ⟨false, 0⟩⟩
  { fresh with
    ppsId := 0
    alfEnabledPresentFlag := true
    alfEnabledFlagY := true
    alfEnabledFlagCb := true
    numAlfAps := 1
    alfApsId := [7]
    alfChromaApsId := 7 }

theorem fits_filteredHeader (chromaFormatIdc : ChromaFormat) :
    FitsHeader (filteredSPS chromaFormatIdc) filteredPPS filteredHeader where
  ppsId := by decide
  subPicIds := ⟨Nat.zero_le _, Nat.zero_le _, nofun, nofun⟩
  boundaries := ⟨by decide, by decide, by decide, by decide⟩
  colourPlane := nofun
  lists := nofun
  constraints := fun overrides => nomatch overrides.1
  subdiv := ⟨nofun, nofun, nofun, nofun⟩
  interTools := ⟨by decide, by decide, nofun⟩
  toolLists := ⟨by decide, nofun, by decide, nofun⟩
  alf := ⟨fun _ _ => by decide, fun _ _ => by decide, fun _ _ _ => by decide⟩
  deblocking := ⟨by decide, by decide⟩
  lmcs := nofun
  scalingLists := nofun

/-- With chroma planes the header comes back. -/
theorem filteredHeader_round_trips : RoundTrips (filteredSPS .CHROMA_420) filteredPPS filteredHeader :=
  (codePictureHeader_round_trip_iff (filteredSPS .CHROMA_420) filteredPPS filteredHeader
    (fits_filteredHeader .CHROMA_420)).mpr
    { subPicIds := ⟨nofun, nofun⟩
      boundaries := nofun
      colourPlane := nofun
      lists := ⟨nofun, nofun⟩
      constraints := fun overrides => nomatch overrides.1
      interTools := Nat.zero_lt_succ 5
      toolLists := ⟨nofun, nofun⟩
      sao := nofun
      alf := fun _ off => absurd off (by decide) }

/-- In 4:0:0 the parameter set of chroma is written and not read. -/
theorem filteredHeader_lost_400 :
    FitsHeader (filteredSPS .CHROMA_400) filteredPPS filteredHeader ∧
      ¬ RoundTrips (filteredSPS .CHROMA_400) filteredPPS filteredHeader := by
  refine ⟨fits_filteredHeader .CHROMA_400, fun roundTrips => ?_⟩
  have reproducible := reproducible_of_roundTrips (fits_filteredHeader .CHROMA_400) roundTrips
  exact absurd (reproducible.alf ⟨rfl, rfl⟩ (Or.inr rfl)).1 (by decide)

end Vtm.RoundTrip.PicHeader
