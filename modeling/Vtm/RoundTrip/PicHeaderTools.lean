import Vtm.RoundTrip.PicHeaderParts

/-!
# Reading back the tools and filters of a picture header

The groups of fields behind the settings of inter prediction, in the terms of
`Vtm.RoundTrip.PicHeaderParts`. In 4:0:0 both sides differ on the chroma flags of the
loop filters.
-/

namespace Vtm.RoundTrip.PicHeader

open Vtm.Std Vtm.VLCWriter Vtm.VLCReader Vtm.PicHeaders VLC

section

variable {fifo : List UInt8} {locations : List Nat} {sps : HeaderSPS} {pps : HeaderPPS}

/-! ## Merge lists of single tools -/

/-- Merge lists that can be written, where `maxNumMergeCand` is the length of the merge list. -/
structure FitsToolLists (sps : HeaderSPS) (pps : HeaderPPS) (maxNumMergeCand : Nat)
    (lists : ToolLists) : Prop where
  merge : maxNumMergeCand < 2 ^ 32
  triangle : sps.useTriangle = true → 2 ≤ maxNumMergeCand →
    pps.ppsMaxNumMergeCandMinusMaxNumTriangleCandPlus1 = 0 →
      lists.maxNumTriangleCand ≤ maxNumMergeCand ∧
        maxNumMergeCand - lists.maxNumTriangleCand < 2 ^ 32 - 1
  trianglePPS : pps.ppsMaxNumMergeCandMinusMaxNumTriangleCandPlus1 < 2 ^ 32
  ibc : sps.ibcFlag = true → lists.maxNumIBCMergeCand ≤ IBC_MRG_MAX_NUM_CANDS

/-- The decoder has the merge lists of the tools of the sequence. -/
structure SameToolLists (sps : HeaderSPS) (written parsed : ToolLists) : Prop where
  triangle : sps.useTriangle = true → parsed.maxNumTriangleCand = written.maxNumTriangleCand
  ibc : sps.ibcFlag = true → parsed.maxNumIBCMergeCand = written.maxNumIBCMergeCand
  jointCbCr : parsed.jointCbCrSignFlag = written.jointCbCrSignFlag

/-- The triangle list is no longer than the merge list, or empty where no length is written. -/
def ReproducibleTriangle (sps : HeaderSPS) (pps : HeaderPPS) (maxNumMergeCand : Nat)
    (lists : ToolLists) : Prop :=
  sps.useTriangle = true →
    if 2 ≤ maxNumMergeCand then
      pps.ppsMaxNumMergeCandMinusMaxNumTriangleCandPlus1 ≤ maxNumMergeCand + 1
    else lists.maxNumTriangleCand = 0

/-- The triangle list has a length, and there is a candidate for intra block copy. -/
structure ReproducibleToolLists (sps : HeaderSPS) (pps : HeaderPPS) (maxNumMergeCand : Nat)
    (lists : ToolLists) : Prop where
  triangle : ReproducibleTriangle sps pps maxNumMergeCand lists
  ibc : sps.ibcFlag = true → 0 < lists.maxNumIBCMergeCand

theorem settles_maxNumTriangleCand {maxNumMergeCand : Nat} {lists : ToolLists}
    (fits : FitsToolLists sps pps maxNumMergeCand lists) :
    Settles outputView (inputView fifo locations)
      (codeMaxNumTriangleCand sps pps maxNumMergeCand lists.maxNumTriangleCand)
      (parseMaxNumTriangleCand sps pps maxNumMergeCand)
      (ReproducibleTriangle sps pps maxNumMergeCand lists)
      (fun written parsed => sps.useTriangle = true → parsed = written) := by
  have small := fits.merge
  have smallPPS := fits.trianglePPS
  unfold codeMaxNumTriangleCand parseMaxNumTriangleCand ReproducibleTriangle
  cases use : sps.useTriangle with
  | false => exact Codes.settles (Codes.pure (by simp))
  | true =>
      by_cases several : 2 ≤ maxNumMergeCand
      · simp only [Bool.true_and, ge_iff_le, several, decide_true, if_true, forall_const]
        by_cases own : pps.ppsMaxNumMergeCandMinusMaxNumTriangleCandPlus1 = 0
        · obtain ⟨most, word⟩ := fits.triangle use several own
          simp only [if_pos own]
          refine Settles.writerCheck (by omega) ?_
          refine Settles.after (codes_uvlc word) ?_
          rintro _ _ rfl
          refine (Settles.readerCheck (Codes.pure (by omega)).settled).congr ?_
          rw [and_true]
          omega
        · simp only [if_neg own, pure_bind]
          refine (Settles.readerCheck (Codes.settles (Codes.pure Iff.rfl))).congr ?_
          unfold word
          omega
      · simp only [Bool.true_and, ge_iff_le, several, decide_false, if_false, forall_const]
        exact Codes.settles (Codes.pure eq_comm)

theorem settles_maxNumIBCMergeCand {maxNumIBCMergeCand : Nat}
    (fits : sps.ibcFlag = true → maxNumIBCMergeCand ≤ IBC_MRG_MAX_NUM_CANDS) :
    Settles outputView (inputView fifo locations)
      (codeMaxNumIBCMergeCand sps maxNumIBCMergeCand) (parseMaxNumIBCMergeCand sps)
      (sps.ibcFlag = true → 0 < maxNumIBCMergeCand)
      (fun _ parsed => sps.ibcFlag = true → parsed = maxNumIBCMergeCand) := by
  unfold codeMaxNumIBCMergeCand parseMaxNumIBCMergeCand
  cases ibc : sps.ibcFlag with
  | false => exact Codes.settles (Codes.pure (by simp))
  | true =>
      have most : maxNumIBCMergeCand ≤ 6 := fits ibc
      simp only [IBC_MRG_MAX_NUM_CANDS, if_true, forall_const]
      refine Settles.writerCheck (by omega) ?_
      refine Settles.last (codes_uvlc (by omega)) ?_
      rintro _ _ rfl
      refine (Settles.readerCheck (Codes.pure (by omega)).settled).congr ?_
      rw [and_true]
      omega

theorem settles_toolLists {maxNumMergeCand : Nat} {lists : ToolLists}
    (fits : FitsToolLists sps pps maxNumMergeCand lists) :
    Settles outputView (inputView fifo locations)
      (codeToolLists sps pps maxNumMergeCand lists) (parseToolLists sps pps maxNumMergeCand)
      (ReproducibleToolLists sps pps maxNumMergeCand lists) (SameToolLists sps) := by
  have inOrder : ReproducibleToolLists sps pps maxNumMergeCand lists ↔
      ReproducibleTriangle sps pps maxNumMergeCand lists ∧
        (sps.ibcFlag = true → 0 < lists.maxNumIBCMergeCand) ∧ True :=
    ⟨fun all => ⟨all.triangle, all.ibc, trivial⟩, fun ⟨triangle, ibc, _⟩ => ⟨triangle, ibc⟩⟩
  unfold codeToolLists parseToolLists
  refine Settles.congr (Settles.bind (settles_maxNumTriangleCand fits) (Yields.trivial _)
    (fun written => ⟨written, fun _ => rfl⟩) ?_ ?_) inOrder
  · intro triangle parsedTriangle _ same
    refine Settles.bind (settles_maxNumIBCMergeCand fits.ibc) (Yields.trivial _)
      (fun _ => ⟨_, fun _ => rfl⟩) ?_ ?_
    · intro _ parsedIBC _ sameIBC
      refine Codes.settled ((codes_flagOr _ _ _).bind ?_)
      rintro _ _ ⟨rfl, _⟩
      exact Codes.pure ⟨same, sameIBC, rfl⟩
    · intro _ parsedIBC differs
      exact Refutes.bind fun _ _ => Refutes.pure fun all => differs all.ibc
  · intro triangle parsedTriangle differs
    exact Refutes.bind fun _ _ => Refutes.bind fun _ _ =>
      Refutes.pure fun all => differs all.triangle

/-! ## Sample adaptive offset -/

/-- The decoder has the flags of sample adaptive offset. -/
structure SameSao (sps : HeaderSPS) (written parsed : SaoFlags) : Prop where
  present : sps.saoEnabledFlag = true →
    parsed.saoEnabledPresentFlag = written.saoEnabledPresentFlag
  luma : parsed.saoEnabledFlagLuma = written.saoEnabledFlagLuma
  chroma : parsed.saoEnabledFlagChroma = written.saoEnabledFlagChroma

/-- Without chroma planes the flag of chroma is off and not inferred: the writer infers it to
be on, the reader to be off. -/
def ReproducibleSao (sps : HeaderSPS) (sao : SaoFlags) : Prop :=
  sps.saoEnabledFlag = true → sps.hasChroma = false →
    sao.saoEnabledPresentFlag = true ∧ sao.saoEnabledFlagChroma = false

theorem settles_saoFlags {sao old : SaoFlags} (fresh : old.saoEnabledFlagChroma = false) :
    Settles outputView (inputView fifo locations) (codeSaoFlags sps sao)
      (parseSaoFlags sps old) (ReproducibleSao sps sao) (SameSao sps) := by
  refine Codes.settles ?_
  unfold codeSaoFlags parseSaoFlags ReproducibleSao
  cases enabled : sps.saoEnabledFlag with
  | false => exact Codes.pure (iff_of_true ⟨by simp [enabled], rfl, rfl⟩ (by simp))
  | true =>
      refine (codes_bool _).bind ?_
      rintro _ _ rfl
      cases present : sao.saoEnabledPresentFlag with
      | false =>
          refine Codes.pure ⟨fun same _ mono => ?_, fun reproducible => ⟨fun _ => rfl, rfl, ?_⟩⟩
          · have on : sps.hasChroma = true := same.chroma
            rw [mono] at on
            cases on
          · show sps.hasChroma = true
            by_contra mono
            exact absurd (reproducible rfl (by simpa using mono)).1 (by simp)
      | true =>
          refine (codes_bool _).bind ?_
          rintro _ _ rfl
          cases chroma : sps.hasChroma with
          | true =>
              refine (codes_bool _).bind ?_
              rintro _ _ rfl
              exact Codes.pure (iff_of_true ⟨fun _ => present.symm, rfl, rfl⟩ (by simp))
          | false =>
              simp only [Bool.false_eq_true, if_false, pure_bind]
              refine Codes.pure ⟨fun same _ _ => ⟨trivial, ?_⟩, fun reproducible => ?_⟩
              · exact same.chroma.symm.trans fresh
              · refine ⟨fun _ => present.symm, rfl, ?_⟩
                exact fresh.trans (reproducible trivial trivial).2.symm

/-! ## Adaptive loop filter -/

/-- Whether the flags of the components are written. -/
def SignalsAlf (sps : HeaderSPS) (alf : AlfFlags) : Prop :=
  sps.alfEnabledFlag = true ∧ alf.alfEnabledPresentFlag = true

/-- Parameter set ids that can be written. -/
structure FitsAlf (sps : HeaderSPS) (alf : AlfFlags) : Prop where
  numAlfAps : SignalsAlf sps alf → alf.alfEnabledFlagY = true → alf.numAlfAps < 8
  alfApsId : SignalsAlf sps alf → alf.alfEnabledFlagY = true →
    ∀ i < alf.numAlfAps, alf.alfApsId.getD i 0 < 8
  alfChromaApsId : SignalsAlf sps alf → alf.alfEnabledFlagY = true →
    alf.alfEnabledFlagCb = true ∨ alf.alfEnabledFlagCr = true → alf.alfChromaApsId < 8

/-- The decoder has the flags of the adaptive loop filter, and the parameter sets of the
components that are on. -/
structure SameAlf (sps : HeaderSPS) (written parsed : AlfFlags) : Prop where
  present : sps.alfEnabledFlag = true →
    parsed.alfEnabledPresentFlag = written.alfEnabledPresentFlag
  luma : parsed.alfEnabledFlagY = written.alfEnabledFlagY
  cb : parsed.alfEnabledFlagCb = written.alfEnabledFlagCb
  cr : parsed.alfEnabledFlagCr = written.alfEnabledFlagCr
  numAlfAps : SignalsAlf sps written → written.alfEnabledFlagY = true →
    parsed.numAlfAps = written.numAlfAps
  alfApsId : SignalsAlf sps written → written.alfEnabledFlagY = true →
    ∀ i < written.numAlfAps, parsed.alfApsId.getD i 0 = written.alfApsId.getD i 0
  alfChromaApsId : SignalsAlf sps written → written.alfEnabledFlagY = true →
    written.alfEnabledFlagCb = true ∨ written.alfEnabledFlagCr = true →
      parsed.alfChromaApsId = written.alfChromaApsId

/-- Chroma is only on where luma is on and there are chroma planes. -/
def ReproducibleAlf (sps : HeaderSPS) (alf : AlfFlags) : Prop :=
  SignalsAlf sps alf → alf.alfEnabledFlagY = false ∨ sps.hasChroma = false →
    alf.alfEnabledFlagCb = false ∧ alf.alfEnabledFlagCr = false

/-- `pic_alf_chroma_idc`. -/
@[grind =] def alfChromaIdc (alf : AlfFlags) : Nat :=
  alf.alfEnabledFlagCb.toNat + alf.alfEnabledFlagCr.toNat * 2

theorem alfChromaIdc_eq_zero {alf : AlfFlags} :
    alfChromaIdc alf = 0 ↔ alf.alfEnabledFlagCb = false ∧ alf.alfEnabledFlagCr = false := by
  unfold alfChromaIdc
  cases alf.alfEnabledFlagCb <;> cases alf.alfEnabledFlagCr <;> decide

theorem alfChromaIdc_lt (alf : AlfFlags) : alfChromaIdc alf < 2 ^ 2 := by
  unfold alfChromaIdc
  cases alf.alfEnabledFlagCb <;> cases alf.alfEnabledFlagCr <;> decide

theorem alfChromaIdc_cb (alf : AlfFlags) :
    decide (alfChromaIdc alf % 2 ≠ 0) = alf.alfEnabledFlagCb := by
  unfold alfChromaIdc
  cases alf.alfEnabledFlagCb <;> cases alf.alfEnabledFlagCr <;> decide

theorem alfChromaIdc_cr (alf : AlfFlags) :
    decide (alfChromaIdc alf >>> 1 ≠ 0) = alf.alfEnabledFlagCr := by
  unfold alfChromaIdc
  cases alf.alfEnabledFlagCb <;> cases alf.alfEnabledFlagCr <;> decide

theorem codes_alfApsIds {alf : AlfFlags} (few : alf.numAlfAps < 8)
    (fits : ∀ i < alf.numAlfAps, alf.alfApsId.getD i 0 < 8) :
    Codes False outputView (inputView fifo locations) (codeAlfApsIds alf) parseAlfApsIds
      (fun _ apsId => apsId.length = alf.numAlfAps ∧
        ∀ i < alf.numAlfAps, apsId.getD i 0 = alf.alfApsId.getD i 0) := by
  unfold codeAlfApsIds parseAlfApsIds
  refine (codes_code (by decide) (by decide) (Or.inl few)).bind ?_
  rintro _ _ rfl
  rw [List.range_eq_range']
  refine (Codes.range' (fun k _ (apsId : List Nat) => apsId.length = k ∧
    ∀ i < k, apsId.getD i 0 = alf.alfApsId.getD i 0) ?_ ?_).weaken ?_
  · rintro k _ apsId _ inside ⟨rfl, before⟩
    refine Codes.readerMap _ (codes_code (by decide) (by decide)
      (Or.inl (fits apsId.length (by omega)))) ?_
    rintro _ _ rfl
    refine ⟨by simp, fun i below => ?_⟩
    by_cases last : i = apsId.length
    · simp [last]
    · rw [List.getD_eq_getElem?_getD, List.getElem?_append_left (by omega),
        ← List.getD_eq_getElem?_getD]
      exact before i (by omega)
  · exact ⟨rfl, fun i none => absurd none (Nat.not_lt_zero i)⟩
  · intro _ apsId all
    rwa [Nat.zero_add] at all

/-- The parameter set of chroma is written for a chroma filter. -/
theorem codes_alfChromaApsId {alf : AlfFlags} (old : Nat)
    (fits : alf.alfEnabledFlagCb = true ∨ alf.alfEnabledFlagCr = true → alf.alfChromaApsId < 8) :
    Codes False outputView (inputView fifo locations)
      (if alfChromaIdc alf ≠ 0 then xWriteCode alf.alfChromaApsId 3 else return ())
      (parseAlfChromaApsId (alfChromaIdc alf) old)
      (fun _ parsed => alf.alfEnabledFlagCb = true ∨ alf.alfEnabledFlagCr = true →
        parsed = alf.alfChromaApsId) := by
  have coded : alfChromaIdc alf ≠ 0 ↔
      alf.alfEnabledFlagCb = true ∨ alf.alfEnabledFlagCr = true := by
    rw [ne_eq, alfChromaIdc_eq_zero]
    cases alf.alfEnabledFlagCb <;> cases alf.alfEnabledFlagCr <;> simp
  unfold parseAlfChromaApsId
  by_cases chroma : alfChromaIdc alf ≠ 0
  · rw [if_pos chroma, if_pos chroma]
    refine (codes_code (by decide) (by decide) (Or.inl (fits (coded.mp chroma)))).weaken ?_
    exact fun _ _ same _ => same
  · rw [if_neg chroma, if_neg chroma]
    exact Codes.pure fun on => absurd (coded.mpr on) chroma

/-- The chroma part keeps in step unless chroma is on without chroma planes. -/
theorem codes_alfChroma {alf : AlfFlags} (old : Nat)
    (fits : alf.alfEnabledFlagCb = true ∨ alf.alfEnabledFlagCr = true → alf.alfChromaApsId < 8)
    (mono : sps.hasChroma = false → alfChromaIdc alf = 0) :
    Codes False outputView (inputView fifo locations) (codeAlfChroma sps alf)
      (do
        let idc ← parseAlfChromaIdc sps
        let apsId ← parseAlfChromaApsId idc old
        return (idc, apsId))
      (fun _ parsed => parsed.1 = alfChromaIdc alf ∧
        (alf.alfEnabledFlagCb = true ∨ alf.alfEnabledFlagCr = true →
          parsed.2 = alf.alfChromaApsId)) := by
  unfold codeAlfChroma parseAlfChromaIdc
  cases chroma : sps.hasChroma with
  | true =>
      refine (codes_code (by decide) (by decide) (Or.inl (alfChromaIdc_lt alf))).bind ?_
      rintro _ _ rfl
      exact Codes.readerMap (fun apsId => (alfChromaIdc alf, apsId))
        (codes_alfChromaApsId old fits) fun _ _ same => ⟨rfl, same⟩
  | false =>
      have absent : Accepts (inputView fifo locations) (pure 0 : BitReader Nat) []
          (alfChromaIdc alf) := by
        rw [mono chroma]
        exact Accepts.pure 0
      refine Codes.readerStep absent ?_
      exact Codes.readerMap (fun apsId => (alfChromaIdc alf, apsId))
        (codes_alfChromaApsId old fits) fun _ _ same => ⟨rfl, same⟩

/-- The components keep in step unless chroma is on without chroma planes. -/
theorem codes_alfComponents {alf : AlfFlags} (old : AlfFlags) (fits : FitsAlf sps alf)
    (signals : SignalsAlf sps alf) (reproducible : ReproducibleAlf sps alf)
    (present : old.alfEnabledPresentFlag = alf.alfEnabledPresentFlag) :
    Codes False outputView (inputView fifo locations) (codeAlfComponents sps alf)
      (parseAlfComponents sps old) (fun _ parsed => SameAlf sps alf parsed) := by
  unfold codeAlfComponents parseAlfComponents
  refine (codes_bool _).bind ?_
  rintro _ _ rfl
  cases luma : alf.alfEnabledFlagY with
  | false =>
      obtain ⟨cb, cr⟩ := reproducible signals (Or.inl luma)
      refine Codes.pure ⟨fun _ => present, luma.symm, cb.symm, cr.symm, ?_, ?_, ?_⟩ <;> simp [luma]
  | true =>
      have mono : sps.hasChroma = false → alfChromaIdc alf = 0 := fun mono =>
        alfChromaIdc_eq_zero.mpr (reproducible signals (Or.inr mono))
      refine (codes_alfApsIds (fits.numAlfAps signals luma) (fits.alfApsId signals luma)).bind ?_
      rintro _ apsId ⟨length, ids⟩
      have chroma : Codes False outputView (inputView fifo locations) _ _ _ :=
        codes_alfChroma old.alfChromaApsId (fits.alfChromaApsId signals luma) mono
      have whole : Codes False outputView (inputView fifo locations)
          (codeAlfChroma sps alf) _ (fun _ parsed => SameAlf sps alf parsed) :=
        chroma.readerMap (fun read => AlfFlags.mk old.alfEnabledPresentFlag true (read.1 % 2 ≠ 0)
          (read.1 >>> 1 ≠ 0) apsId.length apsId read.2) (by
            rintro _ ⟨idc, chromaApsId⟩ ⟨rfl, same⟩
            refine ⟨fun _ => present, luma.symm, ?_, ?_, fun _ _ => length, fun _ _ => ids,
              fun _ _ => same⟩
            · exact alfChromaIdc_cb alf
            · exact alfChromaIdc_cr alf)
      simpa only [bind_assoc, pure_bind] using whole

theorem writes_alfComponents {alf : AlfFlags} (fits : FitsAlf sps alf)
    (signals : SignalsAlf sps alf) : Writes outputView (codeAlfComponents sps alf) := by
  unfold codeAlfComponents
  have flag : Codes False outputView (inputView [] []) _ _ _ :=
    codes_bool alf.alfEnabledFlagY
  refine flag.writes.bind fun _ => ?_
  cases luma : alf.alfEnabledFlagY with
  | false => exact Writes.pure ()
  | true =>
      have ids : Codes False outputView (inputView [] []) _ _ _ :=
        codes_alfApsIds (fits.numAlfAps signals luma) (fits.alfApsId signals luma)
      refine ids.writes.bind fun _ => ?_
      have idc : Codes False outputView (inputView [] []) _ _ _ :=
        codes_code (by decide) (by decide) (Or.inl (alfChromaIdc_lt alf))
      have apsId : Codes False outputView (inputView [] []) _ _ _ :=
        codes_alfChromaApsId 0 (fits.alfChromaApsId signals luma)
      unfold codeAlfChroma
      cases sps.hasChroma with
      | true => exact idc.writes.bind fun _ => apsId.writes
      | false => exact apsId.writes

/-- Without chroma planes the reader never turns chroma on, and without luma neither. -/
theorem yields_alfComponents (old : AlfFlags) :
    Yields (parseAlfComponents sps old) (fun parsed =>
      parsed.alfEnabledFlagY = false ∨ sps.hasChroma = false →
        parsed.alfEnabledFlagCb = false ∧ parsed.alfEnabledFlagCr = false) := by
  unfold parseAlfComponents parseAlfChromaIdc
  refine (Yields.trivial _).bind fun luma _ => ?_
  cases luma with
  | false => exact Yields.pure fun _ => ⟨rfl, rfl⟩
  | true =>
      refine (Yields.trivial _).bind fun apsId _ => ?_
      cases chroma : sps.hasChroma with
      | true =>
          refine (Yields.trivial _).bind fun _ _ => (Yields.trivial _).bind fun _ _ => ?_
          exact Yields.pure (by simp)
      | false =>
          rw [if_neg (by decide), pure_bind]
          exact (Yields.trivial _).bind fun _ _ => Yields.pure fun _ => ⟨rfl, rfl⟩

theorem settles_alfFlags {alf old : AlfFlags} (fits : FitsAlf sps alf) :
    Settles outputView (inputView fifo locations) (codeAlfFlags sps alf)
      (parseAlfFlags sps old) (ReproducibleAlf sps alf) (SameAlf sps) := by
  unfold codeAlfFlags parseAlfFlags
  cases enabled : sps.alfEnabledFlag with
  | false =>
      refine Codes.settles (Codes.pure (iff_of_true ?_ fun signals => ?_))
      · refine ⟨by simp [enabled], rfl, rfl, rfl, ?_, ?_, ?_⟩ <;>
          exact fun signals => absurd (enabled.symm.trans signals.1) (by decide)
      · exact absurd (enabled.symm.trans signals.1) (by decide)
  | true =>
      refine Settles.after (codes_bool _) ?_
      rintro _ _ rfl
      cases present : alf.alfEnabledPresentFlag with
      | false =>
          refine Codes.settles (Codes.pure (iff_of_true ?_ fun signals => ?_))
          · refine ⟨fun _ => present.symm, rfl, rfl, rfl, ?_, ?_, ?_⟩ <;>
              exact fun signals => absurd (present.symm.trans signals.2) (by decide)
          · exact absurd (present.symm.trans signals.2) (by decide)
      | true =>
          have signals : SignalsAlf sps alf := ⟨enabled, present⟩
          by_cases reproducible : ReproducibleAlf sps alf
          · refine Settles.congr (Codes.settled (Codes.writerMap (fun _ => alf)
              (codes_alfComponents _ fits signals reproducible ?_) fun _ _ same => same))
              (iff_true_intro reproducible)
            exact present.symm
          · refine Settles.refuted reproducible ((writes_alfComponents fits signals).bind fun _ =>
              Writes.pure alf) ?_
            have written : Yields (codeAlfComponents sps alf >>= fun _ => pure alf)
                (fun written => written = alf) :=
              (Yields.trivial _).bind fun _ _ => Yields.pure rfl
            refine Refutes.of_yields written (yields_alfComponents _) ?_
            rintro _ parsed rfl off same
            refine reproducible fun _ => ?_
            rw [← same.luma, ← same.cb, ← same.cr]
            exact off

/-! ## Quantization tools -/

theorem codes_quantTools (tools : QuantTools) :
    Codes False outputView (inputView fifo locations) (codeQuantTools pps tools)
      (parseQuantTools pps) (fun written parsed => parsed = written) := by
  unfold codeQuantTools parseQuantTools
  refine (codes_flagOr _ _ _).bind ?_
  rintro _ _ ⟨rfl, _⟩
  refine (codes_flagOr _ _ _).bind ?_
  rintro _ _ ⟨rfl, _⟩
  exact Codes.pure rfl

/-! ## Deblocking filter -/

/-- Offsets that can be written. -/
structure FitsDeblocking (deblocking : Deblocking) : Prop where
  beta : -2 ^ 31 < deblocking.deblockingFilterBetaOffsetDiv2 ∧
    deblocking.deblockingFilterBetaOffsetDiv2 < 2 ^ 31
  tc : -2 ^ 31 < deblocking.deblockingFilterTcOffsetDiv2 ∧
    deblocking.deblockingFilterTcOffsetDiv2 < 2 ^ 31

/-- The decoder has the parameters of the deblocking filter; the offsets only count while it
is on. -/
structure SameDeblocking (pps : HeaderPPS) (written parsed : Deblocking) : Prop where
  present : pps.deblockingFilterControlPresentFlag = true →
    parsed.deblockingFilterOverridePresentFlag = written.deblockingFilterOverridePresentFlag
  override : pps.deblockingFilterControlPresentFlag = true →
    parsed.deblockingFilterOverrideFlag = written.deblockingFilterOverrideFlag
  disable : parsed.deblockingFilterDisable = written.deblockingFilterDisable
  beta : written.deblockingFilterDisable = false →
    parsed.deblockingFilterBetaOffsetDiv2 = written.deblockingFilterBetaOffsetDiv2
  tc : written.deblockingFilterDisable = false →
    parsed.deblockingFilterTcOffsetDiv2 = written.deblockingFilterTcOffsetDiv2

/-- The parameters of the header; no offset fails the checks of the reader. -/
theorem codes_deblockingParams {deblocking old : Deblocking} (fits : FitsDeblocking deblocking)
    (present : old.deblockingFilterOverridePresentFlag =
      deblocking.deblockingFilterOverridePresentFlag)
    (override : old.deblockingFilterOverrideFlag = deblocking.deblockingFilterOverrideFlag) :
    Codes False outputView (inputView fifo locations) (codeDeblockingParams deblocking)
      (parseDeblockingParams old) (fun _ parsed => SameDeblocking pps deblocking parsed) := by
  unfold codeDeblockingParams parseDeblockingParams
  refine (codes_bool _).bind ?_
  rintro _ _ rfl
  cases disable : deblocking.deblockingFilterDisable with
  | true =>
      refine Codes.pure ⟨fun _ => present, fun _ => override, disable.symm, ?_, ?_⟩ <;>
        simp [disable]
  | false =>
      refine (codes_svlc fits.beta.1 fits.beta.2).bind ?_
      rintro _ _ rfl
      refine Codes.readerStep (Accepts.check _ (by omega)) ?_
      refine (codes_svlc fits.tc.1 fits.tc.2).readerAfter ?_
      rintro _ _ rfl
      refine ⟨_, (Accepts.check _ (by omega)).bind (Accepts.pure _), ?_⟩
      exact ⟨fun _ => present, fun _ => override, disable.symm, fun _ => rfl, fun _ => rfl⟩

theorem codes_deblocking {deblocking : Deblocking} (old : Deblocking)
    (fits : FitsDeblocking deblocking) :
    Codes False outputView (inputView fifo locations) (codeDeblocking pps deblocking)
      (parseDeblocking pps old) (SameDeblocking pps) := by
  unfold codeDeblocking parseDeblocking
  cases control : pps.deblockingFilterControlPresentFlag with
  | false =>
      refine Codes.pure ⟨?_, ?_, rfl, fun _ => rfl, fun _ => rfl⟩ <;> simp [control]
  | true =>
      have flags : Codes False outputView (inputView fifo locations)
          (codeDeblockingOverride pps deblocking) (parseDeblockingOverride pps old)
          (fun written parsed =>
            parsed.deblockingFilterOverridePresentFlag =
              written.deblockingFilterOverridePresentFlag ∧
            parsed.deblockingFilterOverrideFlag = written.deblockingFilterOverrideFlag ∧
            FitsDeblocking written) := by
        unfold codeDeblockingOverride parseDeblockingOverride
        refine (codes_flagOr _ _ _).bind ?_
        rintro _ _ ⟨rfl, _⟩
        refine (codes_flagOr _ _ _).bind ?_
        rintro _ _ ⟨rfl, _⟩
        exact Codes.pure ⟨rfl, rfl, fits.beta, fits.tc⟩
      refine flags.bind ?_
      rintro written parsed ⟨present, override, fitsWritten⟩
      rw [override]
      cases set : written.deblockingFilterOverrideFlag with
      | false =>
          exact Codes.pure ⟨fun _ => present, fun _ => rfl, rfl, fun _ => rfl, fun _ => rfl⟩
      | true =>
          exact (codes_deblockingParams fitsWritten present override).writerMap (fun _ => written)
            fun _ _ same => same

/-! ## Parameters from other parameter sets -/

/-- The decoder has the settings of luma mapping where it is on. -/
structure SameLmcs (written parsed : Lmcs) : Prop where
  enabled : parsed.lmcsEnabledFlag = written.lmcsEnabledFlag
  apsId : written.lmcsEnabledFlag = true → parsed.lmcsApsId = written.lmcsApsId
  scale : written.lmcsEnabledFlag = true →
    parsed.lmcsChromaResidualScaleFlag = written.lmcsChromaResidualScaleFlag

theorem codes_lmcs {lmcs : Lmcs} (old : Lmcs)
    (fits : sps.useReshaper = true → lmcs.lmcsEnabledFlag = true →
      0 ≤ lmcs.lmcsApsId ∧ lmcs.lmcsApsId < 4) :
    Codes False outputView (inputView fifo locations) (codeLmcs sps lmcs)
      (parseLmcs sps old) SameLmcs := by
  unfold codeLmcs parseLmcs
  cases use : sps.useReshaper with
  | false => exact Codes.pure ⟨rfl, by simp, by simp⟩
  | true =>
      refine (codes_bool _).bind ?_
      rintro _ _ rfl
      cases enabled : lmcs.lmcsEnabledFlag with
      | false => exact Codes.pure ⟨enabled.symm, by simp [enabled], by simp [enabled]⟩
      | true =>
          obtain ⟨low, high⟩ := fits use enabled
          refine (codes_intCode (by decide) (by decide) low (by omega)).bind ?_
          rintro _ apsId same
          refine (codes_flagOr _ _ _).bind ?_
          rintro _ _ ⟨rfl, _⟩
          exact Codes.pure ⟨rfl, fun _ => same, fun _ => rfl⟩

/-- The decoder has the scaling lists where there are some. -/
structure SameScalingLists (written parsed : ScalingLists) : Prop where
  present : parsed.scalingListPresentFlag = written.scalingListPresentFlag
  apsId : written.scalingListPresentFlag = true → parsed.scalingListApsId = written.scalingListApsId

theorem codes_scalingLists {lists : ScalingLists} (old : ScalingLists)
    (fits : sps.scalingListFlag = true → lists.scalingListPresentFlag = true →
      0 ≤ lists.scalingListApsId ∧ lists.scalingListApsId < 8) :
    Codes False outputView (inputView fifo locations) (codeScalingLists sps lists)
      (parseScalingLists sps old) SameScalingLists := by
  unfold codeScalingLists parseScalingLists
  refine (codes_flagOr _ _ _).bind ?_
  rintro _ present ⟨rfl, value⟩
  cases set : present with
  | false => exact Codes.pure ⟨rfl, by simp⟩
  | true =>
      have coded : sps.scalingListFlag = true ∧ lists.scalingListPresentFlag = true := by
        by_cases flag : sps.scalingListFlag = true
        · rw [if_pos flag] at value
          exact ⟨flag, value.symm.trans set⟩
        · rw [if_neg flag] at value
          exact absurd (value.symm.trans set) (by decide)
      obtain ⟨low, high⟩ := fits coded.1 coded.2
      refine (codes_intCode (by decide) (by decide) low (by omega)).bind ?_
      rintro _ apsId same
      exact Codes.pure ⟨rfl, fun _ => same⟩

theorem codes_headerExtension :
    Codes False outputView (inputView fifo locations) (codeHeaderExtension pps)
      (parseHeaderExtension pps) (fun _ _ => True) := by
  unfold codeHeaderExtension parseHeaderExtension
  cases pps.pictureHeaderExtensionPresentFlag with
  | false => exact Codes.pure trivial
  | true =>
      refine (codes_uvlc (by decide)).readerAfter ?_
      rintro _ _ rfl
      exact ⟨(), Accepts.pure (), trivial⟩

end

end Vtm.RoundTrip.PicHeader
