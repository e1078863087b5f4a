import Vtm.RoundTrip.BitCount
import Vtm.Encoder.HRD
import Vtm.Decoder.HRD

/-!
# Reading back the hypothetical reference decoder parameters

The writer decides from the stored flags of a sub-layer which syntax elements it
writes. The reader decides from the flags it has read or inferred. Where the two
agree, the reader follows the writer bit for bit. Where they do not, the reader is
refuted by counting: to return the values that were written it would have to take
more bits than were written.
-/

namespace Vtm.HRD

open Vtm.Std Vtm.VLCWriter Vtm.VLCReader Vtm.RoundTrip.VLC Vtm.RoundTrip.BitCount

/-- The values of one coded picture buffer. -/
def HrdSubLayerInfo.cpb (info : HrdSubLayerInfo) (j nalOrVcl : Nat) : Nat × Nat × Bool :=
  (info.bitRateValueMinus1 j nalOrVcl, info.cpbSizeValue j nalOrVcl, info.cbrFlag j nalOrVcl)

/-- The values of a sub-layer in front of its tables. -/
def HrdSubLayerInfo.head (info : HrdSubLayerInfo) : Bool × Bool × Nat × Bool × Nat :=
  (info.fixedPicRateFlag, info.fixedPicRateWithinCvsFlag, info.picDurationInTcMinus1,
    info.lowDelayHrdFlag, info.cpbCntMinus1)

/-- The writer's `fixedPixRateWithinCvsFlag`. -/
def HrdSubLayerInfo.within (info : HrdSubLayerInfo) : Bool :=
  info.fixedPicRateFlag || info.fixedPicRateWithinCvsFlag

/-- The signalled fields of a sub-layer are the same. -/
structure SameLayer (present : Nat → Bool) (info parsed : HrdSubLayerInfo) : Prop where
  fixedPicRate : parsed.fixedPicRateFlag = info.fixedPicRateFlag
  withinCvs : info.fixedPicRateFlag = false →
    parsed.fixedPicRateWithinCvsFlag = info.fixedPicRateWithinCvsFlag
  duration : info.within = true → parsed.picDurationInTcMinus1 = info.picDurationInTcMinus1
  lowDelay : info.within = false → parsed.lowDelayHrdFlag = info.lowDelayHrdFlag
  cpbCnt : info.lowDelayHrdFlag = false → parsed.cpbCntMinus1 = info.cpbCntMinus1
  cpbs : ∀ j nalOrVcl, present nalOrVcl = true → j ≤ info.cpbCntMinus1 →
    parsed.cpb j nalOrVcl = info.cpb j nalOrVcl

/-- The signalled fields are the same, of the parameters and of every coded sub-layer. -/
structure Same (hrd : HRDParameters) (firstSubLayer maxNumSubLayersMinus1 : Nat)
    (parsed : HRDParameters) : Prop where
  nal : parsed.nalHrdParametersPresentFlag = hrd.nalHrdParametersPresentFlag
  vcl : parsed.vclHrdParametersPresentFlag = hrd.vclHrdParametersPresentFlag
  decodingUnit : parsed.generalDecodingUnitHrdParamsPresentFlag =
    hrd.generalDecodingUnitHrdParamsPresentFlag
  tickDivisor : hrd.generalDecodingUnitHrdParamsPresentFlag = true →
    parsed.tickDivisorMinus2 = hrd.tickDivisorMinus2
  bitRateScale : parsed.bitRateScale = hrd.bitRateScale
  cpbSizeScale : parsed.cpbSizeScale = hrd.cpbSizeScale
  cpbSizeDuScale : hrd.generalDecodingUnitHrdParamsPresentFlag = true →
    parsed.cpbSizeDuScale = hrd.cpbSizeDuScale
  layers : ∀ i, firstSubLayer ≤ i → i ≤ maxNumSubLayersMinus1 →
    SameLayer hrd.present (hrd.m_HRD i) (parsed.m_HRD i)

/-- The written values of a sub-layer have code words. -/
structure LayerFits (present : Nat → Bool) (info : HrdSubLayerInfo) : Prop where
  duration : info.within = true → info.picDurationInTcMinus1 < 2 ^ 32 - 1
  cpbCnt : info.cpbCntMinus1 < MAX_CPB_CNT
  bitRate : ∀ j nalOrVcl, present nalOrVcl = true → j ≤ info.cpbCntMinus1 →
    info.bitRateValueMinus1 j nalOrVcl < 2 ^ 32 - 1
  cpbSize : ∀ j nalOrVcl, present nalOrVcl = true → j ≤ info.cpbCntMinus1 →
    info.cpbSizeValue j nalOrVcl < 2 ^ 32 - 1

/-- The written values fit the widths of their codes. -/
structure Fits (hrd : HRDParameters) (firstSubLayer maxNumSubLayersMinus1 : Nat) : Prop where
  tickDivisor : hrd.generalDecodingUnitHrdParamsPresentFlag = true →
    hrd.tickDivisorMinus2 < 2 ^ 8
  bitRateScale : hrd.bitRateScale < 2 ^ 4
  cpbSizeScale : hrd.cpbSizeScale < 2 ^ 4
  cpbSizeDuScale : hrd.generalDecodingUnitHrdParamsPresentFlag = true →
    hrd.cpbSizeDuScale < 2 ^ 4
  layers : ∀ i, firstSubLayer ≤ i → i ≤ maxNumSubLayersMinus1 →
    LayerFits hrd.present (hrd.m_HRD i)

/-- A stored low delay flag agrees with what the reader infers: it is written, and
so is no coded picture buffer behind the first. -/
def LayerOk (present : Nat → Bool) (info : HrdSubLayerInfo) : Prop :=
  info.lowDelayHrdFlag = true → info.within = false ∧
    (info.cpbCntMinus1 = 0 ∨ ∀ nalOrVcl, present nalOrVcl = false)

/-! ## One coded picture buffer -/

/-- Set the values of one coded picture buffer. -/
def HrdSubLayerInfo.setCpb (info : HrdSubLayerInfo) (j nalOrVcl : Nat)
    (values : Nat × Nat × Bool) : HrdSubLayerInfo :=
  { info with
    bitRateValueMinus1 := setEntry info.bitRateValueMinus1 j nalOrVcl values.1
    cpbSizeValue := setEntry info.cpbSizeValue j nalOrVcl values.2.1
    cbrFlag := setEntry info.cbrFlag j nalOrVcl values.2.2 }

@[simp] theorem head_setCpb (info : HrdSubLayerInfo) (j nalOrVcl : Nat)
    (values : Nat × Nat × Bool) : (info.setCpb j nalOrVcl values).head = info.head := rfl

theorem cpb_setCpb (info : HrdSubLayerInfo) (j nalOrVcl : Nat) (values : Nat × Nat × Bool)
    (j' nalOrVcl' : Nat) :
    (info.setCpb j nalOrVcl values).cpb j' nalOrVcl' =
      if j' = j ∧ nalOrVcl' = nalOrVcl then values else info.cpb j' nalOrVcl' := by
  simp only [HrdSubLayerInfo.cpb, HrdSubLayerInfo.setCpb, setEntry]
  split <;> rfl

section Codes

variable {fifo : List UInt8} {locations : List Nat}

theorem codes_cpb {present : Nat → Bool} {info : HrdSubLayerInfo} (fits : LayerFits present info)
    {nalOrVcl j : Nat} (coded : present nalOrVcl = true) (upTo : j ≤ info.cpbCntMinus1)
    (old : HrdSubLayerInfo) :
    Codes False outputView (inputView fifo locations) (codeCpb info nalOrVcl j)
      (parseCpb nalOrVcl old j)
      (fun _ parsed => parsed = old.setCpb j nalOrVcl (info.cpb j nalOrVcl)) := by
  refine (codes_uvlc (fits.bitRate j nalOrVcl coded upTo)).bind ?_
  rintro _ _ rfl
  refine (codes_uvlc (fits.cpbSize j nalOrVcl coded upTo)).bind ?_
  rintro _ _ rfl
  refine Codes.readerMap _ (codes_bool _) ?_
  rintro _ _ rfl
  rfl

/-- The loop over `j`: the entries up to the count are replaced, nothing else is. -/
theorem codes_cpbs {present : Nat → Bool} {info : HrdSubLayerInfo}
    (fits : LayerFits present info) (nalOrVcl : Nat) {old : HrdSubLayerInfo} (counts : old.cpbCntMinus1 = info.cpbCntMinus1) :
    Codes False outputView (inputView fifo locations) (codeCpbs present info nalOrVcl)
      (parseCpbs present old nalOrVcl)
      (fun _ parsed => parsed.head = old.head ∧
        (∀ j nalOrVcl', nalOrVcl' ≠ nalOrVcl → parsed.cpb j nalOrVcl' = old.cpb j nalOrVcl') ∧
        (present nalOrVcl = true → ∀ j ≤ info.cpbCntMinus1,
          parsed.cpb j nalOrVcl = info.cpb j nalOrVcl)) := by
  unfold codeCpbs parseCpbs
  by_cases coded : present nalOrVcl = true
  · rw [if_pos coded, if_pos coded, counts]
    refine (Codes.range' (fun i _ parsed => parsed.head = old.head ∧
      (∀ j nalOrVcl', nalOrVcl' ≠ nalOrVcl → parsed.cpb j nalOrVcl' = old.cpb j nalOrVcl') ∧
      ∀ j < i, parsed.cpb j nalOrVcl = info.cpb j nalOrVcl) ?_
      (by exact ⟨rfl, fun _ _ _ => rfl, by omega⟩)).weaken ?_
    · rintro i _ parsed _ below ⟨head, others, before⟩
      refine (codes_cpb fits coded (by omega) parsed).weaken ?_
      rintro _ _ rfl
      refine ⟨by rw [head_setCpb, head], ?_, ?_⟩
      · intro j nalOrVcl' other
        rw [cpb_setCpb, if_neg (fun same => other same.2), others j nalOrVcl' other]
      · intro j below
        rw [cpb_setCpb]
        by_cases last : j = i
        · rw [if_pos ⟨last, rfl⟩, last]
        · rw [if_neg (fun same => last same.1), before j (by omega)]
    · rintro _ parsed ⟨head, others, entries⟩
      exact ⟨head, others, fun _ j upTo => entries j (by omega)⟩
  · rw [if_neg coded, if_neg coded]
    exact Codes.pure ⟨rfl, fun _ _ _ => rfl, fun yes => absurd yes coded⟩

/-- Both tables of a sub-layer, behind a count both sides agree on. -/
theorem codes_tables {present : Nat → Bool} {info : HrdSubLayerInfo}
    (fits : LayerFits present info)
    (known : ∀ nalOrVcl, present nalOrVcl = true → nalOrVcl = 0 ∨ nalOrVcl = 1)
    {old : HrdSubLayerInfo} (counts : old.cpbCntMinus1 = info.cpbCntMinus1) :
    Codes False outputView (inputView fifo locations)
      (do
        codeCpbs present info 0
        codeCpbs present info 1)
      (do
        let info ← parseCpbs present old 0
        parseCpbs present info 1)
      (fun _ parsed => parsed.head = old.head ∧
        ∀ j nalOrVcl, present nalOrVcl = true → j ≤ info.cpbCntMinus1 →
          parsed.cpb j nalOrVcl = info.cpb j nalOrVcl) := by
  refine (codes_cpbs fits 0 counts).bind ?_
  rintro _ middle ⟨head, _, entries⟩
  have counts' : middle.cpbCntMinus1 = info.cpbCntMinus1 := by
    simp only [HrdSubLayerInfo.head, Prod.mk.injEq] at head
    rw [head.2.2.2.2, counts]
  refine (codes_cpbs fits 1 counts').weaken ?_
  rintro _ parsed ⟨head', others, entries'⟩
  refine ⟨head'.trans head, fun j nalOrVcl coded upTo => ?_⟩
  rcases known nalOrVcl coded with rfl | rfl
  · rw [others j 0 (by decide)]
    exact entries coded j upTo
  · exact entries' coded j upTo

/-- Tables that are not coded take no bits. -/
theorem codes_no_tables {present : Nat → Bool} (none : ∀ nalOrVcl, present nalOrVcl = false)
    (info old : HrdSubLayerInfo) :
    Codes False outputView (inputView fifo locations)
      (do
        codeCpbs present info 0
        codeCpbs present info 1)
      (do
        let info ← parseCpbs present old 0
        parseCpbs present info 1)
      (fun _ parsed => parsed = old) := by
  simp only [codeCpbs, parseCpbs, none, Bool.false_eq_true, if_false]
  exact Codes.pure rfl

/-- The rate flag within the sequence: both sides infer it from the first flag. -/
theorem codes_withinCvs (info : HrdSubLayerInfo) {old : HrdSubLayerInfo}
    (fixed : old.fixedPicRateFlag = info.fixedPicRateFlag) :
    Codes False outputView (inputView fifo locations) (codeWithinCvs info) (parseWithinCvs old)
      (fun within parsed => within = info.within ∧
        parsed = { old with fixedPicRateWithinCvsFlag := info.within }) := by
  unfold codeWithinCvs parseWithinCvs HrdSubLayerInfo.within
  rw [fixed]
  cases info.fixedPicRateFlag with
  | true => exact Codes.pure ⟨rfl, rfl⟩
  | false =>
      refine (codes_bool _).bind ?_
      rintro _ _ rfl
      exact Codes.pure ⟨rfl, rfl⟩

/-- Where a low delay flag is stored only if it is written, the reader knows it. -/
theorem codes_duration {present : Nat → Bool} {info : HrdSubLayerInfo}
    (fits : LayerFits present info)
    (written : info.lowDelayHrdFlag = true → info.within = false) {old : HrdSubLayerInfo}
    (within : old.fixedPicRateWithinCvsFlag = info.within)
    (inferred : old.lowDelayHrdFlag = false) :
    Codes False outputView (inputView fifo locations) (codeDuration info info.within)
      (parseDuration old)
      (fun _ parsed => parsed.fixedPicRateFlag = old.fixedPicRateFlag ∧
        parsed.fixedPicRateWithinCvsFlag = info.within ∧
        (info.within = true → parsed.picDurationInTcMinus1 = info.picDurationInTcMinus1) ∧
        parsed.lowDelayHrdFlag = info.lowDelayHrdFlag ∧
        parsed.cpbCntMinus1 = old.cpbCntMinus1) := by
  unfold codeDuration parseDuration
  rw [within]
  by_cases coded : info.within = true
  · have plain : info.lowDelayHrdFlag = false := by
      by_contra low
      rw [written (by simpa using low)] at coded
      cases coded
    rw [if_pos coded, if_pos coded]
    refine Codes.readerMap _ (codes_uvlc (fits.duration coded)) ?_
    rintro _ _ rfl
    exact ⟨rfl, rfl, fun _ => rfl, inferred.trans plain.symm, rfl⟩
  · rw [if_neg coded, if_neg coded]
    refine Codes.readerMap _ (codes_bool _) ?_
    rintro _ _ rfl
    exact ⟨rfl, rfl, fun yes => absurd yes coded, rfl, rfl⟩

/-- The count is coded unless the low delay flag is set. -/
theorem codes_cpbCnt {present : Nat → Bool} {info : HrdSubLayerInfo}
    (fits : LayerFits present info) {old : HrdSubLayerInfo}
    (low : old.lowDelayHrdFlag = info.lowDelayHrdFlag) :
    Codes False outputView (inputView fifo locations) (codeCpbCnt info) (parseCpbCnt old)
      (fun _ parsed => parsed = { old with
        cpbCntMinus1 :=
          if info.lowDelayHrdFlag then old.cpbCntMinus1 else info.cpbCntMinus1 }) := by
  unfold codeCpbCnt parseCpbCnt
  cases lowDelay : info.lowDelayHrdFlag with
  | true =>
      have skipped : ¬ (!old.lowDelayHrdFlag) = true := by rw [low, lowDelay]; decide
      rw [if_neg (by decide), if_neg skipped]
      exact Codes.pure rfl
  | false =>
      have coded : (!old.lowDelayHrdFlag) = true := by rw [low, lowDelay]; rfl
      have word : info.cpbCntMinus1 < 2 ^ 32 - 1 :=
        Nat.lt_trans fits.cpbCnt (by decide : MAX_CPB_CNT < 2 ^ 32 - 1)
      rw [if_pos (by rfl), if_pos coded]
      refine Codes.readerMap _ (codes_uvlc word) ?_
      rintro _ _ rfl
      rfl

/-- A sub-layer whose low delay flag agrees with what the reader infers. -/
theorem codes_subLayer {present : Nat → Bool} {info : HrdSubLayerInfo}
    (fits : LayerFits present info)
    (known : ∀ nalOrVcl, present nalOrVcl = true → nalOrVcl = 0 ∨ nalOrVcl = 1)
    (ok : LayerOk present info) (old : HrdSubLayerInfo) :
    Codes False outputView (inputView fifo locations) (codeSubLayer present info)
      (parseSubLayer present old) (fun _ parsed => SameLayer present info parsed) := by
  refine (codes_bool _).bind ?_
  rintro _ _ rfl
  refine Codes.bind (codes_withinCvs info rfl) ?_
  rintro _ _ ⟨rfl, rfl⟩
  refine Codes.bind (codes_duration fits (fun low => (ok low).1) rfl rfl) ?_
  rintro _ middle ⟨fixed, within, duration, low, none⟩
  refine Codes.bind (codes_cpbCnt fits low) ?_
  rintro _ _ rfl
  have withinCvs : info.fixedPicRateFlag = false →
      middle.fixedPicRateWithinCvsFlag = info.fixedPicRateWithinCvsFlag := by
    intro free
    rw [within, HrdSubLayerInfo.within, free, Bool.false_or]
  have counted : info.lowDelayHrdFlag = false →
      (if info.lowDelayHrdFlag then middle.cpbCntMinus1 else info.cpbCntMinus1) =
        info.cpbCntMinus1 := by
    intro plain
    rw [plain]
    rfl
  by_cases uncoded : ∀ nalOrVcl, present nalOrVcl = false
  · refine (codes_no_tables uncoded info _).weaken ?_
    rintro _ _ rfl
    refine ⟨fixed, withinCvs, duration, fun _ => low, counted, fun j nalOrVcl coded => ?_⟩
    rw [uncoded] at coded
    cases coded
  · have counts : (if info.lowDelayHrdFlag then middle.cpbCntMinus1 else info.cpbCntMinus1) =
        info.cpbCntMinus1 := by
      cases lowDelay : info.lowDelayHrdFlag with
      | false => rfl
      | true => exact none.trans ((ok lowDelay).2.resolve_right uncoded).symm
    refine (codes_tables fits known counts).weaken ?_
    rintro _ parsed ⟨head, entries⟩
    simp only [HrdSubLayerInfo.head, Prod.mk.injEq] at head
    obtain ⟨head₁, head₂, head₃, head₄, head₅⟩ := head
    exact ⟨head₁.trans fixed, fun free => head₂.trans (withinCvs free),
      fun yes => head₃.trans (duration yes), fun _ => head₄.trans low,
      fun plain => head₅.trans (counted plain), entries⟩

/-- A value that is coded with the decoding unit parameters only. -/
theorem codes_decodingUnit (hrd : HRDParameters) {old : HRDParameters} {value kept length : Nat}
    (positive : 0 < length) (width : length ≤ 32)
    (fits : hrd.generalDecodingUnitHrdParamsPresentFlag = true → value < 2 ^ length)
    (flags : old.generalDecodingUnitHrdParamsPresentFlag =
      hrd.generalDecodingUnitHrdParamsPresentFlag) :
    Codes False outputView (inputView fifo locations) (codeDecodingUnit hrd value length)
      (parseDecodingUnit old kept length)
      (fun _ parsed => parsed =
        if hrd.generalDecodingUnitHrdParamsPresentFlag then value else kept) := by
  unfold codeDecodingUnit parseDecodingUnit
  rw [flags]
  split
  next coded => exact codes_code positive width (Or.inl (fits coded))
  next => exact Codes.pure rfl

end Codes

/-! ## All sub-layers -/

/-- The values in front of the sub-layers. -/
@[grind =] def HRDParameters.header (hrd : HRDParameters) :
    Bool × Bool × Bool × Nat × Nat × Nat × Nat :=
  (hrd.nalHrdParametersPresentFlag, hrd.vclHrdParametersPresentFlag,
    hrd.generalDecodingUnitHrdParamsPresentFlag, hrd.tickDivisorMinus2, hrd.bitRateScale,
    hrd.cpbSizeScale, hrd.cpbSizeDuScale)

theorem present_of_header {hrd other : HRDParameters} (same : other.header = hrd.header) :
    other.present = hrd.present := by
  simp only [HRDParameters.header, Prod.mk.injEq] at same
  funext nalOrVcl
  rw [HRDParameters.present, same.1, same.2.1, HRDParameters.present]

theorem present_known (hrd : HRDParameters) (nalOrVcl : Nat)
    (coded : hrd.present nalOrVcl = true) : nalOrVcl = 0 ∨ nalOrVcl = 1 := by
  simp only [HRDParameters.present, Bool.or_eq_true, Bool.and_eq_true, beq_iff_eq] at coded
  omega

/-- The copy at the end leaves the coded sub-layers alone. -/
theorem copySubLayers_spec (hrd : HRDParameters) (firstSubLayer maxNumSubLayersMinus1 : Nat) :
    (copySubLayers hrd firstSubLayer maxNumSubLayersMinus1).header = hrd.header ∧
      ∀ i, firstSubLayer ≤ i →
        (copySubLayers hrd firstSubLayer maxNumSubLayersMinus1).m_HRD i = hrd.m_HRD i := by
  induction firstSubLayer with
  | zero => exact ⟨rfl, fun _ _ => rfl⟩
  | succ firstSubLayer ih =>
      obtain ⟨header, layers⟩ := ih
      have last : copySubLayers hrd (firstSubLayer + 1) maxNumSubLayersMinus1 =
          (copySubLayers hrd firstSubLayer maxNumSubLayersMinus1).setLayer firstSubLayer
            (copyCpbs (copySubLayers hrd firstSubLayer maxNumSubLayersMinus1).present
              ((copySubLayers hrd firstSubLayer maxNumSubLayersMinus1).m_HRD maxNumSubLayersMinus1)
              ((copySubLayers hrd firstSubLayer maxNumSubLayersMinus1).m_HRD firstSubLayer)) := by
        simp only [copySubLayers, List.range_succ, List.foldl_append, List.foldl_cons,
          List.foldl_nil]
      rw [last]
      refine ⟨header, fun i above => ?_⟩
      rw [HRDParameters.setLayer]
      dsimp only
      rw [if_neg (by omega), layers i (by omega)]

/-- The loop over the sub-layers keeps what it read before them. -/
theorem codes_subLayers {fifo : List UInt8} {locations : List Nat} {hrd : HRDParameters}
    {firstSubLayer maxNumSubLayersMinus1 : Nat}
    (fits : Fits hrd firstSubLayer maxNumSubLayersMinus1)
    (ok : ∀ i, firstSubLayer ≤ i → i ≤ maxNumSubLayersMinus1 → LayerOk hrd.present (hrd.m_HRD i))
    {old : HRDParameters} (present : old.present = hrd.present) :
    Codes False outputView (inputView fifo locations)
      ((List.range' firstSubLayer (maxNumSubLayersMinus1 + 1 - firstSubLayer)).foldlM
        (fun _ i => codeSubLayer hrd.present (hrd.m_HRD i)) ())
      (parseSubLayers old firstSubLayer maxNumSubLayersMinus1)
      (fun _ parsed => parsed.header = old.header ∧
        ∀ i, firstSubLayer ≤ i → i ≤ maxNumSubLayersMinus1 →
          SameLayer hrd.present (hrd.m_HRD i) (parsed.m_HRD i)) := by
  refine (Codes.range' (fun k _ parsed => parsed.header = old.header ∧
    ∀ i, firstSubLayer ≤ i → i < k → SameLayer hrd.present (hrd.m_HRD i) (parsed.m_HRD i)) ?_
    (by exact ⟨rfl, fun i low high => by omega⟩)).weaken ?_
  · rintro k _ parsed low high ⟨header, before⟩
    rw [(present_of_header header).trans present]
    refine Codes.readerMap _ (codes_subLayer (fits.layers k low (by omega)) (present_known hrd)
      (ok k low (by omega)) (parsed.m_HRD k)) ?_
    intro _ info same
    refine ⟨header, fun i above below => ?_⟩
    rw [HRDParameters.setLayer]
    dsimp only
    by_cases last : i = k
    · rw [if_pos last, last]
      exact same
    · rw [if_neg last]
      exact before i above (by omega)
  · rintro _ parsed ⟨header, layers⟩
    exact ⟨header, fun i above below => layers i above (by omega)⟩

/-- Where every stored low delay flag agrees with what the reader infers, all the
signalled fields come back. -/
theorem codes_hrdParameters {fifo : List UInt8} {locations : List Nat} {hrd : HRDParameters}
    {firstSubLayer maxNumSubLayersMinus1 : Nat}
    (fits : Fits hrd firstSubLayer maxNumSubLayersMinus1)
    (ok : ∀ i, firstSubLayer ≤ i → i ≤ maxNumSubLayersMinus1 → LayerOk hrd.present (hrd.m_HRD i))
    (old : HRDParameters) :
    Codes False outputView (inputView fifo locations)
      (codeHrdParameters hrd firstSubLayer maxNumSubLayersMinus1)
      (parseHrdParameters old firstSubLayer maxNumSubLayersMinus1)
      (fun _ parsed => Same hrd firstSubLayer maxNumSubLayersMinus1 parsed) := by
  refine (codes_bool _).bind ?_
  rintro _ _ rfl
  refine (codes_bool _).bind ?_
  rintro _ _ rfl
  refine (codes_bool _).bind ?_
  rintro _ _ rfl
  refine Codes.bind (codes_decodingUnit hrd (by decide) (by decide) fits.tickDivisor rfl) ?_
  rintro _ tick tickRead
  refine (codes_code (by decide) (by decide) (Or.inl fits.bitRateScale)).bind ?_
  rintro _ _ rfl
  refine (codes_code (by decide) (by decide) (Or.inl fits.cpbSizeScale)).bind ?_
  rintro _ _ rfl
  refine Codes.bind (codes_decodingUnit hrd (by decide) (by decide) fits.cpbSizeDuScale rfl) ?_
  rintro _ duScale duScaleRead
  refine Codes.readerMap _ (codes_subLayers fits ok (by rfl)) ?_
  rintro _ parsed ⟨header, layers⟩
  obtain ⟨copied, kept⟩ := copySubLayers_spec parsed firstSubLayer maxNumSubLayersMinus1
  have whole := copied.trans header
  simp only [HRDParameters.header, Prod.mk.injEq] at whole
  obtain ⟨nal, vcl, du, tickSame, bitRate, cpbSize, duSame⟩ := whole
  refine ⟨nal, vcl, du, ?_, bitRate, cpbSize, ?_, ?_⟩
  · intro coded
    rw [tickSame, tickRead, if_pos coded]
  · intro coded
    rw [duSame, duScaleRead, if_pos coded]
  · intro i above below
    rw [kept i above]
    exact layers i above below

/-! ## The bits of a sub-layer -/

/-- The number of bits of one coded picture buffer. -/
def cpbSize (values : Nat × Nat × Bool) : Nat := uvlcSize values.1 + (uvlcSize values.2.1 + 1)

/-- The number of bits of the first `count` buffers of a table. -/
def entriesSize (info : HrdSubLayerInfo) (nalOrVcl count : Nat) : Nat :=
  ((List.range' 0 count).map fun j => cpbSize (info.cpb j nalOrVcl)).sum

/-- The number of bits of a table. -/
@[grind =] def tableSize (present : Nat → Bool) (info : HrdSubLayerInfo) (nalOrVcl : Nat) : Nat :=
  if present nalOrVcl then entriesSize info nalOrVcl (info.cpbCntMinus1 + 1) else 0

/-- The number of bits of a sub-layer, as the writer decides it. -/
def layerSize (present : Nat → Bool) (info : HrdSubLayerInfo) : Nat :=
  1 + ((if info.fixedPicRateFlag then 0 else 1) +
    ((if info.within then uvlcSize info.picDurationInTcMinus1 else 1) +
      ((if info.lowDelayHrdFlag then 0 else uvlcSize info.cpbCntMinus1) +
        (tableSize present info 0 + tableSize present info 1))))

theorem entriesSize_succ (info : HrdSubLayerInfo) (nalOrVcl count : Nat) :
    entriesSize info nalOrVcl (count + 1) =
      entriesSize info nalOrVcl count + cpbSize (info.cpb count nalOrVcl) := by
  simp [entriesSize, List.range'_1_concat]

theorem entriesSize_congr {info other : HrdSubLayerInfo} {nalOrVcl count : Nat}
    (same : ∀ j < count, other.cpb j nalOrVcl = info.cpb j nalOrVcl) :
    entriesSize other nalOrVcl count = entriesSize info nalOrVcl count := by
  induction count with
  | zero => rfl
  | succ count ih =>
      rw [entriesSize_succ, entriesSize_succ, ih fun j below => same j (by omega),
        same count (by omega)]

theorem entriesSize_mono (info : HrdSubLayerInfo) (nalOrVcl : Nat) {count more : Nat}
    (le : count ≤ more) : entriesSize info nalOrVcl count ≤ entriesSize info nalOrVcl more := by
  induction le with
  | refl => exact Nat.le_refl _
  | step _ ih =>
      rw [entriesSize_succ]
      omega

/-- A table with the same entries up to the count of another is no shorter. -/
theorem tableSize_le {present : Nat → Bool} {info other : HrdSubLayerInfo} {nalOrVcl : Nat}
    (more : present nalOrVcl = true → info.cpbCntMinus1 ≤ other.cpbCntMinus1)
    (same : present nalOrVcl = true → ∀ j ≤ info.cpbCntMinus1,
      other.cpb j nalOrVcl = info.cpb j nalOrVcl) :
    tableSize present info nalOrVcl ≤ tableSize present other nalOrVcl := by
  unfold tableSize
  split
  next coded =>
    have agree : ∀ j < info.cpbCntMinus1 + 1, other.cpb j nalOrVcl = info.cpb j nalOrVcl :=
      fun j below => same coded j (by omega)
    rw [← entriesSize_congr agree]
    exact entriesSize_mono other nalOrVcl (Nat.succ_le_succ (more coded))
  next => exact Nat.le_refl _

theorem appends_cpbs {present : Nat → Bool} {info : HrdSubLayerInfo}
    (fits : LayerFits present info) (nalOrVcl : Nat) :
    Appends outputView (codeCpbs present info nalOrVcl) () (tableSize present info nalOrVcl) := by
  unfold codeCpbs tableSize
  split
  next coded =>
    refine Appends.range' fun j _ below => ?_
    exact (appends_uvlc (fits.bitRate j nalOrVcl coded (by omega))).bind
      ((appends_uvlc (fits.cpbSize j nalOrVcl coded (by omega))).bind (appends_bool _))
  next => exact Appends.pure ()

theorem appends_subLayer {present : Nat → Bool} {info : HrdSubLayerInfo}
    (fits : LayerFits present info) :
    Appends outputView (codeSubLayer present info) () (layerSize present info) := by
  have within : Appends outputView (codeWithinCvs info) info.within
      (if info.fixedPicRateFlag then 0 else 1) := by
    unfold codeWithinCvs HrdSubLayerInfo.within
    cases info.fixedPicRateFlag with
    | true => exact Appends.pure true
    | false =>
        show Appends outputView (xWriteBool _ >>= fun _ => pure _) _ (1 + 0)
        exact (appends_bool _).bind (Appends.pure _)
  have duration : Appends outputView (codeDuration info info.within) ()
      (if info.within then uvlcSize info.picDurationInTcMinus1 else 1) := by
    unfold codeDuration
    split
    next coded => exact appends_uvlc (fits.duration coded)
    next => exact appends_bool _
  have count : Appends outputView (codeCpbCnt info) ()
      (if info.lowDelayHrdFlag then 0 else uvlcSize info.cpbCntMinus1) := by
    unfold codeCpbCnt
    cases info.lowDelayHrdFlag with
    | true => exact Appends.pure ()
    | false =>
        exact appends_uvlc (Nat.lt_trans fits.cpbCnt (by decide : MAX_CPB_CNT < 2 ^ 32 - 1))
  exact (appends_bool _).bind (within.bind (duration.bind (count.bind
    ((appends_cpbs fits 0).bind (appends_cpbs fits 1)))))

/-- The bits the reader takes for one table, and the entries it leaves alone. -/
theorem spends_cpbs (present : Nat → Bool) (old : HrdSubLayerInfo) (nalOrVcl : Nat) :
    Spends streamView (parseCpbs present old nalOrVcl) (fun parsed taken =>
      parsed.head = old.head ∧
      (∀ j nalOrVcl', ¬ (nalOrVcl' = nalOrVcl ∧ present nalOrVcl = true ∧ j ≤ old.cpbCntMinus1) →
        parsed.cpb j nalOrVcl' = old.cpb j nalOrVcl') ∧
      tableSize present parsed nalOrVcl ≤ taken) := by
  unfold parseCpbs
  by_cases coded : present nalOrVcl = true
  · rw [if_pos coded]
    refine (Spends.range' (n := 0) (fun i parsed taken => parsed.head = old.head ∧
      (∀ j nalOrVcl', ¬ (nalOrVcl' = nalOrVcl ∧ j < i) →
        parsed.cpb j nalOrVcl' = old.cpb j nalOrVcl') ∧
      entriesSize parsed nalOrVcl i ≤ taken) ?_ ?_).weaken ?_
    · rintro i parsed n _ _ ⟨head, kept, size⟩
      refine spends_uvlc.bind fun bitRate first firstSize => ?_
      refine spends_uvlc.bind fun cpbSize second secondSize => ?_
      refine spends_bool.bind fun cbr third one => Spends.pure ?_
      have entries : ∀ j nalOrVcl',
          (parsed.setCpb i nalOrVcl (bitRate, cpbSize, cbr)).cpb j nalOrVcl' =
            if j = i ∧ nalOrVcl' = nalOrVcl then (bitRate, cpbSize, cbr)
            else parsed.cpb j nalOrVcl' := cpb_setCpb parsed i nalOrVcl (bitRate, cpbSize, cbr)
      refine ⟨head, fun j nalOrVcl' apart => ?_, ?_⟩
      · refine (entries j nalOrVcl').trans ?_
        rw [if_neg (by omega), kept j nalOrVcl' (by omega)]
      · show entriesSize (parsed.setCpb i nalOrVcl (bitRate, cpbSize, cbr)) nalOrVcl (i + 1) ≤ _
        rw [entriesSize_succ, entries, if_pos ⟨rfl, rfl⟩]
        have before : entriesSize (parsed.setCpb i nalOrVcl (bitRate, cpbSize, cbr)) nalOrVcl i =
            entriesSize parsed nalOrVcl i := by
          refine entriesSize_congr fun j below => ?_
          rw [entries, if_neg (by omega)]
        rw [before]
        simp only [HRD.cpbSize]
        omega
    · exact ⟨rfl, fun _ _ _ => rfl, Nat.le_refl _⟩
    · rintro parsed taken ⟨head, kept, size⟩
      have counts := head
      simp only [HrdSubLayerInfo.head, Prod.mk.injEq] at counts
      refine ⟨head, fun j nalOrVcl' apart => kept j nalOrVcl' ?_, ?_⟩
      · rintro ⟨same, below⟩
        exact apart ⟨same, coded, by omega⟩
      · rw [tableSize, if_pos coded, counts.2.2.2.2]
        simpa using size
  · rw [if_neg coded]
    refine Spends.pure ⟨rfl, fun _ _ _ => rfl, ?_⟩
    rw [tableSize, if_neg coded]

/-- What the reader's sub-layer looks like, and what it cost. -/
structure LayerSpent (present : Nat → Bool) (old parsed : HrdSubLayerInfo) (taken : Nat) :
    Prop where
  inferred : parsed.fixedPicRateWithinCvsFlag = parsed.within
  lowDelay : parsed.within = true → parsed.lowDelayHrdFlag = false
  cpbCnt : parsed.lowDelayHrdFlag = true → parsed.cpbCntMinus1 = 0
  kept : ∀ j nalOrVcl, ¬ (present nalOrVcl = true ∧ j ≤ parsed.cpbCntMinus1) →
    parsed.cpb j nalOrVcl = old.cpb j nalOrVcl
  cost : layerSize present parsed ≤ taken

theorem spends_withinCvs (old : HrdSubLayerInfo) :
    Spends streamView (parseWithinCvs old) (fun parsed taken =>
      parsed = { old with fixedPicRateWithinCvsFlag := parsed.fixedPicRateWithinCvsFlag } ∧
      (old.fixedPicRateFlag = true → parsed.fixedPicRateWithinCvsFlag = true) ∧
      (if old.fixedPicRateFlag then 0 else 1) ≤ taken) := by
  unfold parseWithinCvs
  by_cases fixed : old.fixedPicRateFlag = true
  · rw [if_neg (by simp [fixed])]
    exact Spends.pure ⟨rfl, fun _ => rfl, by simp [fixed]⟩
  · rw [if_pos (by simpa using fixed)]
    refine spends_bool.bind fun symbol taken one => Spends.pure ?_
    exact ⟨rfl, fun yes => absurd yes fixed, by rw [if_neg fixed, one]⟩

theorem spends_duration (old : HrdSubLayerInfo) :
    Spends streamView (parseDuration old) (fun parsed taken =>
      parsed = { old with
        picDurationInTcMinus1 := parsed.picDurationInTcMinus1
        lowDelayHrdFlag := parsed.lowDelayHrdFlag } ∧
      (old.fixedPicRateWithinCvsFlag = true → parsed.lowDelayHrdFlag = old.lowDelayHrdFlag) ∧
      (if old.fixedPicRateWithinCvsFlag then uvlcSize parsed.picDurationInTcMinus1 else 1) ≤
        taken) := by
  unfold parseDuration
  by_cases within : old.fixedPicRateWithinCvsFlag = true
  · rw [if_pos within]
    refine spends_uvlc.bind fun symbol taken size => Spends.pure ?_
    refine ⟨rfl, fun _ => rfl, ?_⟩
    rw [if_pos within]
    exact size
  · rw [if_neg within]
    refine spends_bool.bind fun symbol taken one => Spends.pure ?_
    refine ⟨rfl, fun yes => absurd yes within, ?_⟩
    rw [if_neg within, one]

theorem spends_cpbCnt (old : HrdSubLayerInfo) :
    Spends streamView (parseCpbCnt old) (fun parsed taken =>
      parsed = { old with cpbCntMinus1 := parsed.cpbCntMinus1 } ∧
      (old.lowDelayHrdFlag = true → parsed.cpbCntMinus1 = old.cpbCntMinus1) ∧
      (if old.lowDelayHrdFlag then 0 else uvlcSize parsed.cpbCntMinus1) ≤ taken) := by
  unfold parseCpbCnt
  by_cases low : old.lowDelayHrdFlag = true
  · rw [if_neg (by simp [low])]
    exact Spends.pure ⟨rfl, fun _ => rfl, by simp [low]⟩
  · rw [if_pos (by simpa using low)]
    refine spends_uvlc.bind fun symbol taken size => Spends.pure ?_
    exact ⟨rfl, fun yes => absurd yes low, by rw [if_neg low]; exact size⟩

/-- The reader's sub-layer costs at least the bits of the values in it. -/
theorem spends_subLayer (present : Nat → Bool) (old : HrdSubLayerInfo) :
    Spends streamView (parseSubLayer present old) (LayerSpent present old) := by
  refine spends_bool.bind fun fixed taken₁ one => ?_
  refine (spends_withinCvs _).bind fun first taken₂ ⟨firstEq, inferred, size₂⟩ => ?_
  refine (spends_duration _).bind fun second taken₃ ⟨secondEq, lowDelay, size₃⟩ => ?_
  refine (spends_cpbCnt _).bind fun third taken₄ ⟨thirdEq, cpbCnt, size₄⟩ => ?_
  refine (spends_cpbs present third 0).bind fun fourth taken₅ ⟨head₅, kept₅, size₅⟩ => ?_
  refine (spends_cpbs present fourth 1).weaken fun parsed taken₆ ⟨head₆, kept₆, size₆⟩ => ?_
  have entries : ∀ j nalOrVcl, third.cpb j nalOrVcl = old.cpb j nalOrVcl := by
    intro j nalOrVcl
    rw [thirdEq, secondEq, firstEq]
    rfl
  have head : parsed.head = (fixed, first.fixedPicRateWithinCvsFlag,
      second.picDurationInTcMinus1, second.lowDelayHrdFlag, third.cpbCntMinus1) := by
    rw [head₆, head₅, thirdEq, secondEq, firstEq]
    rfl
  have counts₅ : fourth.cpbCntMinus1 = third.cpbCntMinus1 := congrArg (·.2.2.2.2) head₅
  simp only [HrdSubLayerInfo.head, Prod.mk.injEq] at head
  obtain ⟨fixedEq, withinEq, durationEq, lowEq, countEq⟩ := head
  have within : parsed.within = first.fixedPicRateWithinCvsFlag := by
    rw [HrdSubLayerInfo.within, fixedEq, withinEq]
    cases flag : fixed with
    | false => rfl
    | true => rw [inferred flag]; rfl
  have table₀ : tableSize present parsed 0 ≤ tableSize present fourth 0 := by
    refine tableSize_le (fun _ => by omega) fun _ j _ => ?_
    exact (kept₆ j 0 (by omega)).symm
  refine ⟨withinEq.trans within.symm, ?_, ?_, ?_, ?_⟩
  · intro yes
    rw [within] at yes
    rw [lowEq]
    exact lowDelay yes
  · intro low
    rw [countEq, cpbCnt (lowEq.symm.trans low), secondEq]
  · intro j nalOrVcl apart
    rw [kept₆ j nalOrVcl, kept₅ j nalOrVcl, entries]
    · rintro ⟨rfl, coded, upTo⟩
      exact apart ⟨coded, by omega⟩
    · rintro ⟨rfl, coded, upTo⟩
      exact apart ⟨coded, by omega⟩
  · unfold layerSize
    rw [within, fixedEq, durationEq, lowEq, countEq]
    dsimp only at size₂ size₃
    omega

/-- To return the signalled values of a sub-layer over tables with other values, the
reader takes at least the bits that were written, and more where a stored low delay
flag disagrees with what it infers. -/
theorem LayerSpent.enough {present : Nat → Bool} {info old parsed : HrdSubLayerInfo} {taken : Nat}
    (spent : LayerSpent present old parsed taken)
    (other : ∀ j nalOrVcl, old.cpb j nalOrVcl ≠ info.cpb j nalOrVcl)
    (same : SameLayer present info parsed) :
    layerSize present info ≤ taken ∧
      (¬ LayerOk present info → layerSize present info < taken) := by
  have more : ∀ nalOrVcl, present nalOrVcl = true → info.cpbCntMinus1 ≤ parsed.cpbCntMinus1 := by
    intro nalOrVcl coded
    by_contra fewer
    have kept := spent.kept info.cpbCntMinus1 nalOrVcl (by omega)
    rw [same.cpbs _ nalOrVcl coded (Nat.le_refl _)] at kept
    exact other _ _ kept.symm
  have table : ∀ nalOrVcl, tableSize present info nalOrVcl ≤ tableSize present parsed nalOrVcl :=
    fun nalOrVcl => tableSize_le (more nalOrVcl) fun coded j => same.cpbs j nalOrVcl coded
  have within : parsed.within = info.within := by
    have first := same.fixedPicRate
    cases fixed : info.fixedPicRateFlag with
    | true =>
        rw [fixed] at first
        simp only [HrdSubLayerInfo.within, first, fixed, Bool.true_or]
    | false => simp only [HrdSubLayerInfo.within, first, same.withinCvs fixed]
  have tables := table 0
  have tables' := table 1
  have cost := spent.cost
  unfold layerSize at cost ⊢
  rw [same.fixedPicRate, within] at cost
  cases within' : info.within with
  | true =>
      have inferred := spent.lowDelay (within.trans within')
      rw [within', inferred, same.duration within'] at cost
      have positive := uvlcSize_pos parsed.cpbCntMinus1
      cases low : info.lowDelayHrdFlag with
      | true =>
          simp only [if_true, Bool.false_eq_true, if_false] at cost ⊢
          omega
      | false =>
          refine ⟨?_, fun bad => absurd (fun yes => ?_) bad⟩
          · rw [same.cpbCnt low] at cost
            simp only [if_true, Bool.false_eq_true, if_false] at cost ⊢
            omega
          · rw [low] at yes
            cases yes
  | false =>
      rw [within', same.lowDelay within'] at cost
      have count : (if info.lowDelayHrdFlag then 0 else uvlcSize info.cpbCntMinus1) =
          if info.lowDelayHrdFlag then 0 else uvlcSize parsed.cpbCntMinus1 := by
        cases low : info.lowDelayHrdFlag with
        | true => rfl
        | false => rw [same.cpbCnt low]
      rw [count]
      refine ⟨?_, fun bad => absurd (fun low => ⟨within', ?_⟩) bad⟩
      · simp only [Bool.false_eq_true, if_false] at cost ⊢
        omega
      · -- the reader infers one buffer, and has to agree with all that were written
        by_contra coded
        simp only [not_or, not_forall, Bool.not_eq_false] at coded
        obtain ⟨several, nalOrVcl, yes⟩ := coded
        have single := spent.cpbCnt ((same.lowDelay within').trans low)
        have least := more nalOrVcl yes
        omega

/-! ## The bits of the whole structure -/

/-- The number of bits of the sub-layers from `firstSubLayer` below `behind`. -/
def layersSize (present : Nat → Bool) (hrd : HRDParameters) (firstSubLayer behind : Nat) : Nat :=
  ((List.range' firstSubLayer (behind - firstSubLayer)).map fun i =>
    layerSize present (hrd.m_HRD i)).sum

theorem layersSize_succ (present : Nat → Bool) (hrd : HRDParameters) {firstSubLayer behind : Nat}
    (ordered : firstSubLayer ≤ behind) :
    layersSize present hrd firstSubLayer (behind + 1) =
      layersSize present hrd firstSubLayer behind + layerSize present (hrd.m_HRD behind) := by
  rw [layersSize, Nat.succ_sub ordered, List.range'_1_concat, Nat.add_sub_cancel' ordered]
  simp [layersSize]

/-- The number of bits of the structure. -/
def hrdSize (hrd : HRDParameters) (firstSubLayer maxNumSubLayersMinus1 : Nat) : Nat :=
  1 + (1 + (1 + ((if hrd.generalDecodingUnitHrdParamsPresentFlag then 8 else 0) +
    (4 + (4 + ((if hrd.generalDecodingUnitHrdParamsPresentFlag then 4 else 0) +
      layersSize hrd.present hrd firstSubLayer (maxNumSubLayersMinus1 + 1)))))))

theorem appends_decodingUnit (hrd : HRDParameters) {value length : Nat} (positive : 0 < length)
    (width : length ≤ 32)
    (fits : hrd.generalDecodingUnitHrdParamsPresentFlag = true → value < 2 ^ length) :
    Appends outputView (codeDecodingUnit hrd value length) ()
      (if hrd.generalDecodingUnitHrdParamsPresentFlag then length else 0) := by
  unfold codeDecodingUnit
  split
  next coded => exact appends_code positive width (fits coded)
  next => exact Appends.pure ()

theorem appends_hrdParameters {hrd : HRDParameters} {firstSubLayer maxNumSubLayersMinus1 : Nat}
    (fits : Fits hrd firstSubLayer maxNumSubLayersMinus1) :
    Appends outputView (codeHrdParameters hrd firstSubLayer maxNumSubLayersMinus1) ()
      (hrdSize hrd firstSubLayer maxNumSubLayersMinus1) := by
  refine (appends_bool _).bind ((appends_bool _).bind ((appends_bool _).bind ?_))
  refine (appends_decodingUnit hrd (by decide) (by decide) fits.tickDivisor).bind ?_
  refine (appends_code (by decide) (by decide) fits.bitRateScale).bind ?_
  refine (appends_code (by decide) (by decide) fits.cpbSizeScale).bind ?_
  refine (appends_decodingUnit hrd (by decide) (by decide) fits.cpbSizeDuScale).bind ?_
  exact Appends.range' fun i low high => appends_subLayer (fits.layers i low (by omega))

theorem spends_decodingUnit (hrd : HRDParameters) (value : Nat) {length : Nat}
    (positive : 0 < length) (width : length ≤ 32) :
    Spends streamView (parseDecodingUnit hrd value length) (fun _ taken =>
      taken = if hrd.generalDecodingUnitHrdParamsPresentFlag then length else 0) := by
  unfold parseDecodingUnit
  split
  · exact spends_code positive width
  · exact Spends.pure rfl

/-- Some coded sub-layer stores a low delay flag that disagrees with what the reader infers. -/
def Disagrees (present : Nat → Bool) (hrd : HRDParameters) (firstSubLayer behind : Nat) : Prop :=
  ∃ i, firstSubLayer ≤ i ∧ i < behind ∧ ¬ LayerOk present (hrd.m_HRD i)

/-- The loop over the sub-layers, from tables with other values than those written. -/
theorem spends_subLayers (hrd : HRDParameters) {old : HRDParameters} (firstSubLayer maxNumSubLayersMinus1 : Nat)
    (ordered : firstSubLayer ≤ maxNumSubLayersMinus1)
    (other : ∀ i j nalOrVcl, (old.m_HRD i).cpb j nalOrVcl ≠ (hrd.m_HRD i).cpb j nalOrVcl) :
    Spends streamView (parseSubLayers old firstSubLayer maxNumSubLayersMinus1)
      (fun parsed taken => parsed.header = old.header ∧
        ((∀ i, firstSubLayer ≤ i → i ≤ maxNumSubLayersMinus1 →
            SameLayer old.present (hrd.m_HRD i) (parsed.m_HRD i)) →
          layersSize old.present hrd firstSubLayer (maxNumSubLayersMinus1 + 1) ≤ taken ∧
          (Disagrees old.present hrd firstSubLayer (maxNumSubLayersMinus1 + 1) →
            layersSize old.present hrd firstSubLayer (maxNumSubLayersMinus1 + 1) < taken))) := by
  refine (Spends.range' (n := 0) (fun k parsed taken => parsed.header = old.header ∧
    (∀ i, k ≤ i → parsed.m_HRD i = old.m_HRD i) ∧
    ((∀ i, firstSubLayer ≤ i → i < k → SameLayer old.present (hrd.m_HRD i) (parsed.m_HRD i)) →
      layersSize old.present hrd firstSubLayer k ≤ taken ∧
      (Disagrees old.present hrd firstSubLayer k →
        layersSize old.present hrd firstSubLayer k < taken))) ?_ ?_).weaken ?_
  · rintro k parsed n low high ⟨header, ahead, before⟩
    refine (spends_subLayer parsed.present (parsed.m_HRD k)).bind fun info taken spent =>
      Spends.pure ?_
    rw [present_of_header header, ahead k (Nat.le_refl k)] at spent
    have elsewhere : ∀ i, i ≠ k → (parsed.setLayer k info).m_HRD i = parsed.m_HRD i :=
      fun i apart => if_neg apart
    have here : (parsed.setLayer k info).m_HRD k = info := if_pos rfl
    refine ⟨header, fun i above => ?_, fun same => ?_⟩
    · rw [elsewhere i (by omega), ahead i (by omega)]
    · obtain ⟨size, more⟩ := before fun i above below => by
        have earlier := same i above (by omega)
        rwa [elsewhere i (by omega)] at earlier
      have last := same k low (by omega)
      rw [here] at last
      obtain ⟨sizeHere, moreHere⟩ := spent.enough (other k) last
      rw [layersSize_succ _ _ low]
      refine ⟨by omega, ?_⟩
      rintro ⟨i, above, below, bad⟩
      by_cases at_k : i = k
      · have strict := moreHere (at_k ▸ bad)
        omega
      · have strict := more ⟨i, above, by omega, bad⟩
        omega
  · refine ⟨rfl, fun _ _ => rfl, fun _ => ⟨by simp [layersSize], ?_⟩⟩
    rintro ⟨i, above, below, _⟩
    omega
  · rintro parsed taken ⟨header, _, sizes⟩
    rw [Nat.add_sub_cancel' (by omega), Nat.zero_add] at sizes
    exact ⟨header, fun same => sizes fun i above below => same i above (by omega)⟩

/-- To return the signalled values the reader takes at least the bits written, and
more where a stored low delay flag disagrees with what it infers. -/
theorem spends_hrdParameters {hrd old : HRDParameters} (firstSubLayer maxNumSubLayersMinus1 : Nat)
    (ordered : firstSubLayer ≤ maxNumSubLayersMinus1)
    (other : ∀ i j nalOrVcl, (old.m_HRD i).cpb j nalOrVcl ≠ (hrd.m_HRD i).cpb j nalOrVcl) :
    Spends streamView (parseHrdParameters old firstSubLayer maxNumSubLayersMinus1)
      (fun parsed taken => Same hrd firstSubLayer maxNumSubLayersMinus1 parsed →
        Disagrees hrd.present hrd firstSubLayer (maxNumSubLayersMinus1 + 1) →
          hrdSize hrd firstSubLayer maxNumSubLayersMinus1 < taken) := by
  refine spends_bool.bind fun nal taken₁ one => ?_
  refine spends_bool.bind fun vcl taken₂ two => ?_
  refine spends_bool.bind fun du taken₃ three => ?_
  refine (spends_decodingUnit _ _ (by decide) (by decide)).bind fun tick taken₄ four => ?_
  refine (spends_code (by decide) (by decide)).bind fun bitRate taken₅ five => ?_
  refine (spends_code (by decide) (by decide)).bind fun cpbSize taken₆ six => ?_
  refine (spends_decodingUnit _ _ (by decide) (by decide)).bind fun duScale taken₇ seven => ?_
  refine Spends.bind (spends_subLayers hrd firstSubLayer maxNumSubLayersMinus1 ordered ?_) ?_
  · exact other
  rintro parsed taken₈ ⟨header, sizes⟩
  refine Spends.pure ?_
  intro same bad
  obtain ⟨copied, kept⟩ := copySubLayers_spec parsed firstSubLayer maxNumSubLayersMinus1
  have whole := copied.trans header
  have units : du = hrd.generalDecodingUnitHrdParamsPresentFlag :=
    (congrArg (·.2.2.1) whole).symm.trans same.decodingUnit
  have present : (copySubLayers parsed firstSubLayer maxNumSubLayersMinus1).present =
      hrd.present := by
    funext nalOrVcl
    rw [HRDParameters.present, same.nal, same.vcl, HRDParameters.present]
  rw [← present_of_header whole, present] at sizes
  obtain ⟨_, strict⟩ := sizes fun i above below => by
    rw [← kept i above]
    exact same.layers i above below
  have more := strict bad
  unfold hrdSize
  dsimp only at four seven
  rw [units] at four seven
  omega

/-- The reader takes exactly the bits written and returns every signalled field,
whatever the object it reads into held before. -/
def RoundTrips (hrd : HRDParameters) (firstSubLayer maxNumSubLayersMinus1 : Nat) : Prop :=
  ∀ before : OutputBitstream, before.WellFormed →
    ∃ after bits,
      codeHrdParameters hrd firstSubLayer maxNumSubLayersMinus1 before = .ok ((), after) ∧
      after.bits = before.bits ++ bits ∧
      ∀ (old : HRDParameters) (s : InputBitstream) (rest : List Bool), s.WellFormed →
        s.remaining = bits ++ rest →
        ∃ parsed s',
          parseHrdParameters old firstSubLayer maxNumSubLayersMinus1 s = .ok (parsed, s') ∧
          s'.remaining = rest ∧ Same hrd firstSubLayer maxNumSubLayersMinus1 parsed

/-- The parameters with every bit rate changed. -/
def otherBitRates (hrd : HRDParameters) : HRDParameters :=
  { hrd with
    m_HRD := fun i => { hrd.m_HRD i with
      bitRateValueMinus1 := fun j nalOrVcl => (hrd.m_HRD i).bitRateValueMinus1 j nalOrVcl + 1 } }

/-- A round trip counts the bits: no stored low delay flag disagrees with what the
reader infers. -/
theorem layerOk_of_roundTrips {hrd : HRDParameters} {firstSubLayer maxNumSubLayersMinus1 : Nat}
    (ordered : firstSubLayer ≤ maxNumSubLayersMinus1)
    (fits : Fits hrd firstSubLayer maxNumSubLayersMinus1)
    (roundTrips : RoundTrips hrd firstSubLayer maxNumSubLayersMinus1) :
    ∀ i, firstSubLayer ≤ i → i ≤ maxNumSubLayersMinus1 → LayerOk hrd.present (hrd.m_HRD i) := by
  intro i above below
  by_contra bad
  obtain ⟨after, bits, run, appended, reads⟩ :=
    roundTrips OutputBitstream.empty OutputBitstream.wellFormed_empty
  obtain ⟨after', run', wf', size⟩ :=
    appends_hrdParameters fits OutputBitstream.empty OutputBitstream.wellFormed_empty
  rw [run] at run'
  cases run'
  obtain ⟨s, rest, wf, _, view⟩ := stream_of_bits wf'
  have written : after.bits = bits := appended
  rw [written] at view
  obtain ⟨parsed, s', parses, left, same⟩ := reads (otherBitRates hrd) s rest wf view
  have other : ∀ i j nalOrVcl,
      ((otherBitRates hrd).m_HRD i).cpb j nalOrVcl ≠ (hrd.m_HRD i).cpb j nalOrVcl := by
    intro i j nalOrVcl equal
    have rates : (hrd.m_HRD i).bitRateValueMinus1 j nalOrVcl + 1 =
      (hrd.m_HRD i).bitRateValueMinus1 j nalOrVcl := congrArg Prod.fst equal
    omega
  obtain ⟨_, taken, count, strict⟩ := spends_hrdParameters firstSubLayer maxNumSubLayersMinus1
    ordered other s parsed s' wf parses
  have more := strict same ⟨i, above, by omega, bad⟩
  have counts : s.remaining.length = taken + s'.remaining.length := count
  have sizes : after.bits.length = 0 + hrdSize hrd firstSubLayer maxNumSubLayersMinus1 := size
  rw [view, left, List.length_append, ← written] at counts
  omega

/-- The parameters round trip exactly when every stored low delay flag of a coded
sub-layer agrees with what the reader infers. -/
theorem hrdParameters_round_trip_iff (hrd : HRDParameters)
    (firstSubLayer maxNumSubLayersMinus1 : Nat) (ordered : firstSubLayer ≤ maxNumSubLayersMinus1)
    (fits : Fits hrd firstSubLayer maxNumSubLayersMinus1) :
    RoundTrips hrd firstSubLayer maxNumSubLayersMinus1 ↔
      ∀ i, firstSubLayer ≤ i → i ≤ maxNumSubLayersMinus1 →
        LayerOk hrd.present (hrd.m_HRD i) := by
  constructor
  · exact layerOk_of_roundTrips ordered fits
  · intro ok before wf
    obtain ⟨after, bits, run, appended, _⟩ :=
      parses_written (fun fifo locations => codes_hrdParameters fits ok hrd) wf
    refine ⟨after, bits, run, appended, fun old s rest ready next => ?_⟩
    obtain ⟨after', bits', run', appended', reads⟩ :=
      parses_written (fun fifo locations => codes_hrdParameters fits ok old) wf
    rw [run] at run'
    cases run'
    have same : bits' = bits := List.append_cancel_left (appended'.symm.trans appended)
    exact reads s rest ready (by rw [same]; exact next)

/-- Two buffers, at a fixed picture rate. -/
def fixedRateLayer (lowDelayHrdFlag : Bool) : HrdSubLayerInfo where
  fixedPicRateFlag := true
  fixedPicRateWithinCvsFlag := false
  picDurationInTcMinus1 := 3
  lowDelayHrdFlag := lowDelayHrdFlag
  cpbCntMinus1 := 1
  bitRateValueMinus1 := fun j _ => 100 + j
  cpbSizeValue := fun _ nalOrVcl => 7 + nalOrVcl
  cbrFlag := fun _ _ => true

/-- Parameters whose sub-layers are all the same. -/
@[grind =] def uniform (lowDelayHrdFlag : Bool) : HRDParameters where
  nalHrdParametersPresentFlag := true
  vclHrdParametersPresentFlag := true
  tickDivisorMinus2 := 100
  generalDecodingUnitHrdParamsPresentFlag := true
  bitRateScale := 4
  cpbSizeScale := 15
  cpbSizeDuScale := 0
  m_HRD := fun _ => fixedRateLayer lowDelayHrdFlag

theorem fits_uniform (lowDelayHrdFlag : Bool) (firstSubLayer maxNumSubLayersMinus1 : Nat) :
    Fits (uniform lowDelayHrdFlag) firstSubLayer maxNumSubLayersMinus1 := by
  have tick : (100 : Nat) < 2 ^ 8 := by decide
  have scale : (4 : Nat) < 2 ^ 4 := by decide
  have scale' : (15 : Nat) < 2 ^ 4 := by decide
  have duration : (3 : Nat) < 2 ^ 32 - 1 := by decide
  have count : 1 < MAX_CPB_CNT := by decide
  refine ⟨fun _ => tick, scale, scale', fun _ => Nat.two_pow_pos 4, fun i _ _ => ?_⟩
  refine ⟨fun _ => duration, count, ?_, ?_⟩
  · intro j nalOrVcl _ upTo
    have count : j ≤ 1 := upTo
    show 100 + j < 2 ^ 32 - 1
    omega
  · intro j nalOrVcl coded _
    have known := present_known _ nalOrVcl coded
    show 7 + nalOrVcl < 2 ^ 32 - 1
    omega

theorem uniform_round_trips : RoundTrips (uniform false) 0 6 := by
  refine (hrdParameters_round_trip_iff (uniform false) 0 6 (by decide) (fits_uniform _ _ _)).mpr ?_
  intro i _ _ low
  cases low

/-- With a fixed picture rate and a stored low delay flag the writer skips the count
that the reader expects. -/
theorem uniform_lowDelay_lost : Fits (uniform true) 0 0 ∧ ¬ RoundTrips (uniform true) 0 0 := by
  refine ⟨fits_uniform _ _ _, fun roundTrips => ?_⟩
  have ok := layerOk_of_roundTrips (Nat.le_refl 0) (fits_uniform _ _ _) roundTrips 0 (Nat.le_refl 0)
    (Nat.le_refl 0) rfl
  cases ok.1

end Vtm.HRD
