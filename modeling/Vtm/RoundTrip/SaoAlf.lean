import Vtm.Decoder.CtuFilters
import Vtm.Encoder.CtuFilters
import Vtm.RoundTrip.Symbols

/-!
# The round trip of SAO and ALF parameters

What the slice flags allow is read back, bin by bin, if the slice has no ALF for chroma without ALF
for luma. The headers carry no such slice.
-/

namespace Vtm.RoundTrip.SaoAlf

open Vtm.Std Vtm.Bin CtuFilters
open CtuFilters.ComponentID
open Function (update update_self update_of_ne)

variable {cs : CodingStructure} {ctu : Ctu} {compID : ComponentID} {a : SAOOffset}
  {pars pars' : SAOBlkParam}

/-! ## The parameters of a component -/

/-- The parameters that a component with SAO may have. The valleys are not lowered and the peaks not
raised. -/
inductive LegalOffset (maxOffsetQVal : Nat) (a : SAOOffset) : Prop where
  | off (mode : a.modeIdc = .SAO_MODE_OFF)
  | band (mode : a.modeIdc = .SAO_MODE_NEW) (type : a.typeIdc = SAO_TYPE_START_BO)
      (position : a.typeAuxInfo < NUM_SAO_BO_CLASSES)
      (range : ∀ k < 4,
        (a.offset ((a.typeAuxInfo + k) % NUM_SAO_BO_CLASSES)).natAbs ≤ maxOffsetQVal)
  | edge (mode : a.modeIdc = .SAO_MODE_NEW) (type : a.typeIdc < SAO_TYPE_START_BO)
      (range : ∀ classIdx ≤ SAO_CLASS_EO_FULL_PEAK, (a.offset classIdx).natAbs ≤ maxOffsetQVal)
      (valleys : ∀ classIdx < SAO_CLASS_EO_PLAIN, 0 ≤ a.offset classIdx)
      (plain : a.offset SAO_CLASS_EO_PLAIN = 0)
      (peaks : ∀ classIdx, SAO_CLASS_EO_PLAIN < classIdx → classIdx ≤ SAO_CLASS_EO_FULL_PEAK →
        a.offset classIdx ≤ 0)

/-- The same parameters: what the modes and types do not use is left out. -/
structure SameOffset (a b : SAOOffset) : Prop where
  mode : b.modeIdc = a.modeIdc
  type : a.modeIdc ≠ .SAO_MODE_OFF → b.typeIdc = a.typeIdc
  position : a.modeIdc = .SAO_MODE_NEW → a.typeIdc = SAO_TYPE_START_BO →
    b.typeAuxInfo = a.typeAuxInfo
  bands : a.modeIdc = .SAO_MODE_NEW → a.typeIdc = SAO_TYPE_START_BO → ∀ k < 4,
    b.offset ((a.typeAuxInfo + k) % NUM_SAO_BO_CLASSES) =
      a.offset ((a.typeAuxInfo + k) % NUM_SAO_BO_CLASSES)
  edges : a.modeIdc = .SAO_MODE_NEW → a.typeIdc ≠ SAO_TYPE_START_BO →
    ∀ classIdx ≤ SAO_CLASS_EO_FULL_PEAK, b.offset classIdx = a.offset classIdx

theorem SameOffset.of_off {b : SAOOffset} (mode : a.modeIdc = .SAO_MODE_OFF)
    (mode' : b.modeIdc = .SAO_MODE_OFF) : SameOffset a b := by
  refine ⟨mode'.trans mode.symm, fun on => absurd mode on, fun new => ?_, fun new => ?_, fun new => ?_⟩
  all_goals
    rw [mode] at new
    cases new

theorem LegalOffset.saoOffset_le {maxOffsetQVal : Nat} (legal : LegalOffset maxOffsetQVal a)
    (new : a.modeIdc = .SAO_MODE_NEW) {k : Nat} (few : k < 4) :
    (CABACWriter.saoOffset a k).natAbs ≤ maxOffsetQVal := by
  unfold CABACWriter.saoOffset
  cases legal with
  | off mode => simp [mode] at new
  | band _ type _ range =>
      rw [if_pos type]
      exact range k few
  | edge _ type range =>
      rw [if_neg (by omega)]
      refine range _ ?_
      unfold SAO_CLASS_EO_PLAIN SAO_CLASS_EO_FULL_PEAK
      split <;> omega

theorem getMaxOffsetQVal_le (channelBitDepth : Nat) : getMaxOffsetQVal channelBitDepth ≤ 31 := by
  unfold getMaxOffsetQVal MAX_SAO_TRUNCATED_BITDEPTH
  have shift : min channelBitDepth 10 - 5 ≤ 5 := by omega
  have bound : 1 <<< (min channelBitDepth 10 - 5) ≤ 2 ^ 5 := by
    rw [Nat.one_shiftLeft]
    exact Nat.pow_le_pow_right (by decide) shift
  omega

/-- The magnitudes of the four offsets. -/
def absOffsets (a : SAOOffset) : List Nat :=
  (List.range 4).map fun k => (CABACWriter.saoOffset a k).natAbs

theorem reads_saoOffsetAbs {channelBitDepth : Nat}
    (legal : LegalOffset (getMaxOffsetQVal channelBitDepth) a)
    (new : a.modeIdc = .SAO_MODE_NEW) :
    Reads (CABACWriter.codeSaoOffsetAbs a (getMaxOffsetQVal channelBitDepth))
      (CABACReader.readSaoOffsetAbs (getMaxOffsetQVal channelBitDepth))
      (fun _ values => values = absOffsets a) := by
  refine Codes.collect (fun k => (CABACWriter.saoOffset a k).natAbs) _ fun k few => ?_
  have bound := getMaxOffsetQVal_le channelBitDepth
  exact reads_unaryMaxEqprob (legal.saoOffset_le new (List.mem_range.mp few)) (by omega)

theorem reads_saoOffsetSign (offset : Int) :
    Reads (CABACWriter.codeSaoOffsetSign offset) (CABACReader.readSaoOffsetSign offset.natAbs)
      (fun _ value => value = offset) := by
  unfold CABACWriter.codeSaoOffsetSign CABACReader.readSaoOffsetSign
  by_cases zero : offset = 0
  · rw [if_neg (not_not.mpr zero), if_neg (by omega)]
    exact Codes.pure zero.symm
  · rw [if_pos zero, if_pos (by omega)]
    refine Codes.readerMap _ (reads_binEP _) ?_
    rintro _ _ rfl
    by_cases negative : offset < 0
    · simp only [negative, decide_true, if_true]
      omega
    · simp only [negative, decide_false, Bool.false_eq_true, if_false]
      omega

theorem absOffsets_getD {k : Nat} (few : k < 4) :
    (absOffsets a).getD k 0 = (CABACWriter.saoOffset a k).natAbs := by
  obtain rfl | rfl | rfl | rfl : k = 0 ∨ k = 1 ∨ k = 2 ∨ k = 3 := by omega
  all_goals rfl

/-- Four bands that follow each other are different ones. -/
theorem setBands_offset (b : SAOOffset) {typeAuxInfo : Nat} (f : Nat → Int) {k : Nat} (few : k < 4) :
    (CABACReader.setBands b typeAuxInfo ((List.range 4).map f)).offset
      ((typeAuxInfo + k) % NUM_SAO_BO_CLASSES) = f k := by
  have size : NUM_SAO_BO_CLASSES = 32 := rfl
  have apart {i j : Nat} (hi : i < 4) (hj : j < 4) (ne : i ≠ j) :
      (typeAuxInfo + i) % NUM_SAO_BO_CLASSES ≠ (typeAuxInfo + j) % NUM_SAO_BO_CLASSES := by
    rw [size]
    omega
  have values : (List.range 4).map f = [f 0, f 1, f 2, f 3] := rfl
  have bands : List.range 4 = [0, 1, 2, 3] := rfl
  unfold CABACReader.setBands
  rw [values, bands]
  simp only [List.foldl_cons, List.foldl_nil, List.getD_cons_zero, List.getD_cons_succ]
  obtain rfl | rfl | rfl | rfl : k = 0 ∨ k = 1 ∨ k = 2 ∨ k = 3 := by omega
  · rw [update_of_ne (apart (by decide) (by decide) (by decide)),
      update_of_ne (apart (by decide) (by decide) (by decide)),
      update_of_ne (apart (by decide) (by decide) (by decide)), update_self]
  · rw [update_of_ne (apart (by decide) (by decide) (by decide)),
      update_of_ne (apart (by decide) (by decide) (by decide)), update_self]
  · rw [update_of_ne (apart (by decide) (by decide) (by decide)), update_self]
  · rw [update_self]

theorem reads_saoBands {maxOffsetQVal : Nat} (legal : LegalOffset maxOffsetQVal a)
    (new : a.modeIdc = .SAO_MODE_NEW) (type : a.typeIdc = SAO_TYPE_START_BO) {b : SAOOffset}
    (mode' : b.modeIdc = .SAO_MODE_NEW) (type' : b.typeIdc = SAO_TYPE_START_BO) :
    Reads (CABACWriter.codeSaoClass a compID) (CABACReader.readSaoBands b (absOffsets a))
      (fun _ b' => SameOffset a b') := by
  have position : a.typeAuxInfo < NUM_SAO_BO_CLASSES := by
    cases legal with
    | off mode => simp [mode] at new
    | band _ _ position => exact position
    | edge _ edge => omega
  unfold CABACWriter.codeSaoClass CABACReader.readSaoBands
  rw [if_pos type]
  refine Codes.bind (Codes.collect (CABACWriter.saoOffset a) _ fun k few => ?_) ?_
  · rw [absOffsets_getD (List.mem_range.mp few)]
    exact reads_saoOffsetSign _
  rintro _ _ rfl
  refine Codes.readerMap _ (reads_binsEP (by decide) position) ?_
  rintro _ _ rfl
  refine ⟨mode'.trans new.symm, fun _ => type'.trans type.symm, fun _ _ => rfl,
    fun _ _ k few => ?_, fun _ edge => absurd type edge⟩
  rw [setBands_offset b _ few]
  exact if_pos type

/-- The magnitudes of the classes, with the signs that they have. -/
theorem setEdges_offset {maxOffsetQVal : Nat} (legal : LegalOffset maxOffsetQVal a)
    (new : a.modeIdc = .SAO_MODE_NEW) (edge : a.typeIdc ≠ SAO_TYPE_START_BO) (b : SAOOffset)
    (typeIdc : Nat) {classIdx : Nat} (inside : classIdx ≤ SAO_CLASS_EO_FULL_PEAK) :
    (CABACReader.setEdges b typeIdc (absOffsets a)).offset classIdx = a.offset classIdx := by
  cases legal with
  | off mode => simp [mode] at new
  | band _ type => exact absurd type edge
  | edge _ _ _ valleys plain peaks =>
      have four : classIdx ≤ 4 := inside
      have abs (k : Nat) (few : k < 4) : (absOffsets a).getD k 0 =
          (a.offset (if k < SAO_CLASS_EO_PLAIN then k else k + 1)).natAbs := by
        rw [absOffsets_getD few]
        unfold CABACWriter.saoOffset
        rw [if_neg edge]
      unfold CABACReader.setEdges
      dsimp only
      rw [abs 0 (by decide), abs 1 (by decide), abs 2 (by decide), abs 3 (by decide)]
      have valley0 : 0 ≤ a.offset 0 := valleys 0 (by decide)
      have valley1 : 0 ≤ a.offset 1 := valleys 1 (by decide)
      have flat : a.offset 2 = 0 := plain
      have peak3 : a.offset 3 ≤ 0 := peaks 3 (by decide) (by decide)
      have peak4 : a.offset 4 ≤ 0 := peaks 4 (by decide) (by decide)
      obtain rfl | rfl | rfl | rfl | rfl :
        classIdx = 0 ∨ classIdx = 1 ∨ classIdx = 2 ∨ classIdx = 3 ∨ classIdx = 4 := by omega
      · exact Int.natAbs_of_nonneg valley0
      · exact Int.natAbs_of_nonneg valley1
      · exact flat.symm
      · show -((a.offset 3).natAbs : Int) = a.offset 3
        omega
      · show -((a.offset 4).natAbs : Int) = a.offset 4
        omega

/-- An edge class comes before the type of the bands. -/
theorem LegalOffset.edge_lt {maxOffsetQVal : Nat} (legal : LegalOffset maxOffsetQVal a)
    (new : a.modeIdc = .SAO_MODE_NEW) (edge : a.typeIdc ≠ SAO_TYPE_START_BO) :
    a.typeIdc < SAO_TYPE_START_BO := by
  cases legal with
  | off mode => simp [mode] at new
  | band _ type => exact absurd type edge
  | edge _ type => exact type

theorem reads_saoEdges {maxOffsetQVal : Nat} (legal : LegalOffset maxOffsetQVal a)
    (new : a.modeIdc = .SAO_MODE_NEW) (edge : a.typeIdc ≠ SAO_TYPE_START_BO) {b : SAOOffset}
    {typeIdcCb : Nat} (mode' : b.modeIdc = .SAO_MODE_NEW)
    (type' : compID ≠ .COMPONENT_Cr → b.typeIdc = SAO_TYPE_START_EO)
    (follows : compID = .COMPONENT_Cr → typeIdcCb = a.typeIdc) :
    Reads (CABACWriter.codeSaoClass a compID)
      (CABACReader.readSaoEdges compID b typeIdcCb (absOffsets a)) (fun _ b' => SameOffset a b') := by
  have class4 : a.typeIdc < 4 := legal.edge_lt new edge
  have read : Reads (CABACWriter.codeSaoClass a compID)
      (CABACReader.readSaoEoClass compID b.typeIdc typeIdcCb)
      (fun _ typeIdc => typeIdc = a.typeIdc) := by
    unfold CABACWriter.codeSaoClass CABACReader.readSaoEoClass
    rw [if_neg edge]
    by_cases second : compID = .COMPONENT_Cr
    · have notFirst : ¬ compID.isFirstCompOfChType = true := by
        simp [isFirstCompOfChType, second]
      rw [if_neg notFirst, if_neg (not_not.mpr second)]
      exact Codes.pure (follows second)
    · have first : compID.isFirstCompOfChType = true := by
        simp [isFirstCompOfChType, second]
      rw [if_pos first, if_pos second, type' second]
      refine Codes.writerCheck (.inr (Nat.not_lt_zero _)) fun _ => ?_
      refine Codes.readerMap _ (reads_binsEP (by decide) ?_) ?_
      · show a.typeIdc - 0 < 2 ^ 2
        omega
      · rintro _ _ rfl
        show 0 + (a.typeIdc - 0) = a.typeIdc
        omega
  refine Codes.readerMap _ read ?_
  rintro _ _ rfl
  exact ⟨mode'.trans new.symm, fun _ => rfl, fun _ band => absurd band edge,
    fun _ band => absurd band edge, fun _ _ classIdx inside =>
      setEdges_offset legal new edge b _ inside⟩

/-- What the reader knows of a component behind its type. -/
structure TypeRead (a : SAOOffset) (compID : ComponentID) (b : SAOOffset) : Prop where
  mode : b.modeIdc = a.modeIdc
  band : a.modeIdc = .SAO_MODE_NEW → (b.typeIdc = SAO_TYPE_START_BO ↔ a.typeIdc = SAO_TYPE_START_BO)
  edge : a.modeIdc = .SAO_MODE_NEW → a.typeIdc ≠ SAO_TYPE_START_BO → compID ≠ .COMPONENT_Cr →
    b.typeIdc = SAO_TYPE_START_EO

theorem LegalOffset.mode_cases {maxOffsetQVal : Nat} (legal : LegalOffset maxOffsetQVal a) :
    a.modeIdc = .SAO_MODE_OFF ∨ a.modeIdc = .SAO_MODE_NEW := by
  cases legal with
  | off mode => exact .inl mode
  | band mode => exact .inr mode
  | edge mode => exact .inr mode

theorem reads_saoTypeIdx {maxOffsetQVal : Nat} (legal : LegalOffset maxOffsetQVal a)
    (first : compID ≠ .COMPONENT_Cr) (off : (pars' compID).modeIdc = .SAO_MODE_OFF) :
    Reads (CABACWriter.codeSaoType a compID) (CABACReader.readSaoTypeIdx compID pars')
      (fun _ b => TypeRead a compID b) := by
  have isFirst : compID.isFirstCompOfChType = true := by simp [isFirstCompOfChType, first]
  unfold CABACWriter.codeSaoType CABACReader.readSaoTypeIdx CABACWriter.codeSaoTypeIdx
  dsimp only
  rw [if_pos isFirst, if_pos first]
  obtain mode | mode := legal.mode_cases
  · rw [if_pos mode]
    refine (reads_bin false _).readerAfter ?_
    rintro _ _ rfl
    refine ⟨pars' compID, Accepts.pure _, off.trans mode.symm, fun new => ?_, fun new => ?_⟩
    all_goals
      rw [mode] at new
      cases new
  · have on : ¬ a.modeIdc = .SAO_MODE_OFF := by simp [mode]
    rw [if_neg on]
    by_cases band : a.typeIdc = SAO_TYPE_START_BO
    · rw [if_pos band]
      refine Codes.bind (reads_bin true _) ?_
      rintro _ _ rfl
      refine Codes.readerMap _ (reads_binEP false) ?_
      rintro _ _ rfl
      exact ⟨mode.symm, fun _ => ⟨fun _ => band, fun _ => rfl⟩, fun _ edge => absurd band edge⟩
    · have edge : a.typeIdc < SAO_TYPE_START_BO := legal.edge_lt mode band
      rw [if_neg band]
      refine Codes.writerCheck (.inr (not_not.mpr edge)) fun _ => ?_
      refine Codes.bind (reads_bin true _) ?_
      rintro _ _ rfl
      refine Codes.readerMap _ (reads_binEP true) ?_
      rintro _ _ rfl
      refine ⟨mode.symm, fun _ => ⟨fun type => ?_, fun type => absurd type band⟩, fun _ _ _ => rfl⟩
      cases type

/-- Cr has the type of Cb. -/
theorem reads_saoTypeIdx_Cr (mode : (pars' .COMPONENT_Cb).modeIdc = a.modeIdc)
    (type : a.modeIdc = .SAO_MODE_NEW → (pars' .COMPONENT_Cb).typeIdc = a.typeIdc) :
    Reads (CABACWriter.codeSaoType a .COMPONENT_Cr)
      (CABACReader.readSaoTypeIdx .COMPONENT_Cr pars') (fun _ b => TypeRead a .COMPONENT_Cr b) := by
  unfold CABACWriter.codeSaoType CABACReader.readSaoTypeIdx
  refine Codes.pure ⟨mode, fun new => ?_, fun _ _ first => absurd rfl first⟩
  show (pars' .COMPONENT_Cb).typeIdc = _ ↔ _
  rw [type new]

theorem reads_saoNew (legal : LegalOffset (getMaxOffsetQVal (cs.bitDepth compID)) a)
    {b : SAOOffset} (read : TypeRead a compID b)
    (follows : compID = .COMPONENT_Cr → a.modeIdc = .SAO_MODE_NEW →
      (pars' .COMPONENT_Cb).typeIdc = a.typeIdc) :
    Reads (CABACWriter.codeSaoNew a compID (cs.bitDepth compID))
      (CABACReader.readSaoNew cs compID pars' b) (fun _ b' => SameOffset a b') := by
  unfold CABACWriter.codeSaoNew CABACReader.readSaoNew
  rw [read.mode]
  obtain mode | mode := legal.mode_cases
  · rw [if_neg (by simp [mode]), if_pos mode]
    exact Codes.pure (.of_off mode (read.mode.trans mode))
  · rw [if_pos mode, if_neg (by simp [mode])]
    refine Codes.bind (reads_saoOffsetAbs legal mode) ?_
    rintro _ _ rfl
    by_cases band : a.typeIdc = SAO_TYPE_START_BO
    · have band' := (read.band mode).mpr band
      rw [if_pos band']
      exact reads_saoBands legal mode band (read.mode.trans mode) band'
    · rw [if_neg fun band' => band ((read.band mode).mp band')]
      exact reads_saoEdges legal mode band (read.mode.trans mode)
        (fun first => read.edge mode band first) fun second => follows second mode

/-- A component with SAO: what the reader sets for it, and nothing else. -/
theorem reads_saoComponent (legal : LegalOffset (getMaxOffsetQVal (cs.bitDepth compID)) a)
    (off : (pars' compID).modeIdc = .SAO_MODE_OFF)
    (follows : compID = .COMPONENT_Cr → (pars' .COMPONENT_Cb).modeIdc = a.modeIdc ∧
      (a.modeIdc = .SAO_MODE_NEW → (pars' .COMPONENT_Cb).typeIdc = a.typeIdc)) :
    Reads (CABACWriter.saoOffsetPars a compID true (cs.bitDepth compID))
      (CABACReader.readSaoComponent cs pars' compID)
      (fun _ r => ∃ b, r = CABACReader.setPars pars' compID b ∧ SameOffset a b) := by
  have type : Reads (CABACWriter.codeSaoType a compID) (CABACReader.readSaoTypeIdx compID pars')
      (fun _ b => TypeRead a compID b) := by
    by_cases second : compID = .COMPONENT_Cr
    · subst second
      exact reads_saoTypeIdx_Cr (follows rfl).1 (follows rfl).2
    · exact reads_saoTypeIdx legal second off
  unfold CABACWriter.saoOffsetPars CABACReader.readSaoComponent
  rw [if_neg (by simp)]
  refine Codes.bind type ?_
  intro _ b read
  refine Codes.readerMap _ (reads_saoNew legal read fun second => (follows second).2) ?_
  intro _ b' same
  exact ⟨b', rfl, same⟩

/-! ## The parameters of a unit -/

/-- The parameters that a unit of a slice with SAO may have. Those of a merged one are merged for
luma and for every component with SAO. -/
inductive LegalSao (cs : CodingStructure) (ctu : Ctu) (pars : SAOBlkParam) : Prop where
  | merged (mergeType : Nat)
      (enabled : cs.saoEnabledLuma = true ∨ cs.sliceSaoChromaFlag = true)
      (avail : (mergeType = SAO_MERGE_LEFT ∧ ctu.leftAvail = true) ∨
        (mergeType = SAO_MERGE_ABOVE ∧ ctu.aboveAvail = true))
      (all : ∀ compID, compID = .COMPONENT_Y ∨ cs.sliceEnabled compID = true →
        (pars compID).modeIdc = .SAO_MODE_MERGE ∧ (pars compID).typeIdc = mergeType)
  | explicit
      (legal : ∀ compID, cs.sliceEnabled compID = true →
        LegalOffset (getMaxOffsetQVal (cs.bitDepth compID)) (pars compID))
      (off : ∀ compID, cs.sliceEnabled compID = false → (pars compID).modeIdc = .SAO_MODE_OFF)
      (mode : (pars .COMPONENT_Cr).modeIdc = (pars .COMPONENT_Cb).modeIdc)
      (type : (pars .COMPONENT_Cb).modeIdc = .SAO_MODE_NEW →
        (pars .COMPONENT_Cr).typeIdc = (pars .COMPONENT_Cb).typeIdc)

/-- The same parameters for luma, for the components with SAO, and for those that are off. -/
def SameSao (cs : CodingStructure) (pars pars' : SAOBlkParam) : Prop :=
  ∀ compID, compID = .COMPONENT_Y ∨ cs.sliceEnabled compID = true ∨
    (pars compID).modeIdc = .SAO_MODE_OFF → SameOffset (pars compID) (pars' compID)

/-- The parameters of the components that are done, while the others are off. -/
structure Done (pars : SAOBlkParam) (left : List ComponentID) (pars' : SAOBlkParam) : Prop where
  same : ∀ compID, compID ∉ left → SameOffset (pars compID) (pars' compID)
  off : ∀ compID, compID ∈ left → (pars' compID).modeIdc = .SAO_MODE_OFF

theorem Done.set {compID : ComponentID} {rest : List ComponentID} {b : SAOOffset}
    (done : Done pars (compID :: rest) pars') (new : compID ∉ rest)
    (same : SameOffset (pars compID) b) : Done pars rest (CABACReader.setPars pars' compID b) where
  same other outside := by
    unfold CABACReader.setPars
    by_cases own : other = compID
    · subst own
      rwa [update_self]
    · rw [update_of_ne own]
      exact done.same other (by simp [own, outside])
  off other inside := by
    unfold CABACReader.setPars
    have notOwn : other ≠ compID := fun own => new (own ▸ inside)
    rw [update_of_ne notOwn]
    exact done.off other (List.mem_cons_of_mem _ inside)

/-- In the order of the loop, no component comes twice and Cr comes behind Cb. -/
theorem order_of_suffix {compID : ComponentID} {rest : List ComponentID}
    (suffix : compID :: rest <:+ ComponentID.all) :
    compID ∉ rest ∧ (compID = .COMPONENT_Cr → ComponentID.COMPONENT_Cb ∉ compID :: rest) := by
  have all : ComponentID.all = [.COMPONENT_Y, .COMPONENT_Cb, .COMPONENT_Cr] := rfl
  simp only [all, List.suffix_cons_iff, List.cons.injEq, List.suffix_nil, reduceCtorEq, or_false]
    at suffix
  rcases suffix with ⟨rfl, rfl⟩ | ⟨rfl, rfl⟩ | ⟨rfl, rfl⟩
  · decide
  · decide
  · decide

theorem reads_saoComponents
    (legal : ∀ compID, cs.sliceEnabled compID = true →
      LegalOffset (getMaxOffsetQVal (cs.bitDepth compID)) (pars compID))
    (off : ∀ compID, cs.sliceEnabled compID = false → (pars compID).modeIdc = .SAO_MODE_OFF)
    (mode : (pars .COMPONENT_Cr).modeIdc = (pars .COMPONENT_Cb).modeIdc)
    (type : (pars .COMPONENT_Cb).modeIdc = .SAO_MODE_NEW →
      (pars .COMPONENT_Cr).typeIdc = (pars .COMPONENT_Cb).typeIdc)
    (left : List ComponentID) (suffix : left <:+ ComponentID.all) (done : Done pars left pars') :
    Reads (left.foldlM (fun _ compID =>
        CABACWriter.saoOffsetPars (pars compID) compID (cs.sliceEnabled compID) (cs.bitDepth compID)) ())
      ((left.filter cs.sliceEnabled).foldlM (CABACReader.readSaoComponent cs) pars')
      (fun _ r => Done pars [] r) := by
  induction left generalizing pars' with
  | nil => exact Codes.pure done
  | cons compID rest ih =>
      obtain ⟨new, behind⟩ := order_of_suffix suffix
      have suffix' := (List.suffix_cons compID rest).trans suffix
      have off' := done.off compID List.mem_cons_self
      rw [List.foldlM_cons]
      by_cases enabled : cs.sliceEnabled compID = true
      · rw [List.filter_cons_of_pos enabled, List.foldlM_cons, enabled]
        refine Codes.bind (reads_saoComponent (legal compID enabled) off' fun second => ?_) ?_
        · have first := done.same _ (behind second)
          subst second
          refine ⟨first.mode.trans mode.symm, fun on => ?_⟩
          rw [mode] at on
          rw [type on]
          exact first.type (by simp [on])
        · rintro _ _ ⟨b, rfl, same⟩
          exact ih suffix' (done.set new same)
      · have disabled : cs.sliceEnabled compID = false := by simpa using enabled
        rw [List.filter_cons_of_neg enabled, disabled]
        refine Codes.writerCheck (.inr (not_not.mpr (off compID disabled))) fun _ => ih suffix' ?_
        refine ⟨fun other outside => ?_, fun other inside =>
          done.off other (List.mem_cons_of_mem _ inside)⟩
        by_cases own : other = compID
        · subst own
          exact .of_off (off other disabled) off'
        · exact done.same other (by simp [own, outside])

theorem saoComponents_eq (some : cs.saoEnabledLuma = true ∨ cs.sliceSaoChromaFlag = true) :
    CABACReader.saoComponents cs = ComponentID.all.filter cs.sliceEnabled := by
  unfold CABACReader.saoComponents
  refine List.filter_congr fun compID _ => ?_
  unfold CodingStructure.sliceEnabled
  cases luma : cs.saoEnabledLuma <;> cases chroma : cs.sliceSaoChromaFlag
  · simp [luma, chroma] at some
  all_goals cases compID <;> rfl

/-- Whether a merge flag for `mergeType` would be set. -/
@[grind =] def merges (pars : SAOBlkParam) (mergeType : Nat) : Bool :=
  (pars .COMPONENT_Y).modeIdc = .SAO_MODE_MERGE ∧ (pars .COMPONENT_Y).typeIdc = mergeType

theorem reads_saoMergeLeft (pars : SAOBlkParam) (leftAvail : Bool) :
    Reads (CABACWriter.codeSaoMergeLeft pars leftAvail) (CABACReader.readSaoMergeLeft leftAvail)
      (fun isLeftMerge sao_merge_type => isLeftMerge = (leftAvail && merges pars SAO_MERGE_LEFT) ∧
        sao_merge_type = if isLeftMerge then 0 else -1) := by
  unfold CABACWriter.codeSaoMergeLeft CABACReader.readSaoMergeLeft
  by_cases avail : leftAvail = true
  · rw [if_pos avail, if_pos avail]
    refine Codes.bind (reads_bin (merges pars SAO_MERGE_LEFT) _) ?_
    rintro _ _ rfl
    refine Codes.pure ⟨by simp [avail, merges], ?_⟩
    show -1 + ((merges pars SAO_MERGE_LEFT).toNat : Int) = if merges pars SAO_MERGE_LEFT then 0 else -1
    cases merges pars SAO_MERGE_LEFT <;> rfl
  · rw [if_neg avail, if_neg avail]
    exact Codes.pure ⟨by simp [avail], rfl⟩

theorem reads_saoMergeAbove (pars : SAOBlkParam) (aboveAvail isLeftMerge : Bool) :
    Reads (CABACWriter.codeSaoMergeAbove pars aboveAvail isLeftMerge)
      (CABACReader.readSaoMergeAbove aboveAvail (if isLeftMerge then 0 else -1))
      (fun isAboveMerge sao_merge_type =>
        isAboveMerge = (aboveAvail && !isLeftMerge && merges pars SAO_MERGE_ABOVE) ∧
        sao_merge_type = if isLeftMerge then 0 else if isAboveMerge then 1 else -1) := by
  unfold CABACWriter.codeSaoMergeAbove CABACReader.readSaoMergeAbove
  cases isLeftMerge with
  | true =>
      rw [if_neg (by simp), if_neg (by simp)]
      exact Codes.pure ⟨by simp, rfl⟩
  | false =>
      by_cases avail : aboveAvail = true
      · rw [if_pos (by simp [avail]), if_pos (by simp [avail])]
        refine Codes.bind (reads_bin (merges pars SAO_MERGE_ABOVE) _) ?_
        rintro _ _ rfl
        refine Codes.pure ⟨by simp [avail, merges], ?_⟩
        show -1 + (((merges pars SAO_MERGE_ABOVE).toNat <<< 1 : Nat) : Int) =
          if merges pars SAO_MERGE_ABOVE then 1 else -1
        cases merges pars SAO_MERGE_ABOVE <;> rfl
      · rw [if_neg (by simp [avail]), if_neg (by simp [avail])]
        exact Codes.pure ⟨by simp [avail], rfl⟩

theorem sameSao_merge {mergeType : Nat} (some : cs.saoEnabledLuma = true ∨ cs.sliceSaoChromaFlag = true)
    (all : ∀ compID, compID = .COMPONENT_Y ∨ cs.sliceEnabled compID = true →
      (pars compID).modeIdc = .SAO_MODE_MERGE ∧ (pars compID).typeIdc = mergeType)
    (start : SAOBlkParam) :
    SameSao cs pars (CABACReader.saoMerge cs mergeType (CABACReader.saoOff start)) := by
  intro compID covered
  unfold CABACReader.saoMerge
  by_cases on : compID = .COMPONENT_Y ∨ cs.sliceEnabled compID = true
  · have set : (compID.isLuma = true ∧ (cs.saoEnabledLuma = true ∨ cs.sliceSaoChromaFlag = true)) ∨
        (compID.isChroma = true ∧ cs.sliceSaoChromaFlag = true) := by
      cases compID with
      | COMPONENT_Y => exact .inl ⟨rfl, some⟩
      | COMPONENT_Cb => exact .inr ⟨rfl, by simpa [CodingStructure.sliceEnabled, isLuma] using on⟩
      | COMPONENT_Cr => exact .inr ⟨rfl, by simpa [CodingStructure.sliceEnabled, isLuma] using on⟩
    obtain ⟨mode, type⟩ := all compID on
    rw [if_pos set]
    refine ⟨mode.symm, fun _ => type.symm, fun new => ?_, fun new => ?_, fun new => ?_⟩
    all_goals
      rw [mode] at new
      cases new
  · have off : (pars compID).modeIdc = .SAO_MODE_OFF := by
      obtain luma | enabled | off := covered
      · exact absurd (.inl luma) on
      · exact absurd (.inr enabled) on
      · exact off
    have unset : ¬ ((compID.isLuma = true ∧ (cs.saoEnabledLuma = true ∨ cs.sliceSaoChromaFlag = true)) ∨
        (compID.isChroma = true ∧ cs.sliceSaoChromaFlag = true)) := by
      cases compID with
      | COMPONENT_Y => exact absurd (.inl rfl) on
      | COMPONENT_Cb => simpa [CodingStructure.sliceEnabled, isLuma, isChroma] using on
      | COMPONENT_Cr => simpa [CodingStructure.sliceEnabled, isLuma, isChroma] using on
    rw [if_neg unset]
    exact .of_off off rfl

theorem reads_saoBlockPars (legal : LegalSao cs ctu pars)
    (some : cs.saoEnabledLuma = true ∨ cs.sliceSaoChromaFlag = true) (start : SAOBlkParam) :
    Reads (CABACWriter.saoBlockPars cs pars ctu.leftAvail ctu.aboveAvail)
      (CABACReader.saoBlockPars cs ctu (CABACReader.saoOff start)) (fun _ r => SameSao cs pars r) := by
  unfold CABACWriter.saoBlockPars CABACReader.saoBlockPars
  refine Codes.bind (reads_saoMergeLeft pars ctu.leftAvail) ?_
  rintro isLeftMerge _ ⟨left, rfl⟩
  refine Codes.bind (reads_saoMergeAbove pars ctu.aboveAvail isLeftMerge) ?_
  rintro isAboveMerge _ ⟨above, rfl⟩
  cases legal with
  | merged mergeType _ avail all =>
      obtain ⟨mode, type⟩ := all .COMPONENT_Y (.inl rfl)
      have same := sameSao_merge some all start
      obtain ⟨rfl, avail⟩ | ⟨rfl, avail⟩ := avail
      · have isLeft : isLeftMerge = true := by simp [left, avail, merges, mode, type]
        subst isLeft
        rw [if_neg (by simp), if_pos (by simp)]
        exact Codes.pure same
      · have notLeft : isLeftMerge = false := by
          simp [left, merges, type, SAO_MERGE_ABOVE, SAO_MERGE_LEFT]
        have isAbove : isAboveMerge = true := by simp [above, avail, notLeft, merges, mode, type]
        subst notLeft isAbove
        rw [if_neg (by simp), if_pos (by simp)]
        exact Codes.pure same
  | explicit legal off mode type =>
      have own : (pars .COMPONENT_Y).modeIdc ≠ .SAO_MODE_MERGE := by
        intro merged
        by_cases enabled : cs.sliceEnabled .COMPONENT_Y = true
        · obtain mode | mode := (legal _ enabled).mode_cases
          all_goals simp [merged] at mode
        · simp [off _ (by simpa using enabled)] at merged
      have notLeft : isLeftMerge = false := by simp [left, merges, own]
      have notAbove : isAboveMerge = false := by simp [above, merges, own]
      subst notLeft notAbove
      rw [if_pos (by simp), if_neg (by simp), saoComponents_eq some]
      refine (reads_saoComponents legal off mode type _ (List.suffix_refl _) ?_).weaken ?_
      · exact ⟨fun compID outside => absurd (by cases compID <;> decide) outside, fun _ _ => rfl⟩
      · exact fun _ r done compID _ => done.same compID (by simp)

theorem reads_sao {pic : Picture} (legal : cs.SAOEnabledFlag = true → LegalSao cs ctu (pic.sao ctu.ctuRsAddr))
    (pic' : Picture) :
    Reads (CABACWriter.sao cs pic ctu) (CABACReader.sao cs ctu pic')
      (fun _ r => (cs.SAOEnabledFlag = true →
          SameSao cs (pic.sao ctu.ctuRsAddr) (r.sao ctu.ctuRsAddr)) ∧
        ∃ pars, r = { pic' with sao := update pic'.sao ctu.ctuRsAddr pars }) := by
  unfold CABACWriter.sao CABACReader.sao
  by_cases tool : cs.SAOEnabledFlag = true
  · rw [if_neg (not_not.mpr tool), if_neg (not_not.mpr tool)]
    have read : Reads
        (if ¬ cs.saoEnabledLuma = true ∧ ¬ cs.sliceSaoChromaFlag = true then pure ()
          else CABACWriter.saoBlockPars cs (pic.sao ctu.ctuRsAddr) ctu.leftAvail ctu.aboveAvail)
        (CABACReader.readSaoPars cs ctu (CABACReader.saoOff (pic'.sao ctu.ctuRsAddr)))
        (fun _ pars => SameSao cs (pic.sao ctu.ctuRsAddr) pars) := by
      unfold CABACReader.readSaoPars
      by_cases none : ¬ cs.saoEnabledLuma = true ∧ ¬ cs.sliceSaoChromaFlag = true
      · rw [if_pos none, if_pos none]
        refine Codes.pure fun compID _ => ?_
        cases legal tool with
        | merged _ enabled => exact (not_or.mpr none enabled).elim
        | explicit _ off =>
            refine .of_off (off compID ?_) rfl
            obtain ⟨luma, chroma⟩ := none
            cases compID with
            | COMPONENT_Y => exact Bool.eq_false_iff.mpr luma
            | COMPONENT_Cb => exact Bool.eq_false_iff.mpr chroma
            | COMPONENT_Cr => exact Bool.eq_false_iff.mpr chroma
      · rw [if_neg none, if_neg none]
        exact reads_saoBlockPars (legal tool) (by tauto) _
    refine Codes.readerMap _ read fun _ pars same => ⟨fun _ => ?_, pars, rfl⟩
    show SameSao cs _ (update pic'.sao ctu.ctuRsAddr pars ctu.ctuRsAddr)
    rwa [update_self]
  · rw [if_pos tool, if_pos tool]
    refine Codes.pure ⟨fun on => absurd on tool, pic'.sao ctu.ctuRsAddr, ?_⟩
    rw [Function.update_eq_self]

/-! ## ALF -/

/-- The parameters that a unit may have where a component has ALF. The slice has an APS for a chroma
component with ALF. -/
structure LegalAlf (cs : CodingStructure) (ctu : Ctu) (pic : Picture) : Prop where
  filterIndex : cs.tileGroupAlfEnabledFlag .COMPONENT_Y = true →
    pic.alfCtuEnableFlag .COMPONENT_Y ctu.ctuRsAddr = true →
    pic.alfCtbFilterIndex ctu.ctuRsAddr < cs.tileGroupNumAps + NUM_FIXED_FILTER_SETS
  alternative : ∀ compIdx, compIdx.isChroma = true → cs.tileGroupAlfEnabledFlag compIdx = true →
    ∃ numAlts, cs.numAlternativesChroma = some numAlts ∧
      (pic.alfCtuEnableFlag compIdx ctu.ctuRsAddr = true →
        pic.alfCtuAlternativeData compIdx ctu.ctuRsAddr < numAlts)

theorem reads_alfFilterSet {filterSetIdx numAps : Nat}
    (legal : filterSetIdx < numAps + NUM_FIXED_FILTER_SETS) (few : numAps < 8) :
    Reads (CABACWriter.codeAlfFilterSet filterSetIdx numAps) (CABACReader.readAlfFilterSet numAps)
      (fun _ filtIndex => filtIndex = filterSetIdx) := by
  have sets : NUM_FIXED_FILTER_SETS = 16 := rfl
  have fixed (inside : filterSetIdx < NUM_FIXED_FILTER_SETS) (message : String) :
      Reads (CABACWriter.codeAlfFixedSet filterSetIdx message)
        (CABACReader.xReadTruncBinCode NUM_FIXED_FILTER_SETS)
        (fun _ filtIndex => filtIndex = filterSetIdx) :=
    Codes.writerCheck (.inr (by omega)) fun _ => reads_truncBinCode inside (by decide)
  unfold CABACWriter.codeAlfFilterSet CABACReader.readAlfFilterSet
  by_cases aps : numAps + NUM_FIXED_FILTER_SETS > NUM_FIXED_FILTER_SETS
  · rw [if_pos aps, if_pos aps]
    refine Codes.bind (reads_bin _ _) ?_
    rintro _ _ rfl
    by_cases temporal : NUM_FIXED_FILTER_SETS ≤ filterSetIdx
    · rw [if_pos (by simpa using temporal), if_pos (by simpa using temporal)]
      unfold CABACWriter.codeAlfTemporalSet CABACReader.readAlfTemporalSet CABACReader.readAlfApsIdx
      refine Codes.writerCheck (.inr (by omega)) fun _ => ?_
      by_cases several : numAps > 1
      · rw [if_pos several, if_pos several]
        refine Codes.readerMap _ (reads_truncBinCode (by omega) (by omega)) ?_
        rintro _ _ rfl
        omega
      · rw [if_neg several, if_neg several]
        refine Codes.pure ?_
        show 0 + NUM_FIXED_FILTER_SETS = filterSetIdx
        omega
    · rw [if_neg (by simpa using temporal), if_neg (by simpa using temporal)]
      exact fixed (by omega) _
  · rw [if_neg aps, if_neg aps]
    exact fixed (by omega) _

/-- Ones, closed by a zero below the largest value. -/
theorem reads_alfAlternative (ctxId : Ctx) {numOnes left : Nat} (legal : numOnes ≤ left)
    (decoded : Nat) :
    Reads (do
        CABACWriter.codeAlfOnes ctxId numOnes
        if numOnes < left then CABACWriter.encodeBin false ctxId)
      (CABACReader.readAlfAlternative ctxId left decoded)
      (fun _ value => value = decoded + numOnes) := by
  induction numOnes generalizing left decoded with
  | zero =>
      cases left with
      | zero => exact Codes.pure rfl
      | succ left =>
          show Reads (CABACWriter.encodeBin false ctxId) _ _
          unfold CABACReader.readAlfAlternative
          refine (reads_bin false ctxId).readerAfter ?_
          rintro _ _ rfl
          exact ⟨decoded, Accepts.pure _, rfl⟩
  | succ numOnes ih =>
      obtain ⟨left, rfl⟩ : ∃ more, left = more + 1 := ⟨left - 1, by omega⟩
      have same : numOnes + 1 < left + 1 ↔ numOnes < left := by omega
      simp only [CABACWriter.codeAlfOnes, CABACReader.readAlfAlternative, bind_assoc, same]
      refine Codes.bind (reads_bin true ctxId) ?_
      rintro _ _ rfl
      refine (ih (by omega) (decoded + 1)).weaken ?_
      rintro _ _ rfl
      omega

/-- Two pictures agree at a unit. -/
structure AgreeAt (addr : Nat) (a b : Picture) : Prop where
  sao : b.sao addr = a.sao addr
  flag : ∀ compIdx, b.alfCtuEnableFlag compIdx addr = a.alfCtuEnableFlag compIdx addr
  filterIndex : b.alfCtbFilterIndex addr = a.alfCtbFilterIndex addr
  alternative : ∀ compIdx, b.alfCtuAlternativeData compIdx addr = a.alfCtuAlternativeData compIdx addr

theorem AgreeAt.refl (addr : Nat) (a : Picture) : AgreeAt addr a a :=
  ⟨rfl, fun _ => rfl, rfl, fun _ => rfl⟩

theorem AgreeAt.trans {addr : Nat} {a b c : Picture} (first : AgreeAt addr a b)
    (second : AgreeAt addr b c) : AgreeAt addr a c where
  sao := second.sao.trans first.sao
  flag compIdx := (second.flag compIdx).trans (first.flag compIdx)
  filterIndex := second.filterIndex.trans first.filterIndex
  alternative compIdx := (second.alternative compIdx).trans (first.alternative compIdx)

/-- The ALF parameters that the slice of a unit gives it. -/
structure SameAlf (cs : CodingStructure) (addr : Nat) (left : List ComponentID)
    (pic r : Picture) : Prop where
  flag : ∀ compIdx ∉ left, cs.tileGroupAlfEnabledFlag compIdx = true →
    r.alfCtuEnableFlag compIdx addr = pic.alfCtuEnableFlag compIdx addr
  filterIndex : .COMPONENT_Y ∉ left → cs.tileGroupAlfEnabledFlag .COMPONENT_Y = true →
    pic.alfCtuEnableFlag .COMPONENT_Y addr = true →
    r.alfCtbFilterIndex addr = pic.alfCtbFilterIndex addr
  alternative : ∀ compIdx ∉ left, compIdx.isChroma = true →
    cs.tileGroupAlfEnabledFlag compIdx = true → pic.alfCtuEnableFlag compIdx addr = true →
    r.alfCtuAlternativeData compIdx addr = pic.alfCtuAlternativeData compIdx addr

/-- The components that are `left` still have the flags of `start`, and so has every other unit. -/
structure Waiting (addr : Nat) (left : List ComponentID) (start r : Picture) : Prop where
  sao : r.sao = start.sao
  flag : ∀ compIdx ∈ left, r.alfCtuEnableFlag compIdx = start.alfCtuEnableFlag compIdx
  others : ∀ other ≠ addr, AgreeAt other start r

theorem alfCtx_congr {pic r : Picture} {compIdx : ComponentID}
    (same : ∀ addr ∈ ctu.neighbours cs,
      r.alfCtuEnableFlag compIdx addr = pic.alfCtuEnableFlag compIdx addr) :
    alfCtx cs r ctu compIdx = alfCtx cs pic ctu compIdx := by
  unfold alfCtx
  rw [List.countP_congr fun addr inside => by rw [same addr inside]]

section

variable {pic r start : Picture} {compIdx : ComponentID} {rest left : List ComponentID}

@[simp] theorem setAlfFlag_self (flag : Bool) :
    (CABACReader.setAlfFlag r ctu compIdx flag).alfCtuEnableFlag compIdx ctu.ctuRsAddr = flag := by
  simp [CABACReader.setAlfFlag]

theorem setAlfFlag_of_ne {other : ComponentID} (ne : other ≠ compIdx) (flag : Bool) :
    (CABACReader.setAlfFlag r ctu compIdx flag).alfCtuEnableFlag other = r.alfCtuEnableFlag other := by
  simp [CABACReader.setAlfFlag, ne]

theorem agreeAt_setAlfFlag {other : Nat} (ne : other ≠ ctu.ctuRsAddr) (flag : Bool) :
    AgreeAt other r (CABACReader.setAlfFlag r ctu compIdx flag) where
  sao := rfl
  flag compID := by
    by_cases own : compID = compIdx
    · simp [CABACReader.setAlfFlag, own, ne]
    · rw [setAlfFlag_of_ne own]
  filterIndex := rfl
  alternative _ := rfl

/-- What a round of the loop does for its component, with the rest as it was. -/
structure Round (cs : CodingStructure) (ctu : Ctu) (pic : Picture) (compIdx : ComponentID)
    (r r' : Picture) : Prop where
  sao : r'.sao = r.sao
  others : ∀ other ≠ ctu.ctuRsAddr, AgreeAt other r r'
  flags : ∀ other ≠ compIdx, r'.alfCtuEnableFlag other = r.alfCtuEnableFlag other
  alternatives : ∀ other ≠ compIdx,
    r'.alfCtuAlternativeData other ctu.ctuRsAddr = r.alfCtuAlternativeData other ctu.ctuRsAddr
  keepsIndex : compIdx ≠ .COMPONENT_Y →
    r'.alfCtbFilterIndex ctu.ctuRsAddr = r.alfCtbFilterIndex ctu.ctuRsAddr
  flag : cs.tileGroupAlfEnabledFlag compIdx = true →
    r'.alfCtuEnableFlag compIdx ctu.ctuRsAddr = pic.alfCtuEnableFlag compIdx ctu.ctuRsAddr
  filterIndex : compIdx = .COMPONENT_Y → cs.tileGroupAlfEnabledFlag .COMPONENT_Y = true →
    pic.alfCtuEnableFlag .COMPONENT_Y ctu.ctuRsAddr = true →
    r'.alfCtbFilterIndex ctu.ctuRsAddr = pic.alfCtbFilterIndex ctu.ctuRsAddr
  alternative : compIdx.isChroma = true → cs.tileGroupAlfEnabledFlag compIdx = true →
    pic.alfCtuEnableFlag compIdx ctu.ctuRsAddr = true →
    r'.alfCtuAlternativeData compIdx ctu.ctuRsAddr = pic.alfCtuAlternativeData compIdx ctu.ctuRsAddr

theorem Round.waiting (round : Round cs ctu pic compIdx r start) (new : compIdx ∉ rest)
    {first : Picture} (waiting : Waiting ctu.ctuRsAddr (compIdx :: rest) first r) :
    Waiting ctu.ctuRsAddr rest first start where
  sao := round.sao.trans waiting.sao
  flag other inside := by
    have ne : other ≠ compIdx := fun own => new (own ▸ inside)
    rw [round.flags other ne]
    exact waiting.flag other (List.mem_cons_of_mem _ inside)
  others other ne := (waiting.others other ne).trans (round.others other ne)

theorem Round.sameAlf (round : Round cs ctu pic compIdx r start)
    (same : SameAlf cs ctu.ctuRsAddr (compIdx :: rest) pic r) :
    SameAlf cs ctu.ctuRsAddr rest pic start where
  flag other outside enabled := by
    by_cases own : other = compIdx
    · subst own
      exact round.flag enabled
    · rw [round.flags other own]
      exact same.flag other (by simp [own, outside]) enabled
  filterIndex outside enabled on := by
    by_cases own : ComponentID.COMPONENT_Y = compIdx
    · exact round.filterIndex own.symm enabled on
    · rw [round.keepsIndex fun luma => own luma.symm]
      exact same.filterIndex (by simp [own, outside]) enabled on
  alternative other outside chroma enabled on := by
    by_cases own : other = compIdx
    · subst own
      exact round.alternative chroma enabled on
    · rw [round.alternatives other own]
      exact same.alternative other (by simp [own, outside]) chroma enabled on

theorem Round.skip (disabled : ¬ cs.tileGroupAlfEnabledFlag compIdx = true) :
    Round cs ctu pic compIdx r r where
  sao := rfl
  others other _ := .refl other r
  flags _ _ := rfl
  alternatives _ _ := rfl
  keepsIndex _ := rfl
  flag enabled := absurd enabled disabled
  filterIndex own enabled := absurd (own ▸ enabled) disabled
  alternative _ enabled := absurd enabled disabled

/-- The luma component, without the filter set. -/
theorem Round.lumaOff (off : pic.alfCtuEnableFlag .COMPONENT_Y ctu.ctuRsAddr = false) :
    Round cs ctu pic .COMPONENT_Y r (CABACReader.setAlfFlag r ctu .COMPONENT_Y false) where
  sao := rfl
  others _ ne := agreeAt_setAlfFlag ne false
  flags _ ne := setAlfFlag_of_ne ne false
  alternatives _ _ := rfl
  keepsIndex _ := rfl
  flag _ := (setAlfFlag_self false).trans off.symm
  filterIndex _ _ on := by
    rw [off] at on
    cases on
  alternative chroma := nomatch chroma

/-- The luma component, with the filter set. -/
theorem Round.lumaOn (on : pic.alfCtuEnableFlag .COMPONENT_Y ctu.ctuRsAddr = true) :
    Round cs ctu pic .COMPONENT_Y r
      { CABACReader.setAlfFlag r ctu .COMPONENT_Y true with
        alfCtbFilterIndex := update r.alfCtbFilterIndex ctu.ctuRsAddr
          (pic.alfCtbFilterIndex ctu.ctuRsAddr) } where
  sao := rfl
  others other ne := by
    have set : AgreeAt other r (CABACReader.setAlfFlag r ctu .COMPONENT_Y true) :=
      agreeAt_setAlfFlag ne true
    exact ⟨set.sao, set.flag, update_of_ne ne _ _, set.alternative⟩
  flags _ ne := setAlfFlag_of_ne ne true
  alternatives _ _ := rfl
  keepsIndex chroma := absurd rfl chroma
  flag _ := by
    have set : (CABACReader.setAlfFlag r ctu .COMPONENT_Y true).alfCtuEnableFlag .COMPONENT_Y
        ctu.ctuRsAddr = true := setAlfFlag_self true
    exact set.trans on.symm
  filterIndex _ _ _ := update_self _ _ _
  alternative chroma := nomatch chroma

theorem Round.chroma (chroma : compIdx.isChroma = true) {flag : Bool}
    (coded : flag = pic.alfCtuEnableFlag compIdx ctu.ctuRsAddr) {decoded : Nat}
    (same : flag = true → decoded = pic.alfCtuAlternativeData compIdx ctu.ctuRsAddr) :
    Round cs ctu pic compIdx r
      (CABACReader.setAlfAlternative (CABACReader.setAlfFlag r ctu compIdx flag) ctu compIdx decoded) where
  sao := rfl
  others other ne := by
    have set : AgreeAt other r (CABACReader.setAlfFlag r ctu compIdx flag) :=
      agreeAt_setAlfFlag ne flag
    refine ⟨set.sao, set.flag, set.filterIndex, fun compID => ?_⟩
    by_cases own : compID = compIdx
    · subst own
      simp [CABACReader.setAlfAlternative, CABACReader.setAlfFlag, ne]
    · simp [CABACReader.setAlfAlternative, CABACReader.setAlfFlag, own]
  flags _ ne := setAlfFlag_of_ne ne flag
  alternatives other ne := by simp [CABACReader.setAlfAlternative, CABACReader.setAlfFlag, ne]
  keepsIndex _ := rfl
  flag _ := (setAlfFlag_self flag).trans coded
  filterIndex own := by
    subst own
    nomatch chroma
  alternative _ _ on := by
    rw [← same (coded.trans on)]
    simp [CABACReader.setAlfAlternative]

/-- Nothing is written for a component without ALF. -/
theorem silent_alfComponent (legal : LegalAlf cs ctu pic)
    (disabled : ¬ (cs.ALFEnabledFlag = true ∧ cs.tileGroupAlfEnabledFlag compIdx = true))
    (bins : List Bin) :
    (do CABACWriter.codeAlfCtuEnableFlag cs pic ctu compIdx
        CABACWriter.codeAlfChoice cs pic ctu compIdx : BinWriter Unit) bins = .ok ((), bins) := by
  unfold CABACWriter.codeAlfCtuEnableFlag CABACWriter.codeAlfChoice
  rw [if_neg disabled]
  show (if compIdx.isLuma = true then _ else if _ then _ else pure () : BinWriter Unit) bins = _
  by_cases luma : compIdx.isLuma = true
  · obtain rfl : compIdx = .COMPONENT_Y := by simpa [isLuma] using luma
    unfold CABACWriter.codeAlfCtuFilterIndex
    rw [if_pos luma, if_pos (not_and_or.mp disabled)]
    rfl
  · rw [if_neg luma]
    by_cases on : cs.tileGroupAlfEnabledFlag compIdx = true ∧
        pic.alfCtuEnableFlag compIdx ctu.ctuRsAddr = true
    · -- without ALF in the SPS
      have chroma : compIdx.isChroma = true := by simpa [isChroma] using luma
      obtain ⟨numAlts, aps, _⟩ := legal.alternative compIdx chroma on.1
      unfold CABACWriter.codeAlfCtuAlternative
      rw [if_pos on, aps]
      dsimp only
      rw [if_neg disabled]
      rfl
    · rw [if_neg on]
      rfl

theorem reads_alfComponent (legal : LegalAlf cs ctu pic) (few : cs.tileGroupNumAps < 8)
    (tool : cs.ALFEnabledFlag = true)
    (agree : ∀ addr ∈ ctu.neighbours cs, cs.tileGroupAlfEnabledFlag compIdx = true →
      r.alfCtuEnableFlag compIdx addr = pic.alfCtuEnableFlag compIdx addr) :
    Reads (do
        CABACWriter.codeAlfCtuEnableFlag cs pic ctu compIdx
        CABACWriter.codeAlfChoice cs pic ctu compIdx)
      (CABACReader.readAlfComponent cs ctu r compIdx) (fun _ r' => Round cs ctu pic compIdx r r') := by
  unfold CABACWriter.codeAlfCtuEnableFlag CABACReader.readAlfComponent CABACWriter.codeAlfChoice
  by_cases enabled : cs.tileGroupAlfEnabledFlag compIdx = true
  · rw [if_pos ⟨tool, enabled⟩, if_pos enabled, alfCtx_congr fun addr near => agree addr near enabled]
    refine Codes.bind (reads_bin _ _) ?_
    rintro _ flag coded
    unfold CABACReader.readAlfChoice
    by_cases luma : compIdx = .COMPONENT_Y
    · subst luma
      have first : ComponentID.COMPONENT_Y.isLuma = true := rfl
      rw [if_pos first, if_pos first]
      unfold CABACWriter.codeAlfCtuFilterIndex CABACReader.readAlfCtuFilterIndex
      rw [if_neg (by simp [tool, enabled]), ← coded]
      cases flag with
      | false =>
          rw [if_pos (by simp), if_neg (by simp)]
          exact Codes.pure (.lumaOff coded.symm)
      | true =>
          rw [if_neg (by simp), if_pos rfl]
          refine Codes.readerMap _ (reads_alfFilterSet (legal.filterIndex enabled coded.symm) few) ?_
          rintro _ _ rfl
          exact .lumaOn coded.symm
    · have chroma : compIdx.isChroma = true := by
        cases compIdx with
        | COMPONENT_Y => exact absurd rfl luma
        | COMPONENT_Cb => rfl
        | COMPONENT_Cr => rfl
      have notLuma : ¬ compIdx.isLuma = true := by simpa [isLuma] using luma
      obtain ⟨numAlts, aps, inside⟩ := legal.alternative compIdx chroma enabled
      rw [if_neg notLuma, if_neg notLuma]
      unfold CABACReader.readAlfCtuAlternative CABACReader.readAlfDecoded
        CABACWriter.codeAlfCtuAlternative
      rw [aps, ← coded]
      cases flag with
      | false =>
          rw [if_neg (by simp)]
          exact Codes.pure (.chroma chroma coded nofun)
      | true =>
          have below := inside coded.symm
          rw [if_pos ⟨enabled, rfl⟩]
          dsimp only
          rw [if_pos ⟨tool, enabled⟩, if_pos rfl, if_pos rfl]
          unfold CABACWriter.codeAlfAlternative
          refine Codes.writerCheck (.inr (not_not.mpr below)) fun _ => ?_
          refine Codes.readerMap _ (reads_alfAlternative _ (by omega) 0) ?_
          rintro _ _ rfl
          exact .chroma chroma coded fun _ => Nat.zero_add _
  · rw [if_neg enabled]
    exact Codes.silent (silent_alfComponent legal fun both => enabled both.2) (fun _ => rfl)
      (.skip enabled)

/-- The loop over the components of a slice with ALF for luma. -/
theorem reads_alfComponents (legal : LegalAlf cs ctu pic) (few : cs.tileGroupNumAps < 8)
    (tool : cs.ALFEnabledFlag = true)
    (agree : ∀ addr ∈ ctu.neighbours cs, ∀ compIdx, cs.tileGroupAlfEnabledFlag compIdx = true →
      start.alfCtuEnableFlag compIdx addr = pic.alfCtuEnableFlag compIdx addr) :
    Reads (CABACWriter.codeAlf cs pic ctu)
      (ComponentID.all.foldlM (CABACReader.readAlfComponent cs ctu) start)
      (fun _ r => Waiting ctu.ctuRsAddr [] start r ∧ SameAlf cs ctu.ctuRsAddr [] pic r) := by
  unfold CABACWriter.codeAlf
  refine (Codes.foldlM (fun left left' _ r => left = left' ∧ left.Nodup ∧
      Waiting ctu.ctuRsAddr left start r ∧ SameAlf cs ctu.ctuRsAddr left pic r) ?_
    ComponentID.all ComponentID.all rfl ⟨rfl, by decide, ?_, ?_⟩).weaken ?_
  · rintro compIdx rest compIdx' rest' _ r ⟨same, once, waiting, done⟩
    obtain ⟨rfl, rfl⟩ := List.cons.inj same
    obtain ⟨new, once'⟩ := List.nodup_cons.mp once
    refine (reads_alfComponent legal few tool fun addr near enabled => ?_).weaken ?_
    · rw [waiting.flag compIdx List.mem_cons_self]
      exact agree addr near compIdx enabled
    · exact fun _ r' round => ⟨rfl, once', round.waiting new waiting, round.sameAlf done⟩
  · exact ⟨rfl, fun _ _ => rfl, fun other _ => .refl other start⟩
  · have all (compIdx : ComponentID) : compIdx ∈ ComponentID.all := by cases compIdx <;> decide
    exact ⟨fun compIdx outside => absurd (all compIdx) outside,
      fun outside => absurd (all _) outside, fun compIdx outside => absurd (all compIdx) outside⟩
  · exact fun _ r left => left.2.2

/-- What the headers say of ALF: flags for chroma only stand behind that for luma, and the number of
APSs has three bits. -/
structure CarriedAlf (cs : CodingStructure) : Prop where
  luma : ∀ compIdx, cs.tileGroupAlfEnabledFlag compIdx = true →
    cs.tileGroupAlfEnabledFlag .COMPONENT_Y = true
  numAps : cs.tileGroupNumAps < 8

theorem reads_alf (carried : CarriedAlf cs) (legal : LegalAlf cs ctu pic)
    (agree : ∀ addr ∈ ctu.neighbours cs, ∀ compIdx, cs.ALFEnabledFlag = true →
      cs.tileGroupAlfEnabledFlag compIdx = true →
      start.alfCtuEnableFlag compIdx addr = pic.alfCtuEnableFlag compIdx addr) :
    Reads (CABACWriter.codeAlf cs pic ctu) (CABACReader.readAlf cs ctu start)
      (fun _ r => Waiting ctu.ctuRsAddr [] start r ∧
        (cs.ALFEnabledFlag = true → SameAlf cs ctu.ctuRsAddr [] pic r)) := by
  unfold CABACReader.readAlf
  by_cases present : cs.ALFEnabledFlag = true ∧ cs.tileGroupAlfEnabledFlag .COMPONENT_Y = true
  · rw [if_pos present]
    refine (reads_alfComponents legal carried.numAps present.1 fun addr near compIdx enabled =>
      agree addr near compIdx present.1 enabled).weaken ?_
    exact fun _ r both => ⟨both.1, fun _ => both.2⟩
  · rw [if_neg present]
    have disabled (compIdx : ComponentID) :
        ¬ (cs.ALFEnabledFlag = true ∧ cs.tileGroupAlfEnabledFlag compIdx = true) :=
      fun both => present ⟨both.1, carried.luma compIdx both.2⟩
    have waiting : Waiting ctu.ctuRsAddr [] start start :=
      ⟨rfl, fun _ _ => rfl, fun other _ => .refl other start⟩
    refine Codes.silent (a := ()) (fun bins => ?_) (fun _ => rfl) ⟨waiting, fun tool => ?_⟩
    · unfold CABACWriter.codeAlf
      have all : ComponentID.all = [.COMPONENT_Y, .COMPONENT_Cb, .COMPONENT_Cr] := rfl
      rw [all]
      simp only [List.foldlM_cons, List.foldlM_nil]
      rw [bind_run (silent_alfComponent legal (disabled .COMPONENT_Y) bins),
        bind_run (silent_alfComponent legal (disabled .COMPONENT_Cb) bins),
        bind_run (silent_alfComponent legal (disabled .COMPONENT_Cr) bins)]
      rfl
    · have off (compIdx : ComponentID) : cs.tileGroupAlfEnabledFlag compIdx = true → False :=
        fun enabled => disabled compIdx ⟨tool, enabled⟩
      exact ⟨fun compIdx _ enabled => (off compIdx enabled).elim,
        fun _ enabled => (off _ enabled).elim,
        fun compIdx _ _ enabled => (off compIdx enabled).elim⟩

/-! ## A unit, and the units of a slice -/

/-- The parameters that a unit may have. -/
structure Legal (cs : CodingStructure) (pic : Picture) (ctu : Ctu) : Prop where
  sao : cs.SAOEnabledFlag = true → LegalSao cs ctu (pic.sao ctu.ctuRsAddr)
  alf : LegalAlf cs ctu pic

/-- The same parameters at a unit. -/
structure SameUnit (cs : CodingStructure) (addr : Nat) (pic r : Picture) : Prop where
  sao : cs.SAOEnabledFlag = true → SameSao cs (pic.sao addr) (r.sao addr)
  alf : cs.ALFEnabledFlag = true → SameAlf cs addr [] pic r

theorem SameUnit.congr {addr : Nat} (same : SameUnit cs addr pic start) (agree : AgreeAt addr start r) :
    SameUnit cs addr pic r where
  sao tool := by
    rw [agree.sao]
    exact same.sao tool
  alf tool := {
    flag := fun compIdx new enabled => (agree.flag compIdx).trans ((same.alf tool).flag compIdx new enabled)
    filterIndex := fun new enabled on =>
      agree.filterIndex.trans ((same.alf tool).filterIndex new enabled on)
    alternative := fun compIdx new chroma enabled on =>
      (agree.alternative compIdx).trans ((same.alf tool).alternative compIdx new chroma enabled on) }

theorem reads_codingTreeUnit (carried : CarriedAlf cs) (legal : Legal cs pic ctu)
    (agree : ∀ addr ∈ ctu.neighbours cs, SameUnit cs addr pic start) :
    Reads (CABACWriter.codingTreeUnit cs pic ctu) (CABACReader.codingTreeUnit cs ctu start)
      (fun _ r => SameUnit cs ctu.ctuRsAddr pic r ∧ ∀ other ≠ ctu.ctuRsAddr, AgreeAt other start r) := by
  unfold CABACWriter.codingTreeUnit CABACReader.codingTreeUnit
  refine Codes.bind (reads_sao legal.sao start) ?_
  rintro _ _ ⟨sao, pars, rfl⟩
  refine (reads_alf carried legal.alf fun addr near compIdx tool enabled => ?_).weaken ?_
  · exact ((agree addr near).alf tool).flag compIdx (by simp) enabled
  · intro _ r ⟨waiting, alf⟩
    refine ⟨⟨fun tool => ?_, alf⟩, fun other ne => ?_⟩
    · rw [waiting.sao]
      exact sao tool
    · have set : AgreeAt other start
          { start with sao := update start.sao ctu.ctuRsAddr pars } :=
        ⟨update_of_ne ne _ _, fun _ => rfl, rfl, fun _ => rfl⟩
      exact set.trans (waiting.others other ne)

end

/-- What the slice data has behind the parameters of a unit. The reader takes it as it was written,
and it leaves the parameters alone. -/
structure CodingTree where
  code : Ctu → BinWriter Unit
  read : Ctu → BinReader Unit
  reads : ∀ ctu, Reads (code ctu) (read ctu) fun _ _ => True

/-- The units of a slice in the order of their coding: no address comes twice, and a neighbour has
been coded before. -/
inductive SliceUnits (cs : CodingStructure) : List Ctu → Prop where
  | nil : SliceUnits cs []
  | snoc {units : List Ctu} {ctu : Ctu} (before : SliceUnits cs units)
      (new : ∀ unit ∈ units, unit.ctuRsAddr ≠ ctu.ctuRsAddr)
      (neighbours : ∀ addr ∈ ctu.neighbours cs, ∃ unit ∈ units, unit.ctuRsAddr = addr) :
      SliceUnits cs (units ++ [ctu])

/-- Write the units of a slice. -/
def codeUnits (cs : CodingStructure) (tree : CodingTree) (pic : Picture) (units : List Ctu) :
    BinWriter Unit :=
  units.foldlM (fun _ ctu => do
    CABACWriter.codingTreeUnit cs pic ctu
    tree.code ctu) ()

/-- Read the units of a slice. -/
def readUnits (cs : CodingStructure) (tree : CodingTree) (units : List Ctu) (pic : Picture) :
    BinReader Picture :=
  units.foldlM (fun pic ctu => do
    let pic ← CABACReader.codingTreeUnit cs ctu pic
    tree.read ctu
    return pic) pic

theorem reads_units {units : List Ctu} {pic : Picture} (carried : CarriedAlf cs) (tree : CodingTree)
    (slice : SliceUnits cs units) (legal : ∀ ctu ∈ units, Legal cs pic ctu) (start : Picture) :
    Reads (codeUnits cs tree pic units) (readUnits cs tree units start)
      (fun _ r => (∀ ctu ∈ units, SameUnit cs ctu.ctuRsAddr pic r) ∧
        ∀ other, (∀ ctu ∈ units, other ≠ ctu.ctuRsAddr) → AgreeAt other start r) := by
  induction slice with
  | nil => exact Codes.pure ⟨nofun, fun other _ => .refl other start⟩
  | @snoc units ctu before new neighbours ih =>
      unfold codeUnits readUnits
      rw [List.foldlM_append, List.foldlM_append]
      refine Codes.bind (ih fun unit inside => legal unit (by simp [inside])) ?_
      rintro _ r ⟨done, untouched⟩
      rw [List.foldlM_cons, List.foldlM_cons]
      simp only [List.foldlM_nil, bind_assoc, pure_bind]
      have agree : ∀ addr ∈ ctu.neighbours cs, SameUnit cs addr pic r := by
        intro addr near
        obtain ⟨unit, inside, rfl⟩ := neighbours addr near
        exact done unit inside
      refine Codes.bind (reads_codingTreeUnit carried (legal ctu (by simp)) agree) ?_
      rintro _ r' ⟨own, others⟩
      refine Codes.bind (tree.reads ctu) fun _ _ _ => Codes.pure ⟨?_, ?_⟩
      · intro unit inside
        obtain earlier | last := List.mem_append.mp inside
        · exact (done unit earlier).congr (others _ (new unit earlier))
        · rw [List.mem_singleton.mp last]
          exact own
      · intro other outside
        exact (untouched other fun unit inside => outside unit (by simp [inside])).trans
          (others other (outside ctu (by simp)))

/-- The parameters of a slice survive: what its units have written, with whatever comes behind, is
taken by the reader bin by bin. -/
def Survive (cs : CodingStructure) (tree : CodingTree) (units : List Ctu) (pic start : Picture) :
    Prop :=
  ∃ bins r, codeUnits cs tree pic units [] = .ok ((), bins) ∧
    (∀ rest, readUnits cs tree units start (bins ++ rest) = .ok (r, rest)) ∧
    ∀ ctu ∈ units, SameUnit cs ctu.ctuRsAddr pic r

/-- In a slice that the headers can carry, the SAO and ALF parameters of the units are read back,
from any picture that the reader starts with. -/
theorem parameters_survive {units : List Ctu} {pic : Picture} (carried : CarriedAlf cs)
    (tree : CodingTree) (slice : SliceUnits cs units) (legal : ∀ ctu ∈ units, Legal cs pic ctu)
    (start : Picture) : Survive cs tree units pic start := by
  obtain ⟨bins, _, r, run, ⟨same, _⟩, read⟩ :=
    taken_of_reads (reads_units carried tree slice legal start)
  exact ⟨bins, r, run, read, same⟩

/-- A slice with all of it, on samples of 10 bits, with two APSs for luma and three alternatives for
chroma. -/
def sampleSlice : CodingStructure where
  SAOEnabledFlag := true
  ALFEnabledFlag := true
  chromaFormatIdc := .CHROMA_420
  bitDepth _ := 10
  saoEnabledLuma := true
  saoEnabledChroma := true
  tileGroupAlfEnabledFlag _ := true
  tileGroupNumAps := 2
  numAlternativesChroma := some 3
  widthInCtus := 2

/-- A tree of one bin. -/
def sampleTree : CodingTree where
  code _ := CABACWriter.encodeBinEP true
  read _ := do
    let _ ← CABACReader.decodeBinEP
    return ()
  reads _ := (reads_binEP true).readerMap (fun _ => ()) fun _ _ _ => trivial

/-- The first unit of the picture, and the one to its right. -/
def sampleUnits : List Ctu := [⟨0, false, false⟩, ⟨1, true, false⟩]

/-- Bands for luma and edges for chroma in the first unit, both merged into the second. -/
def sampleSao (ctuRsAddr : Nat) (compID : ComponentID) : SAOOffset where
  modeIdc := if ctuRsAddr = 0 then .SAO_MODE_NEW else .SAO_MODE_MERGE
  typeIdc := if ctuRsAddr = 0 then if compID.isLuma then SAO_TYPE_START_BO else 2 else SAO_MERGE_LEFT
  typeAuxInfo := if ctuRsAddr = 0 then if compID.isLuma then 30 else 0 else 0
  offset k := if compID.isLuma then if k = 30 then -31 else if k = 1 then 7 else 0
    else if k = 0 then 3 else if k = 4 then -1 else 0

def samplePicture : Picture where
  sao := sampleSao
  alfCtuEnableFlag compIdx ctuRsAddr := compIdx ≠ .COMPONENT_Cr ∨ ctuRsAddr = 0
  alfCtbFilterIndex ctuRsAddr := 17 - ctuRsAddr
  alfCtuAlternativeData _ ctuRsAddr := 2 - ctuRsAddr

/-- What a reader may start with. -/
def blankPicture : Picture where
  sao _ _ := ⟨.SAO_MODE_OFF, 0, 0, fun _ => 0⟩
  alfCtuEnableFlag _ _ := false
  alfCtbFilterIndex _ := 0
  alfCtuAlternativeData _ _ := 0

theorem parameters_survive_sample :
    Survive sampleSlice sampleTree sampleUnits samplePicture blankPicture := by
  have alf (ctu : Ctu) : LegalAlf sampleSlice ctu samplePicture :=
    ⟨fun _ _ => show 17 - ctu.ctuRsAddr < 18 by omega,
      fun _ _ _ => ⟨3, rfl, fun _ => show 2 - ctu.ctuRsAddr < 3 by omega⟩⟩
  have first : SliceUnits sampleSlice [⟨0, false, false⟩] :=
    SliceUnits.nil.snoc (by decide) (by decide)
  have slice : SliceUnits sampleSlice sampleUnits := first.snoc (by decide) (by decide)
  refine parameters_survive ⟨fun _ _ => rfl, by decide⟩ sampleTree slice ?_ blankPicture
  intro ctu inside
  refine ⟨fun _ => ?_, alf ctu⟩
  obtain rfl | rfl : ctu = ⟨0, false, false⟩ ∨ ctu = ⟨1, true, false⟩ := by
    simpa [sampleUnits] using inside
  · have peaks (classIdx : Nat) (behind : SAO_CLASS_EO_PLAIN < classIdx) :
        (if classIdx = 0 then (3 : Int) else if classIdx = 4 then -1 else 0) ≤ 0 := by
      rw [if_neg (Nat.ne_of_gt (Nat.zero_lt_of_lt behind))]
      split <;> decide
    refine .explicit (fun compID _ => ?_) (fun compID => ?_) rfl fun _ => rfl
    · cases compID with
      | COMPONENT_Y => exact .band rfl rfl (by decide) (by decide)
      | COMPONENT_Cb =>
          exact .edge rfl (by decide) (by decide) (by decide) rfl fun k behind _ => peaks k behind
      | COMPONENT_Cr =>
          exact .edge rfl (by decide) (by decide) (by decide) rfl fun k behind _ => peaks k behind
    · cases compID <;> nofun
  · exact .merged SAO_MERGE_LEFT (.inl rfl) (.inl ⟨rfl, rfl⟩) fun _ _ => ⟨rfl, rfl⟩

/-- The same slice without ALF for luma. -/
def chromaAlone : CodingStructure :=
  { sampleSlice with tileGroupAlfEnabledFlag := fun compIdx => compIdx.isChroma }

/-- The writer does not look at the flag of luma in front of those of chroma, and the reader does: the
flags of chroma are left for the tree. -/
theorem chromaAlone_not_survive :
    Legal chromaAlone blankPicture ⟨0, false, false⟩ ∧
      SliceUnits chromaAlone [⟨0, false, false⟩] ∧
      ¬ Survive chromaAlone sampleTree [⟨0, false, false⟩] blankPicture blankPicture := by
  refine ⟨⟨fun _ => ?_, nofun, fun _ _ _ => ⟨3, rfl, nofun⟩⟩,
    SliceUnits.nil.snoc (by decide) (by decide), ?_⟩
  · exact .explicit (fun _ _ => .off rfl) (fun _ _ => rfl) rfl nofun
  · rintro ⟨bins, r, run, read, _⟩
    have written : codeUnits chromaAlone sampleTree blankPicture [⟨0, false, false⟩] [] = .ok ((),
      [.ctx ⟨.SaoTypeIdx, 0⟩ false, .ctx ⟨.SaoTypeIdx, 0⟩ false, .ctx ⟨.ctbAlfFlag, 3⟩ false,
        .ctx ⟨.ctbAlfFlag, 6⟩ false, .ep true]) := rfl
    obtain rfl := congrArg Prod.snd (Except.ok.inj (written.symm.trans run))
    cases read []

end Vtm.RoundTrip.SaoAlf
