import Vtm.RoundTrip.VLC
import Vtm.Encoder.APS
import Vtm.Decoder.APS

/-!
# Reading back adaptation parameter sets

The Golomb code of the filter coefficients, the filter sets, the luma mapping and the
parameter set around them.
-/

namespace Vtm.AdaptationSets

open Vtm.Std Vtm.VLCWriter Vtm.VLCReader Vtm.RoundTrip.VLC

/-! ## The Golomb code -/

section Golomb

variable {fifo : List UInt8} {locations : List Nat}

/-- The prefix loop moves what it takes from the symbol into the order: their sum with the
order as a power of two does not change. -/
theorem golombPrefix_run (symbol k : Nat) {s : OutputBitstream} (wf : s.WellFormed) :
    ∃ rest zeros s', golombPrefix symbol k s = .ok ((rest, k + zeros), s') ∧ s'.WellFormed ∧
      s'.bits = s.bits ++ List.replicate zeros false ∧
      rest < 2 ^ (k + zeros) ∧ rest + 2 ^ (k + zeros) = symbol + 2 ^ k := by
  induction symbol, k using golombPrefix.induct generalizing s with
  | case1 symbol k more ih =>
      obtain ⟨t, wrote, wf', bits⟩ := write_run wf 1 0 (by decide) (by decide)
      obtain ⟨rest, zeros, s', run, wf₂, bits', small, kept⟩ := ih wf'
      refine ⟨rest, zeros + 1, s', ?_, wf₂, ?_, ?_, ?_⟩
      · have flag : xWriteFlag 0 s = .ok ((), t) := wrote
        rw [golombPrefix, if_pos more, bind_run flag, run, Nat.add_right_comm, Nat.add_assoc]
      · have zero : toBits 1 0 = [false] := rfl
        rw [bits', bits, zero, List.append_assoc]
        rfl
      · rwa [Nat.add_right_comm, Nat.add_assoc] at small
      · rw [Nat.add_right_comm, Nat.add_assoc] at kept
        rw [kept, pow_succ]
        omega
  | case2 symbol k less =>
      refine ⟨symbol, 0, s, ?_, wf, by simp, by simpa using less, by simp⟩
      rw [golombPrefix, if_neg less]
      rfl

/-- A run of zeros and the one that ends it. -/
theorem accepts_golombZeros (zeros fuel start : Nat) (enough : zeros < fuel) :
    Accepts (inputView fifo locations) (golombZeros fuel start)
      (List.replicate zeros false ++ [true]) (start + zeros) := by
  induction zeros generalizing fuel start with
  | zero =>
      obtain ⟨fuel, rfl⟩ : ∃ rounds, fuel = rounds + 1 := ⟨fuel - 1, by omega⟩
      have one : Accepts (inputView fifo locations) xReadFlag [true] 1 :=
        accepts_read 1 1 (by decide) (by decide)
      exact one.last (Accepts.pure start)
  | succ zeros ih =>
      obtain ⟨fuel, rfl⟩ : ∃ rounds, fuel = rounds + 1 := ⟨fuel - 1, by omega⟩
      have zero : Accepts (inputView fifo locations) xReadFlag [false] 0 :=
        accepts_read 1 0 (by decide) (by decide)
      have later := ih fuel (start + 1) (by omega)
      rw [Nat.add_right_comm, Nat.add_assoc] at later
      exact zero.bind later

theorem accepts_golombLeadingBits (zeros : Nat) :
    Accepts (inputView fifo locations) golombLeadingBits (List.replicate zeros false ++ [true])
      zeros := by
  refine accepts_unreadBits (fun rounds => golombZeros rounds 0) fun fuel enough => ?_
  simpa using accepts_golombZeros zeros fuel 0 enough

/-- The prefix with the one behind it. -/
theorem codes_golombPrefix (symbol k : Nat) :
    Codes False outputView (inputView fifo locations)
      (do
        let rest ← golombPrefix symbol k
        xWriteFlag 1
        return rest)
      golombLeadingBits
      (fun rest zeros => rest.2 = k + zeros ∧ rest.1 < 2 ^ rest.2 ∧
        rest.1 + 2 ^ rest.2 = symbol + 2 ^ k) := by
  intro s wf
  obtain ⟨rest, zeros, t, run, wf', bits, small, kept⟩ := golombPrefix_run symbol k wf
  obtain ⟨s', wrote, wf₂, bits'⟩ := write_run wf' 1 1 (by decide) (by decide)
  have flag : xWriteFlag 1 t = .ok ((), s') := wrote
  have one : toBits 1 1 = [true] := rfl
  refine Or.inr ⟨(rest, k + zeros), s', List.replicate zeros false ++ [true], zeros, ?_, wf₂, ?_,
    ⟨rfl, small, kept⟩, accepts_golombLeadingBits zeros⟩
  · rw [bind_run run, bind_run flag]
    rfl
  · show s'.bits = s.bits ++ _
    rw [bits', bits, one, List.append_assoc]

/-- The suffix makes up the symbol. -/
theorem codes_golombSuffix {symbol k rest zeros : Nat} (small : rest < 2 ^ (k + zeros))
    (kept : rest + 2 ^ (k + zeros) = symbol + 2 ^ k) (width : k + zeros ≤ 32) :
    Codes False outputView (inputView fifo locations) (golombSuffix rest (k + zeros))
      (golombSymbol k zeros) (fun _ read => read = symbol) := by
  have positive := Nat.two_pow_pos k
  have power : (2 ^ zeros - 1) * 2 ^ k + 2 ^ k = 2 ^ (k + zeros) := by
    rw [Nat.sub_mul, Nat.one_mul, Nat.sub_add_cancel, Nat.pow_add, Nat.mul_comm]
    exact Nat.le_mul_of_pos_left _ (Nat.two_pow_pos zeros)
  unfold golombSuffix golombSymbol
  dsimp only
  rw [Nat.add_comm zeros k]
  by_cases some : k + zeros > 0
  · rw [if_pos some, if_pos some]
    refine Codes.readerMap _ (codes_code some width (Or.inl small)) ?_
    rintro _ _ rfl
    omega
  · rw [if_neg some, if_neg some]
    refine Codes.pure ?_
    have none : k + zeros = 0 := by omega
    rw [none] at small kept power
    omega

theorem codes_golombSign (coeff : Int) (signedCoeff : Bool) :
    Codes False outputView (inputView fifo locations) (golombSign coeff signedCoeff)
      (golombSigned coeff.natAbs signedCoeff)
      (fun _ read => read = if signedCoeff then coeff else coeff.natAbs) := by
  unfold golombSign golombSigned
  by_cases coded : signedCoeff = true ∧ coeff ≠ 0
  · have magnitude : signedCoeff = true ∧ coeff.natAbs ≠ 0 := ⟨coded.1, by omega⟩
    rw [if_pos coded, if_pos magnitude, if_pos coded.1]
    have bit : (if coeff < 0 then 1 else 0) < 2 := by split <;> decide
    refine Codes.readerMap _ (codes_flag (Or.inl bit)) ?_
    rintro _ _ rfl
    by_cases negative : coeff < 0
    · simp only [if_pos negative]
      rw [if_pos (by decide)]
      omega
    · simp only [if_neg negative]
      rw [if_neg (by decide)]
      omega
  · have magnitude : ¬ (signedCoeff = true ∧ coeff.natAbs ≠ 0) := by
      rintro ⟨yes, some⟩
      exact coded ⟨yes, by omega⟩
    rw [if_neg coded, if_neg magnitude]
    refine Codes.pure ?_
    split
    · next yes =>
        have zero : coeff = 0 := by
          by_contra some
          exact coded ⟨yes, some⟩
        rw [zero]
        rfl
    · rfl

/-- `alfGolombEncode` and `alfGolombDecode` of any order, as long as nothing leaves the
range of an `int`. -/
theorem codes_alfGolomb {coeff : Int} {k : Nat} (word : coeff.natAbs + 2 ^ k < 2 ^ 31)
    (signedCoeff : Bool) :
    Codes False outputView (inputView fifo locations) (alfGolombEncode coeff k signedCoeff)
      (alfGolombDecode k signedCoeff)
      (fun _ read => read = if signedCoeff then coeff else coeff.natAbs) := by
  have parts : alfGolombEncode coeff k signedCoeff = (do
      let rest ← (do
        let rest ← golombPrefix coeff.natAbs k
        xWriteFlag 1
        return rest)
      golombSuffix rest.1 rest.2
      golombSign coeff signedCoeff) := by
    simp only [alfGolombEncode, bind_assoc, pure_bind]
  rw [parts]
  refine (codes_golombPrefix coeff.natAbs k).bind ?_
  rintro ⟨rest, _⟩ zeros ⟨rfl, small, kept⟩
  have width : k + zeros ≤ 32 := by
    by_contra long
    have power : 2 ^ 31 ≤ 2 ^ (k + zeros) := Nat.pow_le_pow_right (by decide) (by omega)
    dsimp only at kept
    omega
  refine (codes_golombSuffix small kept width).bind ?_
  rintro _ _ rfl
  exact codes_golombSign coeff signedCoeff

end Golomb

/-! ## Filter sets -/

section Filters

variable {fifo : List UInt8} {locations : List Nat}

/-- A value of a `short` is stored unchanged. -/
theorem toShort_of_short {i : Int} (low : -2 ^ 15 ≤ i) (high : i < 2 ^ 15) : toShort i = i := by
  unfold toShort
  exact Int.bmod_eq_of_le (by omega) (by omega)

/-- A loop that enters what it reads into an array: these entries come back, the others are
left alone. -/
theorem codes_entries {code : Nat → BitWriter Unit} {parse : BitReader Int} (target : Nat → Int)
    {place : Nat → Nat} (apart : Function.Injective place) {start count : Nat}
    (each : ∀ i, start ≤ i → i < start + count →
      Codes False outputView (inputView fifo locations) (code i) parse
        (fun _ value => value = target i))
    (old : Nat → Int) :
    Codes False outputView (inputView fifo locations)
      ((List.range' start count).foldlM (fun _ i => code i) ())
      ((List.range' start count).foldlM (fun values i => do
        let value ← parse
        return setAt values (place i) value) old)
      (fun _ values => (∀ i, start ≤ i → i < start + count → values (place i) = target i) ∧
        ∀ position, (∀ i, start ≤ i → i < start + count → position ≠ place i) →
          values position = old position) := by
  refine Codes.range' (fun k _ (values : Nat → Int) =>
    (∀ i, start ≤ i → i < k → values (place i) = target i) ∧
    ∀ position, (∀ i, start ≤ i → i < k → position ≠ place i) → values position = old position) ?_
    ⟨fun i low high => by omega, fun _ _ => rfl⟩
  rintro k _ values low below ⟨done, others⟩
  refine Codes.readerMap _ (each k low below) ?_
  rintro _ _ rfl
  constructor
  · intro i above upTo
    by_cases last : i = k
    · rw [last, setAt_self]
    · rw [setAt_of_ne (fun same => last (apart same)), done i above (by omega)]
  · intro position outside
    rw [setAt_of_ne (outside k low (by omega))]
    exact others position fun i above upTo => outside i above (by omega)

/-- The loops over filters and coefficients. -/
theorem codes_filters {code : Nat → BitWriter Unit} {parse : BitReader Int} (target : Nat → Int)
    {numFilters count : Nat} (row : count ≤ MAX_NUM_ALF_LUMA_COEFF)
    (each : ∀ ind < numFilters, ∀ i < count,
      Codes False outputView (inputView fifo locations)
        (code (ind * MAX_NUM_ALF_LUMA_COEFF + i)) parse
        (fun _ value => value = target (ind * MAX_NUM_ALF_LUMA_COEFF + i)))
    (old : Nat → Int) :
    Codes False outputView (inputView fifo locations) (codeFilters numFilters count code)
      (parseFilters numFilters count parse old)
      (fun _ values => ∀ ind < numFilters, ∀ i < count,
        values (ind * MAX_NUM_ALF_LUMA_COEFF + i) =
          target (ind * MAX_NUM_ALF_LUMA_COEFF + i)) := by
  unfold MAX_NUM_ALF_LUMA_COEFF at *
  refine (Codes.range' (fun k _ values => ∀ ind < k, ∀ i < count,
    values (ind * 13 + i) = target (ind * 13 + i)) ?_ (by intro ind none; omega)).weaken ?_
  · intro k _ values _ below done
    have apart : Function.Injective fun i => k * 13 + i := fun i j same => by
      dsimp only at same
      omega
    refine (codes_entries (fun i => target (k * 13 + i)) apart
      (fun i _ inside => each k (by omega) i (by omega)) values).weaken ?_
    rintro _ values' ⟨entries, others⟩ ind upTo i inside
    by_cases last : ind = k
    · rw [last]
      exact entries i (Nat.zero_le i) (by omega)
    · rw [others _ (fun j _ _ => by omega)]
      exact done ind (by omega) i inside
  · intro _ values done
    rwa [Nat.zero_add] at done

/-- The coefficients and clipping indices of one set of filters that can be signalled. -/
structure LegalFilter (isChroma : Bool) (numFilters : Nat) (coeff clipp : Nat → Int) : Prop where
  coeffLow : ∀ ind < numFilters, ∀ i < shapeCoeff isChroma - 1,
    (if isChroma then -127 else -2 ^ 15) ≤ coeff (ind * MAX_NUM_ALF_LUMA_COEFF + i)
  coeffHigh : ∀ ind < numFilters, ∀ i < shapeCoeff isChroma - 1,
    coeff (ind * MAX_NUM_ALF_LUMA_COEFF + i) ≤ if isChroma then 127 else 2 ^ 15 - 1
  clip : ∀ ind < numFilters, ∀ i < shapeCoeff isChroma - 1,
    0 ≤ clipp (ind * MAX_NUM_ALF_LUMA_COEFF + i) ∧ clipp (ind * MAX_NUM_ALF_LUMA_COEFF + i) < 4

/-- The filters that were read are those that were written; clipping indices that are not
signalled are 0. -/
structure SameFilter (isChroma nonLinear : Bool) (numFilters : Nat)
    (coeff clipp parsedCoeff parsedClipp : Nat → Int) : Prop where
  coeff : ∀ ind < numFilters, ∀ i < shapeCoeff isChroma - 1,
    parsedCoeff (ind * MAX_NUM_ALF_LUMA_COEFF + i) = coeff (ind * MAX_NUM_ALF_LUMA_COEFF + i)
  clip : ∀ ind < numFilters, ∀ i < shapeCoeff isChroma - 1,
    parsedClipp (ind * MAX_NUM_ALF_LUMA_COEFF + i) =
      if nonLinear then clipp (ind * MAX_NUM_ALF_LUMA_COEFF + i) else 0

/-- A coefficient passes the range check of its component. -/
theorem codes_coeff {isChroma : Bool} {coeff : Int}
    (low : (if isChroma then -127 else -2 ^ 15) ≤ coeff)
    (high : coeff ≤ if isChroma then 127 else 2 ^ 15 - 1) :
    Codes False outputView (inputView fifo locations) (alfGolombEncode coeff 3 true)
      (parseCoeff isChroma) (fun _ read => read = coeff) := by
  have short : -2 ^ 15 ≤ coeff ∧ coeff < 2 ^ 15 := by
    cases isChroma <;> simp at low high <;> omega
  have stored := toShort_of_short short.1 short.2
  have passes : ¬ (isChroma = true ∧ (toShort coeff > 127 ∨ toShort coeff < -127)) := by
    rw [stored]
    rintro ⟨rfl, outside⟩
    simp at low high
    omega
  refine (codes_alfGolomb (by omega) true).readerAfter ?_
  rintro _ _ rfl
  refine ⟨_, (Accepts.check _ passes).step (Accepts.pure _), ?_⟩
  exact stored

/-- A value of a `short` that is not negative, in a code it fits. -/
theorem codes_short {value : Int} {length : Nat} (low : 0 ≤ value) (high : value < 2 ^ 15)
    (positive : 0 < length) (width : length ≤ 32) (fits : value.toNat < 2 ^ length) :
    Codes False outputView (inputView fifo locations) (xWriteCode (word value) length)
      (parseShort length) (fun _ read => read = value) := by
  rw [word_of_nonneg low (by omega)]
  refine Codes.readerMap _ (codes_code positive width (Or.inl fits)) ?_
  rintro _ _ rfl
  rw [toShort_of_short (by omega) (by omega)]
  omega

theorem codes_alfFilter {isChroma nonLinear : Bool} {numFilters : Nat} {coeff clipp : Nat → Int}
    (legal : LegalFilter isChroma numFilters coeff clipp) (oldCoeff oldClipp : Nat → Int) :
    Codes False outputView (inputView fifo locations)
      (do
        codeFilters numFilters (shapeCoeff isChroma - 1)
          fun position => alfGolombEncode (coeff position) 3 true
        codeClipping nonLinear numFilters (shapeCoeff isChroma - 1) clipp)
      (parseAlfFilter isChroma nonLinear numFilters oldCoeff oldClipp)
      (fun _ parsed => SameFilter isChroma nonLinear numFilters coeff clipp parsed.1 parsed.2) := by
  have row : shapeCoeff isChroma - 1 ≤ MAX_NUM_ALF_LUMA_COEFF := by
    cases isChroma <;> decide
  refine Codes.bind (codes_filters coeff row (fun ind below i inside =>
    codes_coeff (legal.coeffLow ind below i inside) (legal.coeffHigh ind below i inside))
    oldCoeff) ?_
  intro _ parsed coeffs
  unfold codeClipping parseClipping
  by_cases clipped : nonLinear = true
  · rw [if_pos clipped, if_pos clipped]
    have index : ∀ ind < numFilters, ∀ i < shapeCoeff isChroma - 1,
        Codes False outputView (inputView fifo locations)
          (xWriteCode (word (clipp (ind * MAX_NUM_ALF_LUMA_COEFF + i))) 2) (parseShort 2)
          (fun _ value => value = clipp (ind * MAX_NUM_ALF_LUMA_COEFF + i)) := by
      intro ind below i inside
      obtain ⟨low, high⟩ := legal.clip ind below i inside
      exact codes_short low (by omega) (by decide) (by decide) (by omega)
    refine Codes.readerMap _ (codes_filters clipp row index oldClipp) ?_
    intro _ clips same
    refine ⟨coeffs, fun ind below i inside => ?_⟩
    rw [if_pos clipped]
    exact same ind below i inside
  · rw [if_neg clipped, if_neg clipped]
    refine Codes.pure ⟨coeffs, fun ind below i inside => ?_⟩
    rw [if_neg clipped]
    unfold MAX_NUM_ALF_LUMA_COEFF at *
    exact if_pos (by omega)

/-- The width of the filter indices holds every index. -/
theorem deltaIdx_width {numLumaFilters : Nat} (some : 1 < numLumaFilters)
    (bound : numLumaFilters ≤ 2 ^ 15) :
    0 < word (ceilLog2 numLumaFilters) ∧ word (ceilLog2 numLumaFilters) ≤ 32 ∧
      numLumaFilters ≤ 2 ^ word (ceilLog2 numLumaFilters) := by
  have high : numLumaFilters - 1 < 2 ^ (Nat.log2 (numLumaFilters - 1) + 1) := Nat.lt_log2_self
  have narrow : Nat.log2 (numLumaFilters - 1) < 15 := (Nat.log2_lt (by omega)).mpr (by omega)
  rw [ceilLog2_of_one_lt some, word_of_nonneg (by omega) (by omega), Int.toNat_natCast]
  omega

/-- The filter indices of the classes. -/
theorem codes_deltaIdx {param : AlfParam} (bound : param.numLumaFilters ≤ MAX_NUM_ALF_CLASSES)
    (legal : ∀ i < MAX_NUM_ALF_CLASSES, 0 ≤ param.filterCoeffDeltaIdx i ∧
      param.filterCoeffDeltaIdx i < param.numLumaFilters) (old : Nat → Int) :
    Codes False outputView (inputView fifo locations) (codeDeltaIdx param)
      (parseDeltaIdx param.numLumaFilters old)
      (fun _ values => 1 < param.numLumaFilters → ∀ i < MAX_NUM_ALF_CLASSES,
        values i = param.filterCoeffDeltaIdx i) := by
  unfold codeDeltaIdx parseDeltaIdx
  by_cases several : param.numLumaFilters > 1
  · have classes : MAX_NUM_ALF_CLASSES = 25 := rfl
    obtain ⟨positive, width, holds⟩ := deltaIdx_width several (by omega)
    rw [if_pos several, if_pos several]
    have apart : Function.Injective fun i : Nat => i := fun _ _ same => same
    refine (codes_entries param.filterCoeffDeltaIdx apart (fun i _ below => ?_) old).weaken ?_
    · obtain ⟨low, high⟩ := legal i (by omega)
      exact codes_short low (by omega) positive width (by omega)
    · rintro _ values ⟨entries, _⟩ _ i below
      exact entries i (Nat.zero_le i) (by omega)
  · rw [if_neg several, if_neg several]
    exact Codes.pure fun yes => absurd yes several

end Filters

/-! ## The loop filter -/

/-- Filter parameters that can be signalled. -/
structure LegalAlf (param : AlfParam) : Prop where
  signals : param.newFilterFlag 0 = true ∨ param.newFilterFlag 1 = true
  numLumaFilters : param.newFilterFlag 0 = true →
    1 ≤ param.numLumaFilters ∧ param.numLumaFilters ≤ MAX_NUM_ALF_CLASSES
  deltaIdx : param.newFilterFlag 0 = true → ∀ i < MAX_NUM_ALF_CLASSES,
    0 ≤ param.filterCoeffDeltaIdx i ∧ param.filterCoeffDeltaIdx i < param.numLumaFilters
  luma : param.newFilterFlag 0 = true →
    LegalFilter false param.numLumaFilters param.lumaCoeff param.lumaClipp
  numAlternatives : param.newFilterFlag 1 = true →
    1 ≤ param.numAlternativesChroma ∧ param.numAlternativesChroma < 2 ^ 31
  chroma : param.newFilterFlag 1 = true → ∀ altIdx < param.numAlternativesChroma,
    LegalFilter true 1 (param.chromaCoeff altIdx) (param.chromaClipp altIdx)

/-- The luma filters come back. -/
structure SameLuma (param parsed : AlfParam) : Prop where
  nonLinear : parsed.nonLinearFlag 0 0 = param.nonLinearFlag 0 0
  numLumaFilters : parsed.numLumaFilters = param.numLumaFilters
  deltaIdx : 1 < param.numLumaFilters → ∀ i < MAX_NUM_ALF_CLASSES,
    parsed.filterCoeffDeltaIdx i = param.filterCoeffDeltaIdx i
  filters : SameFilter false (param.nonLinearFlag 0 0) param.numLumaFilters param.lumaCoeff
    param.lumaClipp parsed.lumaCoeff parsed.lumaClipp

/-- One alternative of the chroma filters comes back. -/
structure SameAlternative (param parsed : AlfParam) (altIdx : Nat) : Prop where
  nonLinear : parsed.nonLinearFlag 1 altIdx = param.nonLinearFlag 1 altIdx
  filters : SameFilter true (param.nonLinearFlag 1 altIdx) 1 (param.chromaCoeff altIdx)
    (param.chromaClipp altIdx) (parsed.chromaCoeff altIdx) (parsed.chromaClipp altIdx)

/-- Every signalled field of the filter parameters comes back. -/
structure SameAlf (param parsed : AlfParam) : Prop where
  lumaFlag : parsed.newFilterFlag 0 = param.newFilterFlag 0
  chromaFlag : parsed.newFilterFlag 1 = param.newFilterFlag 1
  luma : param.newFilterFlag 0 = true → SameLuma param parsed
  numAlternatives : param.newFilterFlag 1 = true →
    parsed.numAlternativesChroma = param.numAlternativesChroma
  chroma : param.newFilterFlag 1 = true → ∀ altIdx < param.numAlternativesChroma,
    SameAlternative param parsed altIdx

section Alf

variable {fifo : List UInt8} {locations : List Nat}

theorem codes_alfLuma {param : AlfParam} (legal : LegalAlf param) {old : AlfParam}
    (flag : old.newFilterFlag 0 = param.newFilterFlag 0) :
    Codes False outputView (inputView fifo locations) (codeAlfLuma param) (parseAlfLuma old)
      (fun _ parsed => parsed.newFilterFlag = old.newFilterFlag ∧
        (param.newFilterFlag 0 = true → SameLuma param parsed)) := by
  unfold codeAlfLuma parseAlfLuma
  rw [flag]
  by_cases coded : param.newFilterFlag 0 = true
  · obtain ⟨some, bound⟩ := legal.numLumaFilters coded
    have classes : MAX_NUM_ALF_CLASSES = 25 := rfl
    have count : word ((param.numLumaFilters : Int) - 1) + 1 = param.numLumaFilters := by
      rw [word_of_nonneg (by omega) (by omega)]
      omega
    rw [if_pos coded, if_pos coded]
    refine (codes_bool _).bind ?_
    rintro _ _ rfl
    refine (codes_uvlc (by omega)).bind ?_
    rintro _ _ rfl
    rw [count]
    refine Codes.bind (codes_deltaIdx bound (legal.deltaIdx coded) _) ?_
    intro _ deltaIdx indices
    refine Codes.readerMap _ (codes_alfFilter (legal.luma coded) _ _) ?_
    intro _ filters same
    exact ⟨rfl, fun _ => ⟨rfl, rfl, indices, same⟩⟩
  · rw [if_neg coded, if_neg coded]
    exact Codes.pure ⟨rfl, fun yes => absurd yes coded⟩

/-- An alternative leaves the luma filters and the other alternatives alone. -/
theorem codes_alternative {param : AlfParam} {altIdx : Nat}
    (legal : LegalFilter true 1 (param.chromaCoeff altIdx) (param.chromaClipp altIdx))
    (old : AlfParam) :
    Codes False outputView (inputView fifo locations)
      (do
        xWriteBool (param.nonLinearFlag 1 altIdx)
        codeAlfFilter param true altIdx)
      (parseAlternative old altIdx)
      (fun _ parsed => SameAlternative param parsed altIdx ∧
        parsed.newFilterFlag = old.newFilterFlag ∧
        parsed.numAlternativesChroma = old.numAlternativesChroma ∧
        (SameLuma param old → SameLuma param parsed) ∧
        ∀ other, other ≠ altIdx → SameAlternative param old other →
          SameAlternative param parsed other) := by
  refine (codes_bool _).bind ?_
  rintro _ _ rfl
  refine Codes.readerMap _ (codes_alfFilter legal _ _) ?_
  intro _ filters same
  refine ⟨⟨?_, ?_⟩, rfl, rfl, fun luma => ⟨luma.nonLinear, luma.numLumaFilters, luma.deltaIdx,
    luma.filters⟩, fun other apart before => ⟨?_, ?_⟩⟩
  · simp
  · simpa using same
  · simpa [setAt_of_ne apart] using before.nonLinear
  · simpa [setAt_of_ne apart] using before.filters

theorem codes_alfChroma {param : AlfParam} (legal : LegalAlf param) {old : AlfParam}
    (flag : old.newFilterFlag 1 = param.newFilterFlag 1) :
    Codes False outputView (inputView fifo locations) (codeAlfChroma param) (parseAlfChroma old)
      (fun _ parsed => parsed.newFilterFlag = old.newFilterFlag ∧
        (SameLuma param old → SameLuma param parsed) ∧
        (param.newFilterFlag 1 = true →
          parsed.numAlternativesChroma = param.numAlternativesChroma ∧
          ∀ altIdx < param.numAlternativesChroma, SameAlternative param parsed altIdx)) := by
  unfold codeAlfChroma parseAlfChroma
  rw [flag]
  by_cases coded : param.newFilterFlag 1 = true
  · obtain ⟨some, bound⟩ := legal.numAlternatives coded
    have count : word ((param.numAlternativesChroma : Int) - 1) + 1 =
        param.numAlternativesChroma := by
      rw [word_of_nonneg (by omega) (by omega)]
      omega
    rw [if_pos coded, if_pos coded]
    refine (codes_uvlc (by omega)).bind ?_
    rintro _ _ rfl
    rw [count]
    refine (Codes.range' (fun k _ parsed => parsed.newFilterFlag = old.newFilterFlag ∧
      parsed.numAlternativesChroma = param.numAlternativesChroma ∧
      (SameLuma param old → SameLuma param parsed) ∧
      ∀ altIdx < k, SameAlternative param parsed altIdx) ?_ ?_).weaken ?_
    · rintro k _ parsed _ below ⟨flags, number, luma, done⟩
      refine (codes_alternative (legal.chroma coded k (by omega)) parsed).weaken ?_
      rintro _ next ⟨same, flags', number', luma', others⟩
      refine ⟨flags'.trans flags, number'.trans number, luma' ∘ luma, fun altIdx upTo => ?_⟩
      by_cases last : altIdx = k
      · rw [last]
        exact same
      · exact others altIdx last (done altIdx (by omega))
    · refine ⟨rfl, rfl, fun luma => ⟨luma.nonLinear, luma.numLumaFilters, luma.deltaIdx,
        luma.filters⟩, fun altIdx none => absurd none (Nat.not_lt_zero _)⟩
    · rintro _ parsed ⟨flags, number, luma, done⟩
      rw [Nat.zero_add] at done
      exact ⟨flags, luma, fun _ => ⟨number, done⟩⟩
  · rw [if_neg coded, if_neg coded]
    exact Codes.pure ⟨rfl, id, fun yes => absurd yes coded⟩

theorem codes_alfAps {param : AlfParam} (legal : LegalAlf param) :
    Codes False outputView (inputView fifo locations) (codeAlfAps param) parseAlfAps
      (fun _ parsed => SameAlf param parsed) := by
  refine (codes_bool _).bind ?_
  rintro _ _ rfl
  refine (codes_bool _).bind ?_
  rintro _ _ rfl
  refine Codes.readerStep (Accepts.check _ ?_) ?_
  · rintro ⟨none, none'⟩
    have luma : param.newFilterFlag 0 = false := none
    have chroma : param.newFilterFlag 1 = false := none'
    rcases legal.signals with yes | yes
    · rw [luma] at yes
      cases yes
    · rw [chroma] at yes
      cases yes
  refine Codes.bind (codes_alfLuma legal rfl) ?_
  rintro _ middle ⟨flags, luma⟩
  have lumaFlag : middle.newFilterFlag 0 = param.newFilterFlag 0 := by rw [flags]; rfl
  have chromaFlag : middle.newFilterFlag 1 = param.newFilterFlag 1 := by rw [flags]; rfl
  refine (codes_alfChroma legal chromaFlag).weaken ?_
  rintro _ parsed ⟨flags', kept, chroma⟩
  exact ⟨by rw [flags']; exact lumaFlag, by rw [flags']; exact chromaFlag,
    fun yes => kept (luma yes), fun yes => (chroma yes).1, fun yes => (chroma yes).2⟩

end Alf

/-! ## The luma mapping -/

/-- Mapping parameters that can be signalled. -/
structure LegalLmcs (param : SliceReshapeInfo) : Prop where
  minBin : param.reshaperModelMinBinIdx < PIC_CODE_CW_BINS
  maxBin : param.reshaperModelMaxBinIdx < PIC_CODE_CW_BINS
  bits : 0 < param.maxNbitsNeededDeltaCW ∧ param.maxNbitsNeededDeltaCW ≤ 32
  deltas : ∀ i, param.reshaperModelMinBinIdx ≤ i → i ≤ param.reshaperModelMaxBinIdx →
    (param.reshaperModelBinCWDelta i).natAbs < 2 ^ param.maxNbitsNeededDeltaCW.toNat ∧
    (param.reshaperModelBinCWDelta i).natAbs < 2 ^ 31
  offset : param.chrResScalingOffset.natAbs < 8

/-- Every signalled field of the mapping comes back; bins outside it have no delta. -/
structure SameLmcs (param parsed : SliceReshapeInfo) : Prop where
  minBin : parsed.reshaperModelMinBinIdx = param.reshaperModelMinBinIdx
  maxBin : parsed.reshaperModelMaxBinIdx = param.reshaperModelMaxBinIdx
  bits : parsed.maxNbitsNeededDeltaCW = param.maxNbitsNeededDeltaCW
  deltas : ∀ i < PIC_CODE_CW_BINS, parsed.reshaperModelBinCWDelta i =
    if param.reshaperModelMinBinIdx ≤ i ∧ i ≤ param.reshaperModelMaxBinIdx then
      param.reshaperModelBinCWDelta i
    else 0
  offset : parsed.chrResScalingOffset = param.chrResScalingOffset

section Lmcs

variable {fifo : List UInt8} {locations : List Nat}

theorem toInt_of_small {i : Nat} (small : i < 2 ^ 31) : toInt i = i := by
  unfold toInt
  exact Int.bmod_eq_of_le (by omega) (by omega)

theorem codes_signBit {bit : Nat} (fits : bit < 2) :
    Codes False outputView (inputView fifo locations) (xWriteFlag bit) (xReadCode 1)
      (fun _ read => read = bit) :=
  Codes.readerStep (Accepts.check _ (by decide)) (codes_flag (Or.inl fits))

theorem codes_signed {delta : Int} {length : Nat} (positive : 0 < length) (width : length ≤ 32)
    (fits : delta.natAbs < 2 ^ length) (small : delta.natAbs < 2 ^ 31) :
    Codes False outputView (inputView fifo locations) (codeSigned delta length)
      (parseSigned length) (fun _ read => read = delta) := by
  refine (codes_code positive width (Or.inl fits)).bind ?_
  rintro _ _ rfl
  have magnitude := toInt_of_small small
  dsimp only
  by_cases some : delta.natAbs > 0
  · have some' : toInt delta.natAbs > 0 := by omega
    have bit : (if delta < 0 then 1 else 0) < 2 := by split <;> decide
    rw [if_pos some, if_pos some']
    refine Codes.readerMap _ (codes_signBit bit) ?_
    rintro _ _ rfl
    rw [magnitude, toInt_of_small (by omega)]
    by_cases negative : delta < 0
    · rw [if_pos negative]
      omega
    · rw [if_neg negative]
      omega
  · have none : ¬ toInt delta.natAbs > 0 := by omega
    have zero : delta = 0 := by omega
    rw [if_neg some, if_neg none, zero]
    exact Codes.pure rfl

theorem codes_bins {param info : SliceReshapeInfo} (legal : LegalLmcs param)
    (minBin : info.reshaperModelMinBinIdx = param.reshaperModelMinBinIdx)
    (maxBin : info.reshaperModelMaxBinIdx = param.reshaperModelMaxBinIdx)
    (bits : info.maxNbitsNeededDeltaCW = param.maxNbitsNeededDeltaCW)
    (cleared : ∀ i < PIC_CODE_CW_BINS, info.reshaperModelBinCWDelta i = 0) :
    Codes False outputView (inputView fifo locations)
      ((List.range' param.reshaperModelMinBinIdx
        (param.reshaperModelMaxBinIdx + 1 - param.reshaperModelMinBinIdx)).foldlM
        (fun _ i => codeSigned (param.reshaperModelBinCWDelta i)
          (word param.maxNbitsNeededDeltaCW)) ())
      (parseBins info)
      (fun _ deltas => ∀ i < PIC_CODE_CW_BINS, deltas i =
        if param.reshaperModelMinBinIdx ≤ i ∧ i ≤ param.reshaperModelMaxBinIdx then
          param.reshaperModelBinCWDelta i
        else 0) := by
  obtain ⟨positive, width⟩ := legal.bits
  have apart : Function.Injective fun i : Nat => i := fun _ _ same => same
  unfold parseBins
  rw [minBin, maxBin, bits, word_of_nonneg (by omega) (by omega)]
  refine (codes_entries param.reshaperModelBinCWDelta apart (fun i low below => ?_) _).weaken ?_
  · obtain ⟨fits, small⟩ := legal.deltas i low (by omega)
    exact codes_signed (by omega) (by omega) fits small
  · rintro _ deltas ⟨entries, others⟩ i below
    by_cases inside : param.reshaperModelMinBinIdx ≤ i ∧ i ≤ param.reshaperModelMaxBinIdx
    · rw [if_pos inside]
      exact entries i inside.1 (by omega)
    · rw [if_neg inside, others i (fun j low upTo same => inside (by omega))]
      exact cleared i below

theorem codes_lmcsAps {param : SliceReshapeInfo} (legal : LegalLmcs param)
    (old : SliceReshapeInfo) :
    Codes False outputView (inputView fifo locations) (codeLmcsAps param) (parseLmcsAps old)
      (fun _ parsed => SameLmcs param parsed) := by
  have bins : PIC_CODE_CW_BINS = 16 := rfl
  have minBin := legal.minBin
  have maxBin := legal.maxBin
  obtain ⟨positive, width⟩ := legal.bits
  have deltaMax : word ((PIC_CODE_CW_BINS : Int) - 1 - param.reshaperModelMaxBinIdx) =
      15 - param.reshaperModelMaxBinIdx := by
    rw [word_of_nonneg (by omega) (by omega)]
    omega
  have back : word ((PIC_CODE_CW_BINS : Int) - 1 - (15 - param.reshaperModelMaxBinIdx : Nat)) =
      param.reshaperModelMaxBinIdx := by
    rw [word_of_nonneg (by omega) (by omega)]
    omega
  have prec : word (param.maxNbitsNeededDeltaCW - 1) =
      param.maxNbitsNeededDeltaCW.toNat - 1 := by
    rw [word_of_nonneg (by omega) (by omega)]
    omega
  refine (codes_uvlc (by omega)).bind ?_
  rintro _ _ rfl
  rw [deltaMax, prec]
  refine (codes_uvlc (by omega)).bind ?_
  rintro _ _ rfl
  refine Codes.writerCheck (Or.inr (by omega)) fun _ => ?_
  refine (codes_uvlc (by omega)).bind ?_
  rintro _ _ rfl
  have precBack : toInt ((param.maxNbitsNeededDeltaCW.toNat - 1 + 1) % 2 ^ 32) =
      param.maxNbitsNeededDeltaCW := by
    rw [toInt_of_small (by omega)]
    omega
  refine Codes.readerStep (Accepts.check _ ?_) ?_
  · dsimp only
    omega
  simp only [back, precBack]
  refine Codes.bind (codes_bins legal rfl rfl rfl fun i below => if_pos below) ?_
  intro _ deltas same
  have offset := legal.offset
  refine Codes.readerMap _
    (codes_signed (by decide) (by decide) (by omega) (by omega)) ?_
  rintro _ _ rfl
  exact ⟨rfl, rfl, rfl, same, rfl⟩

end Lmcs

/-! ## Parameter sets -/

/-- A parameter set of the loop filter or the mapping that can be signalled. -/
def LegalAps (aps : APS) : Prop :=
  (aps.apsType = .ALF_APS ∧ LegalAlf aps.alfAPSParam) ∨
  (aps.apsType = .LMCS_APS ∧ LegalLmcs aps.reshapeAPSInfo)

/-- Every signalled field of a parameter set comes back. -/
structure SameAps (aps parsed : APS) : Prop where
  apsId : parsed.apsId = aps.apsId
  apsType : parsed.apsType = aps.apsType
  alf : aps.apsType = .ALF_APS → SameAlf aps.alfAPSParam parsed.alfAPSParam
  lmcs : aps.apsType = .LMCS_APS → SameLmcs aps.reshapeAPSInfo parsed.reshapeAPSInfo

section Aps

variable {fifo : List UInt8} {locations : List Nat}

theorem apsTypeOf_code (apsType : ApsType) : apsTypeOf apsType.code = apsType := by
  cases apsType with
  | ALF_APS => rfl
  | LMCS_APS => rfl
  | SCALING_LIST_APS => rfl
  | reserved value =>
      exact congrArg ApsType.reserved (Fin.ofNat_val_eq_self value)

theorem codes_apsContent {aps old : APS} (legal : LegalAps aps)
    (apsId : old.apsId = aps.apsId) (apsType : old.apsType = aps.apsType) :
    Codes False outputView (inputView fifo locations) (codeApsContent aps) (parseApsContent old)
      (fun _ parsed => SameAps aps parsed) := by
  unfold codeApsContent parseApsContent
  rcases legal with ⟨kind, legal⟩ | ⟨kind, legal⟩
  · rw [apsType, kind]
    refine Codes.readerMap _ (codes_alfAps legal) ?_
    intro _ param same
    refine ⟨apsId, kind.symm, fun _ => same, fun other => ?_⟩
    rw [kind] at other
    cases other
  · rw [apsType, kind]
    refine Codes.readerMap _ (codes_lmcsAps legal _) ?_
    intro _ param same
    refine ⟨apsId, kind.symm, fun other => ?_, fun _ => same⟩
    rw [kind] at other
    cases other

theorem codes_apsExtension :
    Codes False outputView (inputView fifo locations) (xWriteFlag 0) parseApsExtension
      (fun _ _ => True) := by
  refine (codes_flag (Or.inl (by decide))).readerAfter ?_
  rintro _ _ rfl
  exact ⟨_, Accepts.pure (), trivial⟩

theorem codes_apsElements {aps : APS} (legal : LegalAps aps) (old : APS) :
    Codes False outputView (inputView fifo locations) (codeApsElements aps)
      (parseApsElements old) (fun _ parsed => SameAps aps parsed) := by
  have kind : aps.apsType.code < 2 ^ 3 := by
    rcases legal with ⟨same, _⟩ | ⟨same, _⟩ <;> rw [same] <;> decide
  refine (codes_code (by decide) (by decide) (Or.inl aps.apsId.isLt)).bind ?_
  rintro _ _ rfl
  refine (codes_code (by decide) (by decide) (Or.inl kind)).bind ?_
  rintro _ _ rfl
  refine Codes.bind (codes_apsContent legal ?_ (apsTypeOf_code _)) ?_
  · exact Fin.ofNat_val_eq_self aps.apsId
  intro _ parsed same
  exact Codes.readerMap (fun _ => parsed) codes_apsExtension fun _ _ _ => same

end Aps

/-- `parseAPS` reads what `codeAPS` writes, from one byte boundary to the next and into any
parameter set. -/
def RoundTrips (aps : APS) : Prop :=
  ∀ before : OutputBitstream, before.WellFormed → before.numHeldBits = 0 →
    ∃ after bits, codeAPS aps before = .ok ((), after) ∧ after.bits = before.bits ++ bits ∧
      ∀ (old : APS) (s : InputBitstream) (rest : List Bool), s.WellFormed → s.numHeldBits = 0 →
        s.remaining = bits ++ rest →
        ∃ parsed s', parseAPS old s = .ok (parsed, s') ∧ s'.remaining = rest ∧ SameAps aps parsed

/-- `alfGolombDecode` takes exactly the bits of `alfGolombEncode` and returns the coefficient,
or its magnitude where the sign is not coded. -/
def GolombInverts (coeff : Int) (k : Nat) (signedCoeff : Bool) : Prop :=
  ∀ before : OutputBitstream, before.WellFormed →
    ∃ after bits, alfGolombEncode coeff k signedCoeff before = .ok ((), after) ∧
      after.bits = before.bits ++ bits ∧
      ∀ (s : InputBitstream) (rest : List Bool), s.WellFormed → s.remaining = bits ++ rest →
        ∃ s', alfGolombDecode k signedCoeff s =
            .ok (if signedCoeff then coeff else coeff.natAbs, s') ∧
          s'.remaining = rest

theorem golombInverts {coeff : Int} {k : Nat} (word : coeff.natAbs + 2 ^ k < 2 ^ 31)
    (signedCoeff : Bool) : GolombInverts coeff k signedCoeff := by
  intro before wf
  obtain ⟨after, bits, run, appended, reads⟩ :=
    parses_written (fun _ _ => codes_alfGolomb word signedCoeff) wf
  refine ⟨after, bits, run, appended, fun s rest ready next => ?_⟩
  obtain ⟨_, s', parses, left, rfl⟩ := reads s rest ready next
  exact ⟨s', parses, left⟩

/-- Every legal parameter set of the loop filter or the mapping is read back, and so is every
coefficient in the Golomb code of any order. -/
theorem codeAPS_round_trip (aps : APS) (legal : LegalAps aps) :
    RoundTrips aps ∧
    ∀ (coeff : Int) (k : Nat) (signedCoeff : Bool), coeff.natAbs + 2 ^ k < 2 ^ 31 →
      GolombInverts coeff k signedCoeff := by
  constructor
  · intro before wf start
    exact rbsp_written aps (fun old _ _ => codes_apsElements legal old) wf start
  · intro coeff k signedCoeff word
    exact golombInverts word signedCoeff

/-- Two luma filters with the extreme coefficients and two chroma alternatives, one of them
with clipping. -/
def extremeAlf : AlfParam where
  enabledFlag := fun _ => true
  nonLinearFlag := fun _ i => i == 1
  lumaCoeff := fun position => if position = 0 then -2 ^ 15 else 2 ^ 15 - 1
  lumaClipp := fun _ => 3
  numAlternativesChroma := 2
  chromaCoeff := fun _ _ => -127
  chromaClipp := fun _ _ => 3
  filterCoeffDeltaIdx := fun i => if i = 24 then 1 else 0
  numLumaFilters := 2
  newFilterFlag := fun _ => true

/-- All bins, with the widest deltas and the largest offset. -/
def extremeLmcs : SliceReshapeInfo where
  reshaperModelMinBinIdx := 0
  reshaperModelMaxBinIdx := 15
  reshaperModelBinCWDelta := fun i => if i = 0 then -(2 ^ 31 - 1) else 2 ^ 31 - 1
  maxNbitsNeededDeltaCW := 32
  chrResScalingOffset := -7

def extremeAps (apsType : ApsType) : APS where
  apsId := Fin.last 31
  apsType := apsType
  temporalId := 0
  layerId := 0
  alfAPSParam := extremeAlf
  reshapeAPSInfo := extremeLmcs
  scalingListApsInfo := ⟨false, fun _ => false, fun _ => 0, fun _ => 0, fun _ => false, fun _ _ => 0⟩

theorem legal_extremeAlf : LegalAlf extremeAlf := by
  refine ⟨Or.inl rfl, fun _ => by decide, fun _ => by decide, fun _ => ⟨?_, ?_, ?_⟩,
    fun _ => by decide, fun _ altIdx _ => ⟨?_, ?_, ?_⟩⟩
  · intro ind _ i _
    simp only [extremeAlf, Bool.false_eq_true, if_false]
    split <;> decide
  · intro ind _ i _
    simp only [extremeAlf, Bool.false_eq_true, if_false]
    split <;> decide
  · intro ind _ i _
    simp [extremeAlf]
  · intro ind _ i _
    simp [extremeAlf]
  · intro ind _ i _
    simp [extremeAlf]
  · intro ind _ i _
    simp [extremeAlf]

theorem legal_extremeLmcs : LegalLmcs extremeLmcs := by
  refine ⟨by decide, by decide, by decide, fun i _ _ => ?_, by decide⟩
  simp only [extremeLmcs]
  split <;> decide

theorem extremeAps_round_trip :
    RoundTrips (extremeAps .ALF_APS) ∧ RoundTrips (extremeAps .LMCS_APS) ∧
      GolombInverts (-32768) 3 true := by
  obtain ⟨alf, golomb⟩ :=
    codeAPS_round_trip (extremeAps .ALF_APS) (Or.inl ⟨rfl, legal_extremeAlf⟩)
  obtain ⟨lmcs, _⟩ :=
    codeAPS_round_trip (extremeAps .LMCS_APS) (Or.inr ⟨rfl, legal_extremeLmcs⟩)
  exact ⟨alf, lmcs, golomb (-32768) 3 true (by decide)⟩

end Vtm.AdaptationSets
