import Vtm.Decoder.APS
import Vtm.Reshape.Construct

/-!
# Parsed mapping models

`parseLmcsAps` checks neither the bin range nor the code words nor the chroma scaling offset:
`constructReshaper_parsed_iff` says for which of the models it accepts the reshaper can be built.
-/

namespace Vtm.Reshape

open Vtm.Std Vtm.VLCReader
open Vtm.AdaptationSets

theorem yields_parseSigned_three : Yields (parseSigned 3) fun value => -7 ≤ value ∧ value ≤ 7 := by
  refine (yields_readCode 3).bind fun code small => ?_
  have magnitude : toInt code = code := Int.bmod_eq_of_le (by omega) (by omega)
  dsimp only
  rw [magnitude]
  split
  · refine (yields_readCode 1).bind fun sign bit => Yields.pure ?_
    have signed : toInt sign = sign := Int.bmod_eq_of_le (by omega) (by omega)
    rw [signed]
    rcases (show sign = 0 ∨ sign = 1 by omega) with rfl | rfl <;> omega
  · rename_i zero
    have none : code = 0 := by omega
    rw [none]
    exact Yields.pure (by decide)

/-- The parser bounds the chroma scaling offset, and nothing else. -/
theorem yields_parseLmcsAps (info : SliceReshapeInfo) : Yields (parseLmcsAps info) fun info =>
    -7 ≤ info.chrResScalingOffset ∧ info.chrResScalingOffset ≤ 7 := by
  unfold parseLmcsAps
  refine (Yields.trivial _).bind fun minIdx _ => ?_
  refine (Yields.trivial _).bind fun deltaMax _ => ?_
  refine (Yields.trivial _).bind fun prec _ => ?_
  refine (Yields.trivial _).bind fun _ _ => ?_
  refine (Yields.trivial _).bind fun deltas _ => ?_
  exact yields_parseSigned_three.bind fun offset bounds => Yields.pure bounds

/-- The tables of a mapping model can be built, and the chroma scale of each luma value be found
in them. -/
def Builds (r : Reshape) (info : SliceReshapeInfo) : Prop :=
  ∃ r', (r.setInfo info).constructReshaper = .ok r' ∧
    ∀ avgLuma, ∃ iAdj, r'.calculateChromaAdj avgLuma = .ok iAdj

theorem builds_iff {r : Reshape} (sized : r.Sized) (info : SliceReshapeInfo) :
    Builds r info ↔ Constructible r info := by
  constructor
  · rintro ⟨r', run, -⟩
    obtain ⟨range, tables, divides⟩ := (constructReshaper_ok_iff (sized.setInfo info)).mp ⟨r', run⟩
    exact ⟨range, tables, divides⟩
  · intro constructible
    obtain ⟨r', run, built⟩ := constructReshaper_ok (sized.setInfo info)
      ⟨constructible.toBinRange, constructible.tables, constructible.divides⟩
    refine ⟨r', run, fun avgLuma => ?_⟩
    have range : BinRange r'.sliceReshapeInfo := by
      rw [built.info]
      exact constructible.toBinRange
    have size := built.sized.chromaAdjHelpLUT
    have bin (lumaVal : Int) : r'.pwlIdxInv lumaVal < 16 := Nat.lt_succ_of_le (Nat.min_le_right _ _)
    unfold calculateChromaAdj
    dsimp only
    rw [getPWLIdxInv_eq built.sized range]
    simp only [bind, Except.bind]
    exact ⟨_, CheckedArray.get_of_lt (lt_of_lt_of_eq (bin _) size.symm)⟩

/-- The mapping models that `parseLmcsAps` accepts need not be `Constructible`: the reshaper is
built without a division by zero, an index outside an array or a negative shift exactly if they
are. -/
theorem constructReshaper_parsed_iff {r : Reshape} (reachable : Reachable r)
    {old info : SliceReshapeInfo} {bits rest : InputBitstream}
    (accepted : parseLmcsAps old bits = .ok (info, rest)) :
    (Builds r info ↔ Constructible r info) ∧
      -7 ≤ info.chrResScalingOffset ∧ info.chrResScalingOffset ≤ 7 :=
  ⟨builds_iff reachable.sized info, yields_parseLmcsAps old bits info rest accepted⟩

/-- A mapping model before it is read. -/
def unread : SliceReshapeInfo where
  reshaperModelMinBinIdx := 0
  reshaperModelMaxBinIdx := 0
  reshaperModelBinCWDelta := fun _ => 0
  maxNbitsNeededDeltaCW := 0
  chrResScalingOffset := 0

/-- Three bins with 20, 13 and 21 code words, and a chroma scaling offset of -2. -/
theorem constructReshaper_parsed_threeBins :
    ∃ info rest, parseLmcsAps unread (InputBitstream.ofFifo [0x43, 0x5C, 0x3D, 0x28]) =
        .ok (info, rest) ∧
      Builds ((empty unread).createDec 8) info ∧
        -7 ≤ info.chrResScalingOffset ∧ info.chrResScalingOffset ≤ 7 := by
  have outcome : (parseLmcsAps unread (InputBitstream.ofFifo [0x43, 0x5C, 0x3D, 0x28])).map
      (fun result => (result.1.reshaperModelMinBinIdx, result.1.reshaperModelMaxBinIdx,
        [1, 2, 3].map result.1.reshaperModelBinCWDelta, result.1.chrResScalingOffset)) =
      .ok (1, 3, [4, -3, 5], -2) := by
    decide +kernel
  cases run : parseLmcsAps unread (InputBitstream.ofFifo [0x43, 0x5C, 0x3D, 0x28]) with
  | error e =>
      rw [run] at outcome
      cases outcome
  | ok result =>
      rw [run] at outcome
      obtain ⟨first, last, deltas, offset⟩ := by simpa [Except.map] using outcome
      have builds := constructReshaper_parsed_iff (@Reachable.created unread 8 (by decide)) run
      refine ⟨result.1, result.2, rfl, builds.1.mpr ⟨⟨by omega, by omega⟩, by decide, ?_⟩, builds.2⟩
      intro i above below
      rw [offset]
      rw [first] at above
      rw [last] at below
      obtain ⟨delta₁, delta₂, delta₃⟩ := deltas
      unfold binCount
      rw [first, last]
      obtain rfl | rfl | rfl : i = 1 ∨ i = 2 ∨ i = 3 := by omega
      · rw [delta₁]
        decide
      · rw [delta₂]
        decide
      · rw [delta₃]
        decide

/-- One bin with one code word, and a chroma scaling offset of -1: the divisor is zero. -/
theorem not_builds_zero_divisor :
    ∃ info rest, parseLmcsAps unread (InputBitstream.ofFifo [0x84, 0x09, 0xF3]) = .ok (info, rest) ∧
      ¬ Builds ((empty unread).createDec 8) info := by
  have outcome : (parseLmcsAps unread (InputBitstream.ofFifo [0x84, 0x09, 0xF3])).map (fun result =>
      ((((empty unread).createDec 8).setInfo result.1).constructReshaper).toBool) = .ok false := by
    decide +kernel
  cases run : parseLmcsAps unread (InputBitstream.ofFifo [0x84, 0x09, 0xF3]) with
  | error e =>
      rw [run] at outcome
      cases outcome
  | ok result =>
      refine ⟨result.1, result.2, rfl, ?_⟩
      rintro ⟨r', built, -⟩
      rw [run] at outcome
      simp only [Except.map, built, Except.toBool] at outcome
      cases outcome

end Vtm.Reshape
