import Vtm.Decoder.PredictionUnit
import Vtm.Encoder.PredictionUnit
import Vtm.RoundTrip.RemAbs

/-!
# Motion vector differences

`mvd_coding` is read back for all magnitudes below `2 ^ 17`, and a difference on the grid of a
precision is not changed on the way to that precision and back.
-/

namespace Vtm.RoundTrip.Mvd

open Vtm.Std Vtm.Bin
open Motion (Mv MV_BITS MvPrecision)

theorem reads_remAbs {a : RemAbs.Args} (range : a.InRange) (defined : a.Defined) :
    Reads (CABACWriter.encodeRemAbsEP a.bins a.goRicePar a.cutoff a.maxLog2TrDynamicRange)
      (CABACReader.decodeRemAbsEP a.goRicePar a.cutoff a.maxLog2TrDynamicRange)
      (fun _ value => value = a.bins) := by
  intro bins _
  exact .inr ⟨(), _, _, a.bins, RemAbs.encodeRemAbsEP_run range defined bins, trivial, rfl, rfl,
    RemAbs.accepts_remAbsBits range defined⟩

/-- A difference whose components have magnitudes below `2 ^ 17`. -/
def Codable (mvd : Mv) : Prop := mvd.hor.natAbs < 2 ^ (MV_BITS - 1) ∧ mvd.ver.natAbs < 2 ^ (MV_BITS - 1)

theorem Codable.legal {mvd : Mv} (codable : Codable mvd) : CABACReader.LegalMvd mvd := by
  obtain ⟨hor, ver⟩ := codable
  simp only [show MV_BITS = 18 from rfl] at hor ver
  unfold CABACReader.LegalMvd CABACReader.MVD_MIN CABACReader.MVD_MAX
  omega

theorem Codable.neg {mvd : Mv} (codable : Codable mvd) : Codable ⟨-mvd.hor, -mvd.ver⟩ := by
  unfold Codable at *
  simpa using codable

/-- Both flags of a component tell zero, one and more apart. -/
theorem reads_greater1 (abs : Nat) :
    Reads (CABACWriter.codeMvdGreater1 abs) (CABACReader.readMvdGreater1 (decide (abs > 0)))
      (fun _ value => value = min abs 2) := by
  unfold CABACWriter.codeMvdGreater1 CABACReader.readMvdGreater1
  by_cases positive : abs > 0
  · rw [if_pos positive, if_pos (decide_eq_true positive)]
    refine Codes.readerMap (fun bin : Bool => 1 + bin.toNat) (reads_bin _ _) ?_
    rintro _ _ rfl
    by_cases more : abs > 1
    · simp only [more, decide_true, Bool.toNat_true]
      omega
    · simp only [more, decide_false, Bool.toNat_false]
      omega
  · rw [if_neg positive, if_neg (by simpa using positive)]
    exact Codes.pure (by omega)

theorem reads_minus2 {abs : Nat} (fits : abs < 2 ^ (MV_BITS - 1)) :
    Reads (CABACWriter.codeMvdMinus2 abs) (CABACReader.readMvdMinus2 (min abs 2))
      (fun _ value => value = abs) := by
  unfold CABACWriter.codeMvdMinus2 CABACReader.readMvdMinus2
  by_cases more : abs > 1
  · rw [if_pos more, if_pos (by omega)]
    have range : (RemAbs.Args.mk (abs - 2) 1 0 (MV_BITS - 1)).InRange := by
      refine ⟨show 0 + (MV_BITS - 1) < 32 by decide, show 1 ≤ MV_BITS - 1 by decide, ?_⟩
      show abs - 2 < (2 ^ 15 - 1 + 0) * 2 ^ 1 + 2 ^ (MV_BITS - 1)
      omega
    have coded := reads_remAbs range (.inl (show 0 < MV_BITS - 1 by decide))
    refine Codes.readerMap (fun minus2 => min abs 2 + minus2) coded ?_
    rintro _ _ rfl
    show min abs 2 + (abs - 2) = abs
    omega
  · rw [if_neg more, if_neg (by omega)]
    exact Codes.pure (by omega)

theorem reads_suffix {mvd : Int} (fits : mvd.natAbs < 2 ^ (MV_BITS - 1)) :
    Reads (CABACWriter.codeMvdSuffix mvd) (CABACReader.readMvdSuffix (min mvd.natAbs 2))
      (fun _ value => value = mvd) := by
  unfold CABACWriter.codeMvdSuffix CABACReader.readMvdSuffix
  by_cases positive : mvd.natAbs > 0
  · rw [if_pos positive, if_pos (by omega)]
    refine Codes.bind (reads_minus2 fits) ?_
    rintro _ _ rfl
    refine Codes.readerMap _ (reads_binEP _) ?_
    rintro _ _ rfl
    by_cases negative : mvd < 0
    · rw [if_pos (decide_eq_true negative)]
      omega
    · rw [if_neg (by simpa using negative)]
      omega
  · rw [if_neg positive, if_neg (by omega)]
    exact Codes.pure (by omega)

theorem reads_mvdCoding {mvd : Mv} (codable : Codable mvd) :
    Reads (CABACWriter.mvdCoding mvd) CABACReader.mvdCoding (fun _ value => value = mvd) := by
  unfold CABACWriter.mvdCoding CABACReader.mvdCoding
  refine Codes.bind (reads_bin _ _) ?_
  rintro _ _ rfl
  refine Codes.bind (reads_bin _ _) ?_
  rintro _ _ rfl
  refine Codes.bind (reads_greater1 mvd.hor.natAbs) ?_
  rintro _ _ rfl
  refine Codes.bind (reads_greater1 mvd.ver.natAbs) ?_
  rintro _ _ rfl
  refine Codes.bind (reads_suffix codable.1) ?_
  rintro _ _ rfl
  refine (reads_suffix codable.2).readerAfter ?_
  rintro _ _ rfl
  refine ⟨mvd, ?_, rfl⟩
  exact (Accepts.check _ (not_not.mpr codable.legal)).step (Accepts.pure mvd)

/-! ## The precision of a unit -/

theorem precisionAt_ok {table : List MvPrecision} {amvr : Nat} {p : MvPrecision}
    (entry : table[amvr]? = some p) : Motion.precisionAt table amvr = .ok p := by
  rw [Motion.precisionAt, entry]

theorem internal2Amvr_ok {table : List MvPrecision} {amvr : Nat} {p : MvPrecision} (mv : Mv)
    (entry : table[amvr]? = some p) :
    mv.internal2Amvr amvr table = .ok (mv.changePrecision .MV_PRECISION_INTERNAL p) := by
  rw [Mv.internal2Amvr, precisionAt_ok entry]
  rfl

theorem amvr2Internal_ok {table : List MvPrecision} {amvr : Nat} {p : MvPrecision} (mv : Mv)
    (entry : table[amvr]? = some p) :
    mv.amvr2Internal amvr table = .ok (mv.changePrecision p .MV_PRECISION_INTERNAL) := by
  rw [Mv.amvr2Internal, precisionAt_ok entry]
  rfl

end Vtm.RoundTrip.Mvd
