import Mathlib.Tactic.IntervalCases
import Vtm.Decoder.PicOrderCnt
import Vtm.RoundTrip.VLC

/-!
# The picture order count comes back from its low bits

A POC is sent modulo `2 ^ b` and completed against the previous POC of temporal
layer 0. `msb_of_window` is the arithmetic: two numbers less than a cycle apart
have most significant parts at most one cycle apart, and the comparison of their
low parts tells which. The masks of negative numbers are remainders.
-/

namespace Vtm.RoundTrip.PicOrderCnt

open Vtm.Std Vtm.VLCWriter Vtm.VLCReader Vtm.SliceHeader Vtm.RoundTrip.VLC

/-- The most significant part of `q`, chosen from the low parts as the decoder does. -/
theorem msb_of_window {half p q : Int} (positive : 0 < half)
    (low : -half < q - p) (high : q - p ≤ half) :
    q - q % (2 * half) =
      if q % (2 * half) < p % (2 * half) ∧ p % (2 * half) - q % (2 * half) ≥ half then
        p - p % (2 * half) + 2 * half
      else if q % (2 * half) > p % (2 * half) ∧ q % (2 * half) - p % (2 * half) > half then
        p - p % (2 * half) - 2 * half
      else p - p % (2 * half) := by
  have cycle : 0 < 2 * half := by omega
  have pLow := Int.emod_nonneg p cycle.ne'
  have pHigh := Int.emod_lt_of_pos p cycle
  have qLow := Int.emod_nonneg q cycle.ne'
  have qHigh := Int.emod_lt_of_pos q cycle
  have pSplit := Int.emod_add_mul_ediv p (2 * half)
  have qSplit := Int.emod_add_mul_ediv q (2 * half)
  -- the two multiples of the cycle differ by at most one cycle
  obtain ⟨k, kDef⟩ : ∃ k, k = q / (2 * half) - p / (2 * half) := ⟨_, rfl⟩
  have apart : 2 * half * k = q - q % (2 * half) - (p - p % (2 * half)) := by
    rw [kDef, Int.mul_sub]
    omega
  have above : k < 2 := by
    by_contra far
    have product : 2 * half * 2 ≤ 2 * half * k := Int.mul_le_mul_of_nonneg_left (by omega) (by omega)
    omega
  have below : -2 < k := by
    by_contra far
    have product : 2 * half * k ≤ 2 * half * (-2) :=
      Int.mul_le_mul_of_nonneg_left (by omega) (by omega)
    omega
  have cases : k = -1 ∨ k = 0 ∨ k = 1 := by omega
  rcases cases with rfl | rfl | rfl
  · rw [if_neg (by omega), if_pos (by omega)]
    omega
  · rw [if_neg (by omega), if_neg (by omega)]
    omega
  · rw [if_pos (by omega)]
    omega

/-! ## The same with machine integers -/

theorem toInt_add_of_range {x y : Int32} (low : -2 ^ 31 ≤ x.toInt + y.toInt)
    (high : x.toInt + y.toInt < 2 ^ 31) : (x + y).toInt = x.toInt + y.toInt := by
  rw [Int32.toInt_add]
  exact Int.bmod_eq_of_le (by omega) (by omega)

theorem toInt_sub_of_range {x y : Int32} (low : -2 ^ 31 ≤ x.toInt - y.toInt)
    (high : x.toInt - y.toInt < 2 ^ 31) : (x - y).toInt = x.toInt - y.toInt := by
  rw [Int32.toInt_sub]
  exact Int.bmod_eq_of_le (by omega) (by omega)

section

variable {b : Nat}

/-- One cycle of the sent bits and half of it. -/
theorem toInt_cycle (wide : 4 ≤ b) (narrow : b ≤ 16) :
    ((1 : Int32) <<< Int32.ofNat b).toInt = 2 * 2 ^ (b - 1) ∧
      ((1 : Int32) <<< Int32.ofNat b / 2).toInt = 2 ^ (b - 1) ∧
      ((1 : Int32) <<< Int32.ofNat b - 1).toBitVec.toNat = 2 ^ b - 1 := by
  interval_cases b <;> decide

theorem cycle_eq (wide : 4 ≤ b) : (2 : Int) ^ b = 2 * 2 ^ (b - 1) := by
  rw [← pow_succ', show b - 1 + 1 = b by omega]

/-- Masking in two's complement is the remainder, for numbers of either sign. -/
theorem toNat_mask (wide : 4 ≤ b) (narrow : b ≤ 16) (x : Int32) :
    ((x &&& ((1 : Int32) <<< Int32.ofNat b - 1)).toBitVec.toNat : Int) = x.toInt % 2 ^ b := by
  obtain ⟨_, _, mask⟩ := toInt_cycle wide narrow
  have word : x.toInt = if 2 * x.toBitVec.toNat < 2 ^ 32 then (x.toBitVec.toNat : Int)
      else (x.toBitVec.toNat : Int) - 2 ^ 32 := by
    rw [← Int32.toInt_toBitVec, BitVec.toInt_eq_toNat_cond]
    rfl
  rw [Int32.toBitVec_and, BitVec.toNat_and, mask, Nat.and_two_pow_sub_one_eq_mod, word]
  generalize x.toBitVec.toNat = n
  interval_cases b <;> split <;> omega

theorem toInt_mask (wide : 4 ≤ b) (narrow : b ≤ 16) (x : Int32) :
    (x &&& ((1 : Int32) <<< Int32.ofNat b - 1)).toInt = x.toInt % 2 ^ b := by
  have natural := toNat_mask wide narrow x
  have below := Int.emod_lt_of_pos x.toInt (by positivity : (0 : Int) < 2 ^ b)
  have bound : (2 : Int) ^ b ≤ 2 ^ 16 := pow_le_pow_right₀ (by decide) narrow
  rw [← Int32.toInt_toBitVec, BitVec.toInt_eq_toNat_of_lt (by omega), natural]

/-- Rounding an `int` down to a multiple of the cycle stays an `int`. -/
theorem le_round (narrow : b ≤ 16) {x : Int} (low : -2 ^ 31 ≤ x) : -2 ^ 31 ≤ x - x % 2 ^ b := by
  interval_cases b <;> omega

/-- The derivation both functions make for a picture that is not IDR. -/
def completePoc (b : Nat) (iPrevPOC iPOClsb : Int32) : Int32 :=
  let iMaxPOClsb := (1 : Int32) <<< Int32.ofNat b
  let iPrevPOClsb := iPrevPOC &&& (iMaxPOClsb - 1)
  let iPrevPOCmsb := iPrevPOC - iPrevPOClsb
  let iPOCmsb :=
    if iPOClsb < iPrevPOClsb ∧ iPrevPOClsb - iPOClsb ≥ iMaxPOClsb / 2 then
      iPrevPOCmsb + iMaxPOClsb
    else if iPOClsb > iPrevPOClsb ∧ iPOClsb - iPrevPOClsb > iMaxPOClsb / 2 then
      iPrevPOCmsb - iMaxPOClsb
    else iPrevPOCmsb
  iPOCmsb + iPOClsb

/-- The derivation finds the POC in the window around the previous one. -/
theorem completePoc_eq (wide : 4 ≤ b) (narrow : b ≤ 16) {p q lsb : Int32}
    (low : -2 ^ (b - 1) < q.toInt - p.toInt) (high : q.toInt - p.toInt ≤ 2 ^ (b - 1))
    (sent : lsb.toInt = q.toInt % 2 ^ b) : completePoc b p lsb = q := by
  obtain ⟨cycle, half, _⟩ := toInt_cycle wide narrow
  have mask := toInt_mask wide narrow p
  have msb := msb_of_window (by positivity : (0 : Int) < 2 ^ (b - 1)) low high
  rw [← cycle_eq wide] at msb cycle
  have positive : (0 : Int) < 2 ^ b := by positivity
  have bound : (2 : Int) ^ b ≤ 2 ^ 16 := pow_le_pow_right₀ (by decide) narrow
  have pLow := Int.emod_nonneg p.toInt positive.ne'
  have pHigh := Int.emod_lt_of_pos p.toInt positive
  have qLow := Int.emod_nonneg q.toInt positive.ne'
  have qHigh := Int.emod_lt_of_pos q.toInt positive
  have pRound := le_round narrow (Int32.le_toInt p)
  have qRound := le_round narrow (Int32.le_toInt q)
  have pTop := Int32.toInt_lt p
  have qTop := Int32.toInt_lt q
  set prevLsb := p &&& ((1 : Int32) <<< Int32.ofNat b - 1) with prevLsbDef
  have prevMsb : (p - prevLsb).toInt = p.toInt - p.toInt % 2 ^ b := by
    rw [toInt_sub_of_range (by omega) (by omega), mask]
  -- each branch of the comparison is the same branch on the integers
  have back : (lsb < prevLsb ∧ prevLsb - lsb ≥ (1 : Int32) <<< Int32.ofNat b / 2) ↔
      q.toInt % 2 ^ b < p.toInt % 2 ^ b ∧
        p.toInt % 2 ^ b - q.toInt % 2 ^ b ≥ 2 ^ (b - 1) := by
    rw [Int32.lt_iff_toInt_lt, ge_iff_le, Int32.le_iff_toInt_le,
      toInt_sub_of_range (by omega) (by omega), half, mask, sent]
  have forth : (lsb > prevLsb ∧ lsb - prevLsb > (1 : Int32) <<< Int32.ofNat b / 2) ↔
      q.toInt % 2 ^ b > p.toInt % 2 ^ b ∧
        q.toInt % 2 ^ b - p.toInt % 2 ^ b > 2 ^ (b - 1) := by
    rw [gt_iff_lt, gt_iff_lt, Int32.lt_iff_toInt_lt, Int32.lt_iff_toInt_lt,
      toInt_sub_of_range (by omega) (by omega), half, mask, sent]
  apply Int32.toInt_inj.mp
  unfold completePoc
  simp only [← prevLsbDef, back, forth]
  split at msb
  · next up =>
      have sum : (p - prevLsb + (1 : Int32) <<< Int32.ofNat b).toInt = q.toInt - q.toInt % 2 ^ b := by
        rw [toInt_add_of_range (by omega) (by omega)]
        omega
      rw [if_pos up, toInt_add_of_range (by omega) (by omega)]
      omega
  · next notUp =>
      rw [if_neg notUp]
      split at msb
      · next down =>
          have difference : (p - prevLsb - (1 : Int32) <<< Int32.ofNat b).toInt =
              q.toInt - q.toInt % 2 ^ b := by
            rw [toInt_sub_of_range (by omega) (by omega)]
            omega
          rw [if_pos down, toInt_add_of_range (by omega) (by omega)]
          omega
      · next same =>
          rw [if_neg same, toInt_add_of_range (by omega) (by omega)]
          omega

end

/-! ## The two parsers -/

/-- The parameter sets a slice header refers to, with `b` bits for the POC. -/
structure Refers (picHeader : Option PocPicHeader) (parameterSetManager : PocParameterSets)
    (b : Nat) : Prop where
  found : ∃ header pps, picHeader = some header ∧ header.isValid = true ∧
    parameterSetManager.getPPS header.ppsId = some pps ∧
    parameterSetManager.getSPS pps.spsId = some ⟨b⟩

theorem parsers_agree (idrPicFlag : Bool) (picHeader : Option PocPicHeader)
    (parameterSetManager : PocParameterSets) (prevTid0POC : Int32) (s : InputBitstream) :
    parseSliceHeaderPoc idrPicFlag picHeader parameterSetManager prevTid0POC s =
      parseSliceHeaderToPoc idrPicFlag picHeader parameterSetManager prevTid0POC s := rfl

/-- A picture that is not IDR gets the POC completed from the bits sent. -/
theorem parseSliceHeaderToPoc_run {picHeader : Option PocPicHeader}
    {parameterSetManager : PocParameterSets} {b : Nat} (refers : Refers picHeader parameterSetManager b)
    {prevTid0POC : Int32} {s s' : InputBitstream} {uiCode : Nat}
    (sent : xReadCode b s = .ok (uiCode, s')) :
    parseSliceHeaderToPoc false picHeader parameterSetManager prevTid0POC s =
      .ok (completePoc b prevTid0POC (Int32.ofNat uiCode), s') := by
  obtain ⟨header, pps, rfl, valid, hasPPS, hasSPS⟩ := refers.found
  unfold parseSliceHeaderToPoc
  simp only [hasPPS, hasSPS]
  rw [bind_run (check_run (by simp [valid])), bind_run sent]
  rfl

/-- The bits the encoder sends. -/
theorem codes_picOrderCntLsb {b : Nat} (wide : 4 ≤ b) (narrow : b ≤ 16) (q : Int32)
    (fifo : List UInt8) (locations : List Nat) :
    Codes False outputView (inputView fifo locations) (codeSlicePicOrderCntLsb b q) (xReadCode b)
      (fun _ uiCode => (uiCode : Int) = q.toInt % 2 ^ b) := by
  have natural := toNat_mask wide narrow q
  have below := Int.emod_lt_of_pos q.toInt (by positivity : (0 : Int) < 2 ^ b)
  have value : (q &&& ((1 : Int32) <<< Int32.ofNat b - 1)).toUInt32.toNat =
      (q &&& ((1 : Int32) <<< Int32.ofNat b - 1)).toBitVec.toNat := rfl
  have fits : (q &&& ((1 : Int32) <<< Int32.ofNat b - 1)).toUInt32.toNat < 2 ^ b := by
    rw [value]
    zify
    omega
  refine (codes_code (by omega) (by omega) (Or.inl fits)).weaken fun _ uiCode same => ?_
  rw [same, value, natural]

/-- Whatever number of bits is sent, a POC in the window around the previous POC
of temporal layer 0 is found by both functions, which agree on every input. -/
theorem picOrderCnt_recovered :
    (∀ b : Nat, 4 ≤ b → b ≤ 16 → ∀ p q : Int32,
      -2 ^ (b - 1) < q.toInt - p.toInt → q.toInt - p.toInt ≤ 2 ^ (b - 1) →
      ∀ (picHeader : Option PocPicHeader) (parameterSetManager : PocParameterSets),
        Refers picHeader parameterSetManager b →
      (∀ (s : InputBitstream) (rest : List Bool), s.WellFormed →
        s.remaining = toBits b (q.toInt % 2 ^ b).toNat ++ rest →
        ∃ s', parseSliceHeaderPoc false picHeader parameterSetManager p s = .ok (q, s') ∧
          parseSliceHeaderToPoc false picHeader parameterSetManager p s = .ok (q, s') ∧
          s'.remaining = rest) ∧
      ∀ before : OutputBitstream, before.WellFormed →
        ∃ after bits, codeSlicePicOrderCntLsb b q before = .ok ((), after) ∧
          after.bits = before.bits ++ bits ∧
          ∀ (s : InputBitstream) (rest : List Bool), s.WellFormed → s.remaining = bits ++ rest →
            ∃ parsed s', parseSliceHeaderToPoc false picHeader parameterSetManager p s =
              .ok (parsed, s') ∧ s'.remaining = rest ∧ parsed = q) ∧
    ∀ idrPicFlag picHeader parameterSetManager prevTid0POC s,
      parseSliceHeaderPoc idrPicFlag picHeader parameterSetManager prevTid0POC s =
        parseSliceHeaderToPoc idrPicFlag picHeader parameterSetManager prevTid0POC s := by
  refine ⟨?_, parsers_agree⟩
  intro b wide narrow p q low high picHeader parameterSetManager refers
  have positive : (0 : Int) < 2 ^ b := by positivity
  have qLow := Int.emod_nonneg q.toInt positive.ne'
  have qHigh := Int.emod_lt_of_pos q.toInt positive
  have bound : (2 : Int) ^ b ≤ 2 ^ 16 := pow_le_pow_right₀ (by decide) narrow
  have completes : ∀ uiCode : Nat, (uiCode : Int) = q.toInt % 2 ^ b →
      completePoc b p (Int32.ofNat uiCode) = q := by
    intro uiCode sent
    refine completePoc_eq wide narrow low high ?_
    rw [Int32.toInt_ofNat_of_lt (by omega), sent]
  constructor
  · intro s rest wf view
    have fits : (q.toInt % 2 ^ b).toNat < 2 ^ b := by
      zify
      omega
    obtain ⟨s', run, _, left, _⟩ := InputBitstream.read_spec wf (by omega) fits view
    have sent : xReadCode b s = .ok ((q.toInt % 2 ^ b).toNat, s') := by
      rw [xReadCode, bind_run (check_run (by omega))]
      exact run
    have parsed : parseSliceHeaderToPoc false picHeader parameterSetManager p s = .ok (q, s') := by
      rw [parseSliceHeaderToPoc_run refers sent, completes _ (by omega)]
    exact ⟨s', (parsers_agree _ _ _ _ s).trans parsed, parsed, left⟩
  · intro before wf
    obtain ⟨after, bits, run, appended, reads⟩ :=
      parses_written (codes_picOrderCntLsb wide narrow q) wf
    refine ⟨after, bits, run, appended, fun s rest ready view => ?_⟩
    obtain ⟨uiCode, s', sent, left, same⟩ := reads s rest ready view
    exact ⟨_, s', parseSliceHeaderToPoc_run refers sent, left, completes uiCode same⟩

/-- Half a cycle ahead of a negative POC. -/
theorem picOrderCnt_recovered_sample :
    ∃ s', parseSliceHeaderToPoc false (some ⟨true, 0⟩) ⟨fun _ => some ⟨0⟩, fun _ => some ⟨4⟩⟩ (-3)
      (InputBitstream.ofFifo [0x50]) = .ok (5, s') := by
  obtain ⟨recovered, _⟩ := picOrderCnt_recovered
  have refers : Refers (some ⟨true, 0⟩) ⟨fun _ => some ⟨0⟩, fun _ => some ⟨4⟩⟩ 4 :=
    ⟨⟨true, 0⟩, ⟨0⟩, rfl, rfl, rfl, rfl⟩
  obtain ⟨streams, _⟩ := recovered 4 (by decide) (by decide) (-3) 5 (by decide) (by decide) _ _ refers
  obtain ⟨s', _, run, _⟩ := streams (InputBitstream.ofFifo [0x50]) [false, false, false, false]
    ⟨by decide, by decide⟩ (by decide)
  exact ⟨s', run⟩

end Vtm.RoundTrip.PicOrderCnt
