import Vtm.Cabac.Encoder
import Vtm.Decoder.BinDecoder

/-!
# The decoding engine follows the exact coder

A code string is a number `V` of `8 N` bits. `window` is the part of it the
decoder has read, at the precision of its `value` register, and `Tracks` says
that this register holds the window less the exact lower bound. Comparing the
register with a threshold is then comparing `V` with an exact bound
(`le_window_iff`), so each decoded bin is the one whose interval contains `V`.
-/

namespace Vtm.Cabac

open Vtm.Std

/-- The part of the code string read after `shifts` doublings, with the bits
still missing set to zero. -/
def window (bytes : List UInt8) (shifts : Nat) : Nat :=
  ofBytes (bytes.take (2 + shifts / 8)) * 2 ^ (shifts % 8)

/-- The code string lies in the interval. -/
def Codes (bytes : List UInt8) (i : Interval) : Prop :=
  9 ≤ 8 * bytes.length ∧ i.Contains (8 * bytes.length - 9) (ofBytes bytes)

/-- Comparing with the window is comparing with the whole code string. -/
theorem le_window_iff {bytes : List UInt8} {shifts : Nat} (long : 9 ≤ 8 * bytes.length)
    (finer : shifts ≤ 8 * bytes.length - 9) (bound : Nat) :
    bound * 2 ^ 7 ≤ window bytes shifts ↔
      bound * 2 ^ (8 * bytes.length - 9 - shifts) ≤ ofBytes bytes := by
  obtain ⟨p, pDef⟩ : ∃ p, p = shifts % 8 := ⟨_, rfl⟩
  obtain ⟨r, rDef⟩ : ∃ r, r = 2 + shifts / 8 := ⟨_, rfl⟩
  have within : r ≤ bytes.length := by omega
  have small : p ≤ 7 := by omega
  have split : 8 * bytes.length - 9 - shifts = (7 - p) + 8 * (bytes.length - r) := by omega
  have whole : ofBytes bytes = ofBytes (bytes.take r) * 2 ^ (8 * (bytes.length - r)) +
      ofBytes (bytes.drop r) := by
    conv_lhs => rw [← List.take_append_drop r bytes]
    rw [ofBytes_append, List.length_drop, pow_mul]
    rfl
  have rest : ofBytes (bytes.drop r) < 2 ^ (8 * (bytes.length - r)) := by
    have below := ofBytes_lt (bytes.drop r)
    rwa [List.length_drop, show 256 = 2 ^ 8 by rfl, ← pow_mul] at below
  have seven : 2 ^ 7 = 2 ^ (7 - p) * 2 ^ p := by
    rw [← pow_add, Nat.sub_add_cancel small]
  rw [window, ← pDef, ← rDef, seven, ← Nat.mul_assoc, split, pow_add, ← Nat.mul_assoc, whole]
  rw [Nat.mul_le_mul_right_iff (Nat.two_pow_pos p)]
  constructor
  · intro ordered
    exact le_trans (Nat.mul_le_mul_right _ ordered) (Nat.le_add_right _ _)
  · intro ordered
    by_contra larger
    have next : (ofBytes (bytes.take r) + 1) * 2 ^ (8 * (bytes.length - r)) ≤
        bound * 2 ^ (7 - p) * 2 ^ (8 * (bytes.length - r)) :=
      Nat.mul_le_mul_right _ (by omega)
    rw [Nat.add_mul] at next
    omega

/-- The interval of a code string brackets the window. -/
theorem Codes.window_bounds {bytes : List UInt8} {i : Interval} (codes : Codes bytes i) :
    i.low * 2 ^ 7 ≤ window bytes i.shifts ∧
      window bytes i.shifts < (i.low + i.range) * 2 ^ 7 := by
  obtain ⟨long, finer, lower, upper⟩ := codes
  refine ⟨(le_window_iff long finer _).mpr lower, ?_⟩
  by_contra reaches
  have above := (le_window_iff long finer (i.low + i.range)).mp (by omega)
  omega

theorem Codes.of_within {bytes : List UInt8} {outer inner : Interval} (codes : Codes bytes inner)
    (within : outer.Within inner) : Codes bytes outer :=
  ⟨codes.1, within.contains codes.2⟩

/-- Doubling without crossing a byte. -/
theorem window_shift {bytes : List UInt8} {shifts count : Nat} (stays : shifts % 8 + count < 8) :
    window bytes (shifts + count) = window bytes shifts * 2 ^ count := by
  have quotient : (shifts + count) / 8 = shifts / 8 := by omega
  have remainder : (shifts + count) % 8 = shifts % 8 + count := by omega
  rw [window, window, quotient, remainder, pow_add, Nat.mul_assoc]

/-- Doubling across a byte brings the next byte in. -/
theorem window_refill {bytes : List UInt8} {shifts count : Nat} {byte : UInt8}
    (crosses : 8 ≤ shifts % 8 + count) (few : count ≤ 8)
    (next : bytes[2 + shifts / 8]? = some byte) :
    window bytes (shifts + count) =
      window bytes shifts * 2 ^ count + byte.toNat * 2 ^ (shifts % 8 + count - 8) := by
  have quotient : 2 + (shifts + count) / 8 = (2 + shifts / 8) + 1 := by omega
  have remainder : (shifts + count) % 8 = shifts % 8 + count - 8 := by omega
  have power : 2 ^ (shifts % 8) * 2 ^ count = 2 ^ 8 * 2 ^ (shifts % 8 + count - 8) := by
    rw [← pow_add, ← pow_add]
    congr 1
    omega
  obtain ⟨inside, here⟩ := List.getElem?_eq_some_iff.mp next
  rw [window, window, quotient, remainder, List.take_succ_eq_append_getElem inside, here,
    ofBytes_append, ofBytes_singleton, List.length_singleton, pow_one, Nat.mul_assoc _ (2 ^ _),
    power]
  ring

section

variable {ι : Type}

/-- The decoder has read the code string up to the precision of the interval. -/
structure Tracks (d : BinDecoder ι) (bytes : List UInt8) (i : Interval) : Prop where
  fifo : d.bitstream.fifo = bytes
  index : d.bitstream.fifoIdx = 2 + i.shifts / 8
  range : d.range = i.range
  needed : d.bitsNeeded = -8 + ((i.shifts % 8 : Nat) : Int)
  value : d.value + i.low * 2 ^ 7 = window bytes i.shifts

/-- The interval doubled `count` times, all of it kept. -/
@[grind =] def scaled (i : Interval) (count : Nat) : Interval := i.advance count 0 (i.range * 2 ^ count)

theorem codes_scaled_iff {bytes : List UInt8} {i : Interval} {count : Nat}
    (finer : i.shifts + count ≤ 8 * bytes.length - 9) :
    Codes bytes (scaled i count) ↔ Codes bytes i := by
  have power : 2 ^ (8 * bytes.length - 9 - i.shifts) =
      2 ^ count * 2 ^ (8 * bytes.length - 9 - (i.shifts + count)) := by
    rw [← pow_add]
    congr 1
    omega
  constructor
  · rintro ⟨long, _, lower, upper⟩
    refine ⟨long, by omega, ?_, ?_⟩
    · rw [power, ← Nat.mul_assoc]
      simpa [scaled, Interval.advance] using lower
    · rw [power, ← Nat.mul_assoc, Nat.add_mul]
      simpa [scaled, Interval.advance] using upper
  · rintro ⟨long, _, lower, upper⟩
    refine ⟨long, finer, ?_, ?_⟩
    · rw [power, ← Nat.mul_assoc] at lower
      simpa [scaled, Interval.advance] using lower
    · rw [power, ← Nat.mul_assoc, Nat.add_mul] at upper
      simpa [scaled, Interval.advance] using upper

/-- The register of a tracking decoder is below its range. -/
theorem Tracks.value_lt {d : BinDecoder ι} {bytes : List UInt8} {i : Interval}
    (tracks : Tracks d bytes i) (codes : Codes bytes i) : d.value < i.range * 2 ^ 7 := by
  have upper := codes.window_bounds.2
  rw [← tracks.value, Nat.add_mul] at upper
  omega

/-- Moving the lower bound up by what is taken off the register. -/
theorem Tracks.narrow {d : BinDecoder ι} {bytes : List UInt8} {i : Interval}
    (tracks : Tracks d bytes i) {offset : Nat} (enough : offset * 2 ^ 7 ≤ d.value) (range : Nat) :
    Tracks { d with value := d.value - offset * 2 ^ 7, range } bytes
      ⟨i.low + offset, range, i.shifts⟩ := by
  refine ⟨tracks.fifo, tracks.index, rfl, tracks.needed, ?_⟩
  have value := tracks.value
  show d.value - offset * 2 ^ 7 + (i.low + offset) * 2 ^ 7 = window bytes i.shifts
  rw [Nat.add_mul]
  omega

/-- Doubling and refilling the register. The range register is free: callers
set it beside the value. -/
theorem refill_spec {d : BinDecoder ι} {bytes : List UInt8} {i : Interval}
    (tracks : Tracks d bytes i) {count : Nat} (few : count ≤ 8) (narrow : i.range ≤ 510)
    (codes : Codes bytes (scaled i count)) (range : Nat) :
    ∃ d', BinDecoder.refill { d with
        value := (d.value <<< count) % 2 ^ 32
        range
        bitsNeeded := d.bitsNeeded + count } = .ok d' ∧
      Tracks d' bytes ⟨i.low * 2 ^ count, range, i.shifts + count⟩ ∧ d'.ctx = d.ctx := by
  have finer : i.shifts + count ≤ 8 * bytes.length - 9 := codes.2.finer
  have upper := codes.window_bounds.2
  have value := tracks.value
  have needed := tracks.needed
  have register := tracks.value_lt ((codes_scaled_iff finer).mp codes)
  have power : 2 ^ count ≤ 2 ^ 8 := Nat.pow_le_pow_right (by decide) few
  have doubledLt : d.value * 2 ^ count < 2 ^ 32 := by
    calc d.value * 2 ^ count ≤ d.value * 2 ^ 8 := Nat.mul_le_mul_left _ power
      _ < 2 ^ 32 := by omega
  rw [Nat.shiftLeft_eq, Nat.mod_eq_of_lt doubledLt]
  unfold BinDecoder.refill
  by_cases crosses : 8 ≤ i.shifts % 8 + count
  · have inside : 2 + i.shifts / 8 < bytes.length := by
      have long := codes.1
      omega
    have next : d.bitstream.fifo[d.bitstream.fifoIdx]? = some bytes[2 + i.shifts / 8] := by
      rw [tracks.fifo, tracks.index, List.getElem?_eq_getElem inside]
    have grown := window_refill crosses few (List.getElem?_eq_getElem inside)
    have reads : d.bitsNeeded + (count : Int) ≥ 0 := by omega
    have position : (d.bitsNeeded + (count : Int)).toNat = i.shifts % 8 + count - 8 := by omega
    have byteLt := UInt8.toNat_lt bytes[2 + i.shifts / 8]
    have fillPower : 2 ^ (i.shifts % 8 + count - 8) ≤ 2 ^ 7 :=
      Nat.pow_le_pow_right (by decide) (by omega)
    have fillLt : bytes[2 + i.shifts / 8].toNat * 2 ^ (i.shifts % 8 + count - 8) < 2 ^ 15 := by
      calc bytes[2 + i.shifts / 8].toNat * 2 ^ (i.shifts % 8 + count - 8)
          ≤ bytes[2 + i.shifts / 8].toNat * 2 ^ 7 := Nat.mul_le_mul_left _ fillPower
        _ < 2 ^ 15 := by omega
    have sumLt : d.value * 2 ^ count +
        bytes[2 + i.shifts / 8].toNat * 2 ^ (i.shifts % 8 + count - 8) < 2 ^ 32 := by
      have tight : d.value * 2 ^ count ≤ d.value * 2 ^ 8 := Nat.mul_le_mul_left _ power
      omega
    rw [if_pos reads, bind_ok_eq (InputBitstream.readByte_spec next)]
    refine ⟨_, rfl, ⟨tracks.fifo, ?_, rfl, ?_, ?_⟩, rfl⟩
    · show d.bitstream.fifoIdx + 1 = 2 + (i.shifts + count) / 8
      rw [tracks.index]
      omega
    · show d.bitsNeeded + (count : Int) - 8 = -8 + (((i.shifts + count) % 8 : Nat) : Int)
      omega
    · simp only
      rw [grown, ← value, position, Nat.shiftLeft_eq, Nat.mod_eq_of_lt sumLt]
      ring
  · have waits : ¬ d.bitsNeeded + (count : Int) ≥ 0 := by omega
    rw [if_neg waits]
    refine ⟨_, rfl, ⟨tracks.fifo, ?_, rfl, ?_, ?_⟩, rfl⟩
    · show d.bitstream.fifoIdx = 2 + (i.shifts + count) / 8
      rw [tracks.index]
      omega
    · show d.bitsNeeded + (count : Int) = -8 + (((i.shifts + count) % 8 : Nat) : Int)
      omega
    · simp only
      rw [window_shift (by omega), ← value]
      ring

/-! ## Context bins and terminating bins -/

theorem narrow_eq_scaled (i : Interval) (offset range count : Nat) :
    Exact.narrow i offset range count = scaled ⟨i.low + offset, range, i.shifts⟩ count := by
  simp only [Exact.narrow, scaled, Interval.advance, Interval.mk.injEq, and_true]
  ring

/-- A code string in a part of the interval is found there by comparison, and
taking the part out keeps the decoder in step. -/
theorem narrow_spec {d : BinDecoder ι} {bytes : List UInt8} {i : Interval}
    (tracks : Tracks d bytes i) {offset range count : Nat} (few : count ≤ 8)
    (narrow : range ≤ 510) (codes : Codes bytes (Exact.narrow i offset range count)) :
    offset * 2 ^ 7 ≤ d.value ∧ d.value < (offset + range) * 2 ^ 7 ∧
      ∃ d', BinDecoder.refill { d with
          range := range <<< count
          value := ((d.value - offset * 2 ^ 7) <<< count) % 2 ^ 32
          bitsNeeded := d.bitsNeeded + count } = .ok d' ∧
        Tracks d' bytes (Exact.narrow i offset range count) ∧ d'.ctx = d.ctx := by
  rw [narrow_eq_scaled] at codes ⊢
  have part := (codes_scaled_iff codes.2.finer).mp codes
  obtain ⟨lower, upper⟩ := part.window_bounds
  have value := tracks.value
  have enough : offset * 2 ^ 7 ≤ d.value := by
    simp only [Nat.add_mul] at lower
    omega
  refine ⟨enough, ?_, ?_⟩
  · simp only [Nat.add_mul] at upper ⊢
    omega
  · obtain ⟨d', run, tracks', ctx'⟩ :=
      refill_spec (tracks.narrow enough range) few narrow codes (range <<< count)
    refine ⟨d', run, ?_, ctx'⟩
    rwa [scaled, Interval.advance, Nat.add_zero, ← Nat.shiftLeft_eq range]

/-- Keeping the first part of the range without doubling. -/
theorem shorten_tracks {d : BinDecoder ι} {bytes : List UInt8} {i : Interval}
    (tracks : Tracks d bytes i) (range : Nat) :
    Tracks { d with range } bytes (Exact.narrow i 0 range 0) := by
  have shortened : Tracks { d with value := d.value - 0 * 2 ^ 7, range } bytes
      ⟨i.low + 0, range, i.shifts⟩ := tracks.narrow (by omega) range
  simpa [Exact.narrow, Interval.advance] using shortened

theorem codeBin_tracks {d : BinDecoder ι} {bytes : List UInt8} {i : Interval}
    (tracks : Tracks d bytes i) (ready : Exact.Ready i) (m : BinProbModel) (bin : Bool)
    (codes : Codes bytes (Exact.codeBin i m bin)) :
    ∃ d', d.codeBin m = .ok (bin, d') ∧ Tracks d' bytes (Exact.codeBin i m bin) ∧
      d'.ctx = d.ctx := by
  obtain ⟨lpsLow, lpsHigh, rest⟩ := m.getLPS_bounds ready.1 ready.2
  have high := ready.2
  unfold BinDecoder.codeBin
  unfold Exact.codeBin at codes ⊢
  simp only [tracks.range, Nat.shiftLeft_eq _ 7] at codes ⊢
  set LPS := m.getLPS i.range with lpsDef
  by_cases lps : bin ≠ m.mps
  · simp only [if_pos lps] at codes ⊢
    obtain ⟨_, _, few⟩ := BinProbModel.renormLPS_bounds lpsLow lpsHigh
    obtain ⟨above, _, d', run, tracks', ctx'⟩ :=
      narrow_spec tracks (show _ ≤ 8 by omega) (by omega) codes
    refine ⟨d', ?_, tracks', ctx'⟩
    rw [if_neg (by omega), bind_ok_eq run]
    have flipped : (!m.mps) = bin := by
      revert lps
      cases bin <;> cases m.mps <;> decide
    rw [flipped]
    rfl
  · simp only [if_neg lps] at codes ⊢
    have same : m.mps = bin := (not_not.mp lps).symm
    by_cases small : i.range - LPS < 256
    · simp only [if_pos small] at codes ⊢
      obtain ⟨_, below, d', run, tracks', ctx'⟩ :=
        narrow_spec tracks (show 1 ≤ 8 by decide) (by omega) codes
      refine ⟨d', ?_, tracks', ctx'⟩
      rw [Nat.zero_add] at below
      rw [Nat.zero_mul, Nat.sub_zero] at run
      rw [if_pos below, same]
      exact bind_ok_eq run
    · simp only [if_neg small] at codes ⊢
      obtain ⟨_, below, _⟩ := narrow_spec tracks (show 0 ≤ 8 by decide) (by omega) codes
      rw [Nat.zero_add] at below
      rw [if_pos below, same]
      exact ⟨_, rfl, shorten_tracks tracks _, rfl⟩

theorem decodeBinTrm_tracks {d : BinDecoder ι} {bytes : List UInt8} {i : Interval}
    (tracks : Tracks d bytes i) (ready : Exact.Ready i)
    (codes : Codes bytes (Exact.encodeBinTrm i false)) :
    ∃ d', d.decodeBinTrm = .ok (false, d') ∧ Tracks d' bytes (Exact.encodeBinTrm i false) ∧
      d'.ctx = d.ctx := by
  obtain ⟨low, high⟩ := ready
  unfold BinDecoder.decodeBinTrm
  unfold Exact.encodeBinTrm at codes ⊢
  simp only [tracks.range, Nat.shiftLeft_eq _ 7, Bool.false_eq_true, if_false] at codes ⊢
  by_cases large : i.range - 2 ≥ 256
  · simp only [if_pos large] at codes ⊢
    obtain ⟨_, below, _⟩ := narrow_spec tracks (show 0 ≤ 8 by decide) (by omega) codes
    rw [Nat.zero_add] at below
    rw [if_neg (by omega), if_neg (by omega)]
    exact ⟨_, rfl, shorten_tracks tracks _, rfl⟩
  · simp only [if_neg large] at codes ⊢
    obtain ⟨_, below, d', run, tracks', ctx'⟩ :=
      narrow_spec tracks (show 1 ≤ 8 by decide) (by omega) codes
    refine ⟨d', ?_, tracks', ctx'⟩
    rw [Nat.zero_add] at below
    rw [Nat.zero_mul, Nat.sub_zero, Nat.shiftLeft_eq, Nat.shiftLeft_eq, pow_one, Nat.mul_two,
      Nat.mul_two] at run
    rw [if_neg (by omega), if_pos (by omega)]
    exact bind_ok_eq run

/-- The last terminating bin reads nothing. -/
theorem decodeBinTrm_last {d : BinDecoder ι} {bytes : List UInt8} {i : Interval}
    (tracks : Tracks d bytes i) (codes : Codes bytes ⟨i.low + (i.range - 2), 2, i.shifts⟩) :
    d.decodeBinTrm = .ok (true, { d with range := d.range - 2 }) := by
  obtain ⟨lower, _⟩ := codes.window_bounds
  have value := tracks.value
  unfold BinDecoder.decodeBinTrm
  simp only [tracks.range, Nat.shiftLeft_eq, Nat.add_mul] at lower ⊢
  rw [if_pos (by omega)]
  rfl

/-! ## Bypass bins -/

theorem codes_scaled_of_bypass {bytes : List UInt8} {i : Interval} {bins numBins : Nat}
    (fits : bins < 2 ^ numBins) (codes : Codes bytes (i.advance numBins (i.range * bins) i.range)) :
    Codes bytes (scaled i numBins) := by
  refine codes.of_within ⟨le_rfl, ?_, ?_⟩
  · simp [scaled, Interval.advance]
  · have room := bypassGroup_fits i fits
    simp only [scaled, Interval.advance, Nat.sub_self, pow_zero, Nat.mul_one]
    omega

/-- After doubling, the register splits into the bins and the rest. -/
theorem bypass_split {d : BinDecoder ι} {bytes : List UInt8} {i : Interval} {bins numBins : Nat}
    (tracks : Tracks d bytes ⟨i.low * 2 ^ numBins, i.range, i.shifts + numBins⟩)
    (codes : Codes bytes (i.advance numBins (i.range * bins) i.range)) :
    bins * (i.range * 2 ^ 7) ≤ d.value ∧ d.value < (bins + 1) * (i.range * 2 ^ 7) ∧
      Tracks { d with value := d.value - bins * (i.range * 2 ^ 7) } bytes
        (i.advance numBins (i.range * bins) i.range) := by
  obtain ⟨lower, upper⟩ := codes.window_bounds
  have value := tracks.value
  have product : bins * (i.range * 2 ^ 7) = i.range * bins * 2 ^ 7 := by ring
  simp only [Interval.advance, Nat.add_mul] at lower upper
  simp only at value
  refine ⟨by omega, ?_, tracks.fifo, tracks.index, tracks.range, tracks.needed, ?_⟩
  · rw [Nat.add_mul]
    omega
  · simp only [Interval.advance, Nat.add_mul]
    omega

/-- Comparing with a halving threshold divides. -/
theorem decodeBits_eq (count : Nat) {range bins acc value : Nat} (fits : bins < 2 ^ count)
    (lower : bins * (range * 2 ^ 7) ≤ value) (upper : value < (bins + 1) * (range * 2 ^ 7))
    (room : (acc + 1) * 2 ^ count ≤ 2 ^ 32) :
    BinDecoder.decodeBits count (range <<< (count + 7)) acc value =
      (acc * 2 ^ count + bins, value - bins * (range * 2 ^ 7)) := by
  induction count generalizing bins acc value with
  | zero =>
      have none : bins = 0 := by simpa using fits
      subst none
      simp [BinDecoder.decodeBits]
  | succ count ih =>
      have positive := Nat.two_pow_pos count
      have threshold : range <<< (count + 1 + 7) >>> 1 = range <<< (count + 7) := by
        rw [Nat.shiftRight_eq_div_pow, Nat.shiftLeft_eq, Nat.shiftLeft_eq, pow_one,
          show count + 1 + 7 = count + 7 + 1 by omega, pow_succ, ← Nat.mul_assoc,
          Nat.mul_div_cancel _ (by decide)]
      have scale : range <<< (count + 7) = 2 ^ count * (range * 2 ^ 7) := by
        rw [Nat.shiftLeft_eq, pow_add]
        ring
      rw [pow_succ] at fits room
      simp only [BinDecoder.decodeBits, threshold]
      by_cases high : 2 ^ count ≤ bins
      · obtain ⟨rest, rfl⟩ : ∃ rest, bins = 2 ^ count + rest := ⟨bins - 2 ^ count, by omega⟩
        have reached : range <<< (count + 7) ≤ value := by
          rw [scale]
          exact le_trans (Nat.mul_le_mul_right _ high) lower
        have next : (acc + acc + 1 + 1) * 2 ^ count ≤ 2 ^ 32 := by
          calc (acc + acc + 1 + 1) * 2 ^ count = (acc + 1) * (2 ^ count * 2) := by ring
            _ ≤ 2 ^ 32 := room
        have accLt : acc + acc + 1 < 2 ^ 32 :=
          lt_of_lt_of_le (Nat.lt_succ_self _) (le_trans (Nat.le_mul_of_pos_right _ positive) next)
        simp only [Nat.add_mul] at lower upper
        rw [if_pos reached, Nat.mod_eq_of_lt accLt,
          ih (show rest < 2 ^ count by omega) (by omega) (by rw [Nat.add_mul]; omega) next, scale,
          Nat.sub_sub, ← Nat.add_mul]
        congr 1
        ring
      · have missed : ¬ range <<< (count + 7) ≤ value := by
          have bound : (bins + 1) * (range * 2 ^ 7) ≤ 2 ^ count * (range * 2 ^ 7) :=
            Nat.mul_le_mul_right _ (by omega)
          omega
        have next : (acc + acc + 1) * 2 ^ count ≤ 2 ^ 32 := by
          calc (acc + acc + 1) * 2 ^ count ≤ (acc + 1) * (2 ^ count * 2) := by
                rw [← Nat.mul_assoc, Nat.mul_right_comm]
                exact Nat.mul_le_mul_right _ (by omega)
            _ ≤ 2 ^ 32 := room
        have accLt : acc + acc < 2 ^ 32 :=
          lt_of_lt_of_le (Nat.lt_succ_self _) (le_trans (Nat.le_mul_of_pos_right _ positive) next)
        rw [if_neg missed, Nat.mod_eq_of_lt accLt, ih (by omega) lower upper next]
        congr 1
        ring

/-- A group of up to eight bins by comparison. -/
theorem decodeGroup_spec {d : BinDecoder ι} {bytes : List UInt8} {i : Interval}
    (tracks : Tracks d bytes i) (narrow : i.range ≤ 510) {bins numBins acc : Nat}
    (few : numBins ≤ 8) (fits : bins < 2 ^ numBins) (room : (acc + 1) * 2 ^ numBins ≤ 2 ^ 32)
    (codes : Codes bytes (Exact.bypassBins i (toBits numBins bins))) :
    ∃ d', BinDecoder.refill { d with
        value := (d.value <<< numBins) % 2 ^ 32
        bitsNeeded := d.bitsNeeded + numBins } = .ok d' ∧
      BinDecoder.decodeBits numBins (d'.range <<< (numBins + 7)) acc d'.value =
        (acc * 2 ^ numBins + bins, d'.value - bins * (i.range * 2 ^ 7)) ∧
      Tracks { d' with value := d'.value - bins * (i.range * 2 ^ 7) } bytes
        (Exact.bypassBins i (toBits numBins bins)) ∧ d'.ctx = d.ctx := by
  rw [bypassGroup_eq i fits] at codes ⊢
  obtain ⟨d', run, tracks', ctx'⟩ :=
    refill_spec tracks few narrow (codes_scaled_of_bypass fits codes) d.range
  rw [tracks.range] at tracks'
  obtain ⟨lower, upper, moved⟩ := bypass_split tracks' codes
  refine ⟨d', run, ?_, moved, ctx'⟩
  rw [show d'.range = i.range from tracks'.range]
  exact decodeBits_eq numBins fits lower upper room

theorem decodeBinEP_tracks {d : BinDecoder ι} {bytes : List UInt8} {i : Interval}
    (tracks : Tracks d bytes i) (narrow : i.range ≤ 510) (bin : Bool)
    (codes : Codes bytes (Exact.bypass i bin)) :
    ∃ d', d.decodeBinEP = .ok (bin, d') ∧ Tracks d' bytes (Exact.bypass i bin) ∧
      d'.ctx = d.ctx := by
  have single : Exact.bypass i bin = i.advance 1 (i.range * bin.toNat) i.range := by
    rw [Exact.bypass, Nat.mul_comm]
  rw [single] at codes ⊢
  have fits : bin.toNat < 2 ^ 1 := Bool.toNat_lt bin
  obtain ⟨d', run, tracks', ctx'⟩ :=
    refill_spec tracks (show 1 ≤ 8 by decide) narrow (codes_scaled_of_bypass fits codes) d.range
  rw [tracks.range] at tracks'
  obtain ⟨lower, upper, moved⟩ := bypass_split tracks' codes
  have range : d'.range = i.range := tracks'.range
  rw [Nat.shiftLeft_eq, pow_one, Nat.mul_two, Nat.cast_one] at run
  refine ⟨_, ?_, moved, ctx'⟩
  unfold BinDecoder.decodeBinEP
  rw [bind_ok_eq run]
  simp only [range, Nat.shiftLeft_eq]
  cases bin with
  | false =>
      simp only [Bool.toNat_false, Nat.zero_mul, Nat.zero_add, Nat.one_mul] at lower upper ⊢
      rw [if_neg (by omega), Nat.sub_zero, ← range]
      rfl
  | true =>
      simp only [Bool.toNat_true, Nat.one_mul] at lower upper ⊢
      rw [if_pos (by omega)]
      rfl

/-- A whole byte of bins reads exactly one byte. -/
theorem refill_byte {d d' : BinDecoder ι} {value : Nat} (low : -8 ≤ d.bitsNeeded)
    (run : BinDecoder.refill { d with value, bitsNeeded := d.bitsNeeded + 8 } = .ok d') :
    ∃ byte bitstream, d.bitstream.readByte = .ok (byte, bitstream) ∧
      d' = { d with
        bitstream
        value := (value + byte <<< (8 + d.bitsNeeded).toNat) % 2 ^ 32 } := by
  unfold BinDecoder.refill at run
  rw [if_pos (by simp only; omega)] at run
  obtain ⟨⟨byte, bitstream⟩, read, same⟩ := bind_eq_ok_iff.mp run
  refine ⟨byte, bitstream, read, ?_⟩
  have state := Except.ok.inj same
  rw [← state, Int.add_comm 8]
  simp only [add_sub_cancel_right]

/-- The digits read so far and those to come. -/
theorem join_digits (acc bins front back : Nat) :
    (acc * 2 ^ front + bins >>> back) * 2 ^ back + bins % 2 ^ back =
      acc * 2 ^ (front + back) + bins := by
  rw [Nat.shiftRight_eq_div_pow, Nat.add_mul, pow_add, Nat.mul_assoc, Nat.add_assoc,
    Nat.div_add_mod']

theorem join_room {acc bins front back bound : Nat} (pattern : bins >>> back < 2 ^ front)
    (room : (acc + 1) * 2 ^ (front + back) ≤ bound) :
    (acc * 2 ^ front + bins >>> back + 1) * 2 ^ back ≤ bound := by
  refine le_trans ?_ room
  rw [pow_add, ← Nat.mul_assoc]
  apply Nat.mul_le_mul_right
  rw [Nat.add_mul]
  omega

theorem decodeUnalignedBinsEP_tracks (fuel : Nat) {bins numBins acc : Nat}
    (enough : numBins < fuel) (fits : bins < 2 ^ numBins)
    (room : (acc + 1) * 2 ^ numBins ≤ 2 ^ 32) {d : BinDecoder ι} {bytes : List UInt8}
    {i : Interval} (tracks : Tracks d bytes i) (narrow : i.range ≤ 510)
    (codes : Codes bytes (Exact.bypassBins i (toBits numBins bins))) :
    ∃ d', BinDecoder.decodeUnalignedBinsEP fuel numBins acc d =
        .ok (acc * 2 ^ numBins + bins, d') ∧
      Tracks d' bytes (Exact.bypassBins i (toBits numBins bins)) ∧ d'.ctx = d.ctx := by
  induction fuel generalizing bins numBins acc d i with
  | zero => omega
  | succ fuel ih =>
      rw [BinDecoder.decodeUnalignedBinsEP]
      by_cases more : numBins > 8
      · rw [if_pos more]
        obtain ⟨back, rfl⟩ : ∃ back, numBins = 8 + back := ⟨numBins - 8, by omega⟩
        have backEq : 8 + back - 8 = back := by omega
        have pattern : bins >>> back < 2 ^ 8 := front_lt fits
        have left : bins % 2 ^ back < 2 ^ back := Nat.mod_lt _ (Nat.two_pow_pos _)
        rw [bypassBins_split, ← toBits_mod back bins] at codes ⊢
        have codes₁ := codes.of_within (Exact.bypassBins_within _ _)
        have room₁ : (acc + 1) * 2 ^ 8 ≤ 2 ^ 32 := by
          refine le_trans (Nat.mul_le_mul_left _ ?_) room
          exact Nat.pow_le_pow_right (by decide) (by omega)
        obtain ⟨d₁, run₁, bits₁, tracks₁, ctx₁⟩ :=
          decodeGroup_spec tracks narrow le_rfl pattern room₁ codes₁
        have needed := tracks.needed
        obtain ⟨byte, bitstream, read, state⟩ := refill_byte (by omega) run₁
        have narrow₁ : (Exact.bypassBins i (toBits 8 (bins >>> back))).range ≤ 510 := by
          rw [Exact.bypassBins_eq]
          exact narrow
        obtain ⟨d₂, run₂, tracks₂, ctx₂⟩ :=
          ih (show back < fuel by omega) left (join_room pattern room) tracks₁ narrow₁ codes
        refine ⟨d₂, ?_, tracks₂, ctx₂.trans ctx₁⟩
        subst state
        simp only at bits₁
        rw [bind_ok_eq read]
        simp only [backEq, bits₁]
        rw [run₂]
        rw [join_digits]
      · rw [if_neg more]
        obtain ⟨d', run, bits, tracks', ctx'⟩ :=
          decodeGroup_spec tracks narrow (show numBins ≤ 8 by omega) fits room codes
        refine ⟨_, ?_, tracks', ctx'⟩
        rw [bind_ok_eq run]
        simp only [bits]
        rfl

/-- The register of the decoder has no bits below the byte position. -/
theorem Tracks.dvd_value {d : BinDecoder ι} {bytes : List UInt8} {i : Interval}
    (tracks : Tracks d bytes i) : 2 ^ (i.shifts % 8) ∣ d.value := by
  have value := tracks.value
  have whole : 2 ^ (i.shifts % 8) ∣ d.value + i.low * 2 ^ 7 := by
    rw [value, window]
    exact Nat.dvd_mul_left _ _
  have lower : 2 ^ (i.shifts % 8) ∣ i.low * 2 ^ 7 :=
    Nat.dvd_mul_left_of_dvd (Nat.pow_dvd_pow 2 (by omega)) _
  exact (Nat.dvd_add_left lower).mp whole

/-- Shifting `count` bins out of a 15-bit register and a new byte in below. -/
theorem aligned_shift {value fill count position bins : Nat} (low : position + count ≤ 15)
    (registerLt : value < 2 ^ 15) (clear : 2 ^ position ∣ value)
    (fillLt : fill < 2 ^ (position + count)) (lower : bins * 2 ^ 15 ≤ value * 2 ^ count + fill)
    (upper : value * 2 ^ count + fill < (bins + 1) * 2 ^ 15) :
    (value >>> (15 - count)) &&& (1 <<< count - 1) = bins ∧
      ((value <<< count) &&& 0x7FFF) ||| fill = value * 2 ^ count + fill - bins * 2 ^ 15 := by
  obtain ⟨unit, rfl⟩ := clear
  obtain ⟨step, stepDef⟩ : ∃ step, step = 2 ^ (position + count) := ⟨_, rfl⟩
  obtain ⟨rest, restDef⟩ : ∃ rest, rest = 2 ^ (15 - (position + count)) := ⟨_, rfl⟩
  have positive : 0 < step := stepDef ▸ Nat.two_pow_pos _
  have restPos : 0 < rest := restDef ▸ Nat.two_pow_pos _
  have split : 2 ^ 15 = rest * step := by
    rw [stepDef, restDef, ← pow_add]
    congr 1
    omega
  have moved : 2 ^ position * unit * 2 ^ count = unit * step := by
    rw [stepDef, pow_add]
    ring
  have upperPart : 2 ^ (15 - count) = 2 ^ position * rest := by
    rw [restDef, ← pow_add]
    congr 1
    omega
  rw [← stepDef] at fillLt
  rw [moved, split, ← Nat.mul_assoc] at lower upper
  -- the fill is below one step, so the bins are already the quotient without it
  have quotient : unit / rest = bins := by
    apply Nat.div_eq_of_lt_le
    · have reached : bins * rest * step < (unit + 1) * step := by
        rw [Nat.add_mul]
        omega
      exact Nat.lt_succ_iff.mp (Nat.lt_of_mul_lt_mul_right reached)
    · have bounded : unit * step < (bins + 1) * rest * step := by omega
      exact Nat.lt_of_mul_lt_mul_right bounded
  constructor
  · have small : unit / rest < 2 ^ count := by
      apply Nat.div_lt_of_lt_mul
      have bound : 2 ^ position * unit < 2 ^ position * (rest * 2 ^ count) := by
        calc 2 ^ position * unit < 2 ^ 15 := registerLt
          _ = 2 ^ position * (rest * 2 ^ count) := by
            rw [split, stepDef, pow_add]
            ring
      exact Nat.lt_of_mul_lt_mul_left bound
    rw [Nat.shiftLeft_eq, Nat.one_mul, Nat.and_two_pow_sub_one_eq_mod, Nat.shiftRight_eq_div_pow,
      upperPart, Nat.mul_div_mul_left _ _ (Nat.two_pow_pos _), Nat.mod_eq_of_lt small, quotient]
  · have masked : (2 ^ position * unit) <<< count &&& 0x7FFF = unit % rest * step := by
      rw [show 0x7FFF = 2 ^ 15 - 1 by rfl, Nat.and_two_pow_sub_one_eq_mod, Nat.shiftLeft_eq, moved,
        split, Nat.mul_mod_mul_right]
    have parts := Nat.div_add_mod' unit rest
    have product : unit * step = bins * rest * step + unit % rest * step := by
      rw [← Nat.add_mul, ← quotient, parts]
    rw [masked, stepDef, OutputBitstream.shift_or_eq_add (stepDef ▸ fillLt), ← stepDef, moved,
      split, ← Nat.mul_assoc]
    omega

/-- A group of up to eight bins at range 256. -/
theorem alignedGroup_spec {d : BinDecoder ι} {bytes : List UInt8} {i : Interval}
    (tracks : Tracks d bytes i) (aligned : i.range = 256) {bins numBins : Nat} (few : numBins ≤ 8)
    (fits : bins < 2 ^ numBins) (codes : Codes bytes (Exact.bypassBins i (toBits numBins bins))) :
    (d.value >>> (15 - numBins)) &&& (1 <<< numBins - 1) = bins ∧
    ∃ d', d.shiftAligned numBins = .ok d' ∧
      Tracks d' bytes (Exact.bypassBins i (toBits numBins bins)) ∧ d'.ctx = d.ctx := by
  have needed := tracks.needed
  have registerLt : d.value < 2 ^ 15 := by
    have inside := tracks.value_lt (codes.of_within (Exact.bypassBins_within _ _))
    rwa [aligned] at inside
  have doubledLt : d.value * 2 ^ numBins < 2 ^ 23 := by
    calc d.value * 2 ^ numBins ≤ d.value * 2 ^ 8 :=
          Nat.mul_le_mul_left _ (Nat.pow_le_pow_right (by decide) few)
      _ < 2 ^ 23 := by omega
  rw [bypassGroup_eq i fits] at codes ⊢
  obtain ⟨d₁, run, tracks₁, ctx₁⟩ :=
    refill_spec tracks few (by omega) (codes_scaled_of_bypass fits codes) d.range
  rw [tracks.range] at tracks₁
  obtain ⟨lower, upper, moved⟩ := bypass_split tracks₁ codes
  rw [aligned, show 256 * 2 ^ 7 = 2 ^ 15 by rfl] at lower upper moved
  rw [Nat.shiftLeft_eq, Nat.mod_eq_of_lt (by omega)] at run
  unfold BinDecoder.refill at run
  unfold BinDecoder.shiftAligned
  simp only at run ⊢
  by_cases reads : d.bitsNeeded + (numBins : Int) ≥ 0
  · rw [if_pos reads] at run ⊢
    obtain ⟨⟨byte, bitstream⟩, read, same⟩ := bind_eq_ok_iff.mp run
    have state := Except.ok.inj same
    have byteLt := InputBitstream.readByte_lt read
    have position : (d.bitsNeeded + (numBins : Int)).toNat = i.shifts % 8 + numBins - 8 := by
      omega
    have fillLt : byte <<< (d.bitsNeeded + (numBins : Int)).toNat < 2 ^ (i.shifts % 8 + numBins) := by
      rw [position, Nat.shiftLeft_eq]
      calc byte * 2 ^ (i.shifts % 8 + numBins - 8)
          < 2 ^ 8 * 2 ^ (i.shifts % 8 + numBins - 8) :=
            Nat.mul_lt_mul_of_pos_right byteLt (Nat.two_pow_pos _)
        _ = 2 ^ (i.shifts % 8 + numBins) := by
            rw [← pow_add]
            congr 1
            omega
    have fillPower : 2 ^ (i.shifts % 8 + numBins) ≤ 2 ^ 15 :=
      Nat.pow_le_pow_right (by decide) (by omega)
    have sumLt : d.value * 2 ^ numBins + byte <<< (d.bitsNeeded + (numBins : Int)).toNat < 2 ^ 32 :=
      by omega
    rw [Nat.mod_eq_of_lt sumLt] at state
    subst state
    obtain ⟨digits, register⟩ := aligned_shift (show i.shifts % 8 + numBins ≤ 15 by omega)
      registerLt tracks.dvd_value fillLt lower upper
    refine ⟨digits, _, bind_ok_eq read, ?_, rfl⟩
    simp only
    rw [register, aligned]
    exact moved
  · rw [if_neg reads] at run ⊢
    have state := Except.ok.inj run
    subst state
    obtain ⟨digits, register⟩ := aligned_shift (show i.shifts % 8 + numBins ≤ 15 by omega)
      registerLt tracks.dvd_value (Nat.two_pow_pos _) lower upper
    refine ⟨digits, _, rfl, ?_, rfl⟩
    rw [Nat.or_zero, Nat.add_zero] at register
    rw [register, aligned]
    exact moved

theorem decodeAlignedBinsEP_tracks (fuel : Nat) {bins numBins acc : Nat}
    (enough : numBins < fuel) (fits : bins < 2 ^ numBins)
    (room : (acc + 1) * 2 ^ numBins ≤ 2 ^ 32) {d : BinDecoder ι} {bytes : List UInt8}
    {i : Interval} (tracks : Tracks d bytes i) (aligned : i.range = 256)
    (codes : Codes bytes (Exact.bypassBins i (toBits numBins bins))) :
    ∃ d', BinDecoder.decodeAlignedBinsEP fuel numBins acc d =
        .ok (acc * 2 ^ numBins + bins, d') ∧
      Tracks d' bytes (Exact.bypassBins i (toBits numBins bins)) ∧ d'.ctx = d.ctx := by
  induction fuel generalizing bins numBins acc d i with
  | zero => omega
  | succ fuel ih =>
      rw [BinDecoder.decodeAlignedBinsEP]
      by_cases more : numBins > 0
      · rw [if_pos more]
        obtain ⟨front, frontDef⟩ : ∃ front, front = min numBins 8 := ⟨_, rfl⟩
        obtain ⟨back, rfl⟩ : ∃ back, numBins = front + back := ⟨numBins - front, by omega⟩
        have backEq : front + back - front = back := by omega
        have pattern : bins >>> back < 2 ^ front := front_lt fits
        have left : bins % 2 ^ back < 2 ^ back := Nat.mod_lt _ (Nat.two_pow_pos _)
        rw [bypassBins_split, ← toBits_mod back bins] at codes ⊢
        have codes₁ := codes.of_within (Exact.bypassBins_within _ _)
        obtain ⟨digits, d₁, run₁, tracks₁, ctx₁⟩ :=
          alignedGroup_spec tracks aligned (show front ≤ 8 by omega) pattern codes₁
        have room₁ := join_room pattern room
        have accLt : acc * 2 ^ front < 2 ^ 32 := by
          have grows := le_trans (Nat.le_mul_of_pos_right _ (Nat.two_pow_pos back)) room₁
          omega
        have aligned₁ : (Exact.bypassBins i (toBits front (bins >>> back))).range = 256 := by
          rw [Exact.bypassBins_eq]
          exact aligned
        obtain ⟨d₂, run₂, tracks₂, ctx₂⟩ :=
          ih (show back < fuel by omega) left room₁ tracks₁ aligned₁ codes
        refine ⟨d₂, ?_, tracks₂, ctx₂.trans ctx₁⟩
        simp only [← frontDef, backEq, digits]
        rw [bind_ok_eq run₁, Nat.shiftLeft_eq acc, Nat.mod_eq_of_lt accLt,
          OutputBitstream.shift_or_eq_add pattern, run₂]
        rw [join_digits]
      · rw [if_neg more]
        have none : numBins = 0 := by omega
        subst none
        have zero : bins = 0 := by simpa using fits
        subst zero
        exact ⟨d, by simp, tracks, rfl⟩

theorem decodeBinsEP_tracks {d : BinDecoder ι} {bytes : List UInt8} {i : Interval}
    (tracks : Tracks d bytes i) (narrow : i.range ≤ 510) {bins numBins : Nat}
    (width : numBins ≤ 32) (fits : bins < 2 ^ numBins)
    (codes : Codes bytes (Exact.bypassBins i (toBits numBins bins))) :
    ∃ d', d.decodeBinsEP numBins = .ok (bins, d') ∧
      Tracks d' bytes (Exact.bypassBins i (toBits numBins bins)) ∧ d'.ctx = d.ctx := by
  have room : (0 + 1) * 2 ^ numBins ≤ 2 ^ 32 := by
    rw [Nat.zero_add, Nat.one_mul]
    exact Nat.pow_le_pow_right (by decide) width
  unfold BinDecoder.decodeBinsEP
  by_cases aligned : d.range = 256
  · rw [if_pos aligned]
    obtain ⟨d', run, rest⟩ := decodeAlignedBinsEP_tracks _ (Nat.lt_succ_self _) fits room tracks
      (tracks.range.symm.trans aligned) codes
    exact ⟨d', by simpa using run, rest⟩
  · rw [if_neg aligned]
    obtain ⟨d', run, rest⟩ :=
      decodeUnalignedBinsEP_tracks _ (Nat.lt_succ_self _) fits room tracks narrow codes
    exact ⟨d', by simpa using run, rest⟩

end

end Vtm.Cabac
