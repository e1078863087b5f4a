import Vtm.RoundTrip.BitStream
import Vtm.RoundTrip.VLC

/-!
# Exp-Golomb codes over their whole range

`RoundTrip.VLC` reads back the code words the writer emits. Here the reader is
run on every bit string: the number of zeros in front of the first one decides
whether it returns a value, and which check stops it otherwise.
-/

namespace Vtm.RoundTrip.ExpGolomb

open Vtm.Std Vtm.VLCWriter Vtm.VLCReader Vtm.RoundTrip.VLC
open InputBitstream (length_remaining ofFifo)

/-- A bit string is a run of zeros, or has a first one. -/
theorem zeros_or_first_one (bits : List Bool) :
    (∃ zeros, bits = List.replicate zeros false) ∨
      ∃ zeros rest, bits = List.replicate zeros false ++ true :: rest := by
  induction bits with
  | nil => exact Or.inl ⟨0, rfl⟩
  | cons bit rest ih =>
      cases bit with
      | true => exact Or.inr ⟨0, rest, rfl⟩
      | false =>
          rcases ih with ⟨zeros, rfl⟩ | ⟨zeros, tail, rfl⟩
          · exact Or.inl ⟨zeros + 1, rfl⟩
          · exact Or.inr ⟨zeros + 1, tail, rfl⟩

/-- The zeros in front of the first one. -/
def leadingZeroCount (bits : List Bool) : Nat :=
  (bits.takeWhile fun bit => !bit).length

theorem leadingZeroCount_eq (zeros : Nat) (rest : List Bool) :
    leadingZeroCount (List.replicate zeros false ++ true :: rest) = zeros := by
  simp [leadingZeroCount]

theorem read_bit {bit : Bool} {rest : List Bool} {s : InputBitstream} (wf : s.WellFormed)
    (view : s.remaining = bit :: rest) :
    ∃ t : InputBitstream, VLCReader.read 1 s = .ok (bit.toNat, t) ∧ t.WellFormed ∧
      t.remaining = rest := by
  have digit : toBits 1 bit.toNat = [bit] := by cases bit <;> rfl
  obtain ⟨t, run, wf', left, _⟩ := InputBitstream.read_spec wf (by decide : 1 ≤ 32)
    (Bool.toNat_lt bit) (view.trans (by rw [digit]; rfl))
  exact ⟨t, run, wf', left⟩

theorem read_bit_exceeds {s : InputBitstream} (wf : s.WellFormed) (view : s.remaining = []) :
    VLCReader.read 1 s = .error "Exceeded FIFO size" := by
  have empty : s.unreadBits = 0 := by
    rw [← length_remaining, view]
    rfl
  exact InputBitstream.read_exceeds wf (by decide) (by omega)

/-- Zeros up to the end of the stream stop the counting loop there. -/
theorem leadingZeros_exceeds (zeros fuel uiLength : Nat) (enough : zeros < fuel)
    {s : InputBitstream} (wf : s.WellFormed) (view : s.remaining = List.replicate zeros false) :
    leadingZeros fuel uiLength s = .error "Exceeded FIFO size" := by
  induction zeros generalizing fuel uiLength s with
  | zero =>
      obtain ⟨fuel, rfl⟩ : ∃ rounds, fuel = rounds + 1 := ⟨fuel - 1, by omega⟩
      exact bind_run_error (read_bit_exceeds wf view)
  | succ zeros ih =>
      obtain ⟨fuel, rfl⟩ : ∃ rounds, fuel = rounds + 1 := ⟨fuel - 1, by omega⟩
      obtain ⟨t, zero, wf', left⟩ := read_bit wf view
      rw [leadingZeros, bind_run zero, if_pos (by decide)]
      exact ih fuel _ (by omega) wf' left

/-- Without a one the reader stops at the end of the stream. -/
theorem xReadUvlc_zeros {zeros : Nat} {s : InputBitstream} (wf : s.WellFormed)
    (view : s.remaining = List.replicate zeros false) :
    xReadUvlc s = .error "Exceeded FIFO size" := by
  cases zeros with
  | zero => exact bind_run_error (read_bit_exceeds wf view)
  | succ zeros =>
      obtain ⟨t, zero, wf', left⟩ := read_bit wf view
      have count : t.unreadBits = zeros := by
        rw [← length_remaining, left, List.length_replicate]
      have stops : zeroRunLength t = .error "Exceeded FIFO size" := by
        rw [zeroRunLength, bind_run (show unreadBits t = .ok (t.unreadBits, t) from rfl), count]
        exact leadingZeros_exceeds zeros _ 0 (by omega) wf' left
      rw [xReadUvlc, bind_run zero]
      exact bind_run_error stops

/-- Behind a run of zeros and the one that ends it, the reader takes as many bits
as it counted zeros. -/
theorem xReadUvlc_first_one {zeros : Nat} {rest : List Bool} {s : InputBitstream}
    (wf : s.WellFormed) (view : s.remaining = List.replicate (zeros + 1) false ++ true :: rest) :
    ∃ t : InputBitstream, t.WellFormed ∧ t.remaining = rest ∧
      xReadUvlc s = (VLCReader.read ((zeros + 1) % 2 ^ 32) >>= fun uiVal =>
        (pure ((uiVal + (2 ^ ((zeros + 1) % 2 ^ 32) - 1)) % 2 ^ 32) : BitReader Nat)) t := by
  obtain ⟨t, zero, wf', left⟩ := read_bit wf view
  have counted : Accepts (inputView t.fifo t.emulationPreventionByteLocation) zeroRunLength
      (List.replicate zeros false ++ [true]) ((zeros + 1) % 2 ^ 32) := accepts_zeroRunLength zeros
  obtain ⟨u, counts, ⟨wf₂, _, _⟩, left₂⟩ := counted t rest ⟨wf', rfl, rfl⟩ (by
    rw [List.append_assoc]
    exact left)
  refine ⟨u, wf₂, left₂, ?_⟩
  rw [xReadUvlc, bind_run zero]
  exact bind_run counts

/-- A run of zeros counted as at most 32 with as many bits behind its one is read. -/
theorem xReadUvlc_returns {zeros uiLength : Nat} {rest : List Bool} {s : InputBitstream}
    (wf : s.WellFormed) (view : s.remaining = List.replicate zeros false ++ true :: rest)
    (counted : zeros % 2 ^ 32 = uiLength) (word : uiLength ≤ 32)
    (enough : uiLength ≤ rest.length) :
    ∃ t : InputBitstream,
      xReadUvlc s = .ok ((ofBits (rest.take uiLength) + (2 ^ uiLength - 1)) % 2 ^ 32, t) ∧
      t.WellFormed ∧ t.remaining = rest.drop uiLength := by
  cases zeros with
  | zero =>
      obtain rfl : uiLength = 0 := by omega
      obtain ⟨t, one, wf', left⟩ := read_bit wf view
      refine ⟨t, ?_, wf', left⟩
      rw [xReadUvlc, bind_run one]
      rfl
  | succ zeros =>
      obtain ⟨t, wf', left, tail⟩ := xReadUvlc_first_one wf view
      rw [← left, length_remaining] at enough
      obtain ⟨u, run, wf₂, left', _⟩ := InputBitstream.read_take wf' word enough
      have number : VLCReader.read uiLength t = .ok (ofBits (t.remaining.take uiLength), u) := run
      refine ⟨u, ?_, wf₂, by rw [left', left]⟩
      rw [tail, counted, bind_run number, left]
      rfl

/-- A run counted as longer, or too few bits behind its one, stop the reader. -/
theorem xReadUvlc_stops {zeros : Nat} {rest : List Bool} {s : InputBitstream}
    (wf : s.WellFormed) (view : s.remaining = List.replicate zeros false ++ true :: rest)
    (stops : 32 < zeros % 2 ^ 32 ∨ rest.length < zeros % 2 ^ 32) :
    xReadUvlc s = .error "Too many bits read" ∨ xReadUvlc s = .error "Exceeded FIFO size" := by
  obtain ⟨zeros, rfl⟩ : ∃ fewer, zeros = fewer + 1 := ⟨zeros - 1, by omega⟩
  obtain ⟨t, wf', left, tail⟩ := xReadUvlc_first_one wf view
  generalize (zeros + 1) % 2 ^ 32 = uiLength at stops tail
  by_cases word : uiLength ≤ 32
  · right
    have short : t.unreadBits < uiLength := by
      rw [← length_remaining, left]
      omega
    have number : VLCReader.read uiLength t = .error "Exceeded FIFO size" :=
      InputBitstream.read_exceeds wf' word short
    rw [tail, bind_run_error number]
  · left
    have number : VLCReader.read uiLength t = .error "Too many bits read" := by
      simp only [VLCReader.read, InputBitstream.read, CHECK, if_pos (by omega : 32 < uiLength)]
      rfl
    rw [tail, bind_run_error number]

/-- A run of at most 31 zeros, its one and as many bits are a code word. -/
theorem uvlcBits_of_zeros {zeros : Nat} {digits : List Bool} (few : zeros ≤ 31)
    (size : digits.length = zeros) :
    (ofBits digits + (2 ^ zeros - 1)) % 2 ^ 32 < 2 ^ 32 - 1 ∧
      uvlcBits ((ofBits digits + (2 ^ zeros - 1)) % 2 ^ 32 + 1) =
        List.replicate zeros false ++ true :: digits := by
  have below := ofBits_lt digits
  rw [size] at below
  have power : 2 ^ (zeros + 1) ≤ 2 ^ 32 := Nat.pow_le_pow_right (by decide) (by omega)
  have double : 2 ^ (zeros + 1) = 2 * 2 ^ zeros := by rw [pow_succ, Nat.mul_comm]
  have positive : 0 < 2 ^ zeros := Nat.two_pow_pos zeros
  rw [Nat.mod_eq_of_lt (by omega)]
  refine ⟨by omega, ?_⟩
  have code : ofBits digits + (2 ^ zeros - 1) + 1 = 2 ^ zeros + ofBits digits := by omega
  have logarithm : Nat.log2 (2 ^ zeros + ofBits digits) = zeros := by
    rw [Nat.log2_eq_iff (by omega)]
    omega
  have tail := toBits_ofBits digits
  rw [size] at tail
  rw [code, uvlcBits, toBits_log2 (by omega), logarithm, Nat.add_sub_cancel_left, tail]

/-- What a reader of code words promises on one stream: a value comes with the one
code word at the front of the stream, whose prefix has at most 31 zeros; anything
else is stopped by a check. -/
def ReadsOneCodeWord (s : InputBitstream) : Prop :=
  (∀ u s', xReadUvlc s = .ok (u, s') →
    u < 2 ^ 32 - 1 ∧ leadingZeroCount s.remaining ≤ 31 ∧
      s.remaining = uvlcBits (u + 1) ++ s'.remaining ∧
      ∀ v rest, v < 2 ^ 32 - 1 → s.remaining = uvlcBits (v + 1) ++ rest →
        v = u ∧ rest = s'.remaining) ∧
  ∀ message, xReadUvlc s = .error message →
    message = "Too many bits read" ∨ message = "Exceeded FIFO size"

/-- The bit strings whose prefix of more than 31 zeros the reader does not stop at:
as it counts them, modulo `2 ^ 32`, they are at most 32 and as many bits are behind
the one. With 32 zeros it shifts by the width of its word. -/
def PassesLongPrefix (bits : List Bool) : Prop :=
  ∃ zeros rest, bits = List.replicate zeros false ++ true :: rest ∧ 31 < zeros ∧
    zeros % 2 ^ 32 ≤ 32 ∧ zeros % 2 ^ 32 ≤ rest.length

/-- A code word at the front of the stream is the one the reader takes. -/
theorem codeWord_unique {s s' : InputBitstream} {u v : Nat} {rest : List Bool}
    (wf : s.WellFormed) (run : xReadUvlc s = .ok (u, s')) (small : v < 2 ^ 32 - 1)
    (view : s.remaining = uvlcBits (v + 1) ++ rest) : v = u ∧ rest = s'.remaining := by
  have accepts : Accepts (inputView s.fifo s.emulationPreventionByteLocation) xReadUvlc
      (uvlcBits (v + 1)) (v + 1 - 1) := accepts_uvlcBits (by omega) (by omega)
  obtain ⟨t, other, _, left⟩ := accepts s rest ⟨wf, rfl, rfl⟩ view
  rw [run] at other
  cases other
  exact ⟨by omega, left.symm⟩

/-- The reader keeps its promise on a stream unless it passes a long prefix. -/
theorem readsOneCodeWord_iff {s : InputBitstream} (wf : s.WellFormed) :
    ReadsOneCodeWord s ↔ ¬ PassesLongPrefix s.remaining := by
  constructor
  · rintro ⟨promise, _⟩ ⟨zeros, rest, view, long, word, enough⟩
    obtain ⟨t, run, _⟩ := xReadUvlc_returns wf view rfl word enough
    obtain ⟨_, few, _⟩ := promise _ _ run
    rw [view, leadingZeroCount_eq] at few
    omega
  · intro regular
    rcases zeros_or_first_one s.remaining with ⟨zeros, view⟩ | ⟨zeros, rest, view⟩
    · have stops := xReadUvlc_zeros wf view
      constructor
      · intro u s' run
        rw [stops] at run
        cases run
      · intro message failed
        rw [stops] at failed
        cases failed
        exact Or.inr rfl
    · by_cases stops : 32 < zeros % 2 ^ 32 ∨ rest.length < zeros % 2 ^ 32
      · have failed := xReadUvlc_stops wf view stops
        constructor
        · intro u s' run
          rcases failed with failed | failed <;> rw [failed] at run <;> cases run
        · intro message found
          rcases failed with failed | failed
          · rw [failed] at found
            cases found
            exact Or.inl rfl
          · rw [failed] at found
            cases found
            exact Or.inr rfl
      · have few : zeros ≤ 31 := by
          by_contra many
          exact regular ⟨zeros, rest, view, by omega, by omega, by omega⟩
        have counted : zeros % 2 ^ 32 = zeros := Nat.mod_eq_of_lt (by omega)
        obtain ⟨t, run, _, left⟩ := xReadUvlc_returns wf view counted (by omega) (by omega)
        have size : (rest.take zeros).length = zeros := List.length_take_of_le (by omega)
        obtain ⟨small, word⟩ := uvlcBits_of_zeros few size
        constructor
        · intro u s' returned
          rw [run] at returned
          cases returned
          refine ⟨small, ?_, ?_, fun v tail fits => codeWord_unique wf run fits⟩
          · rw [view, leadingZeroCount_eq]
            exact few
          · rw [word, left, List.append_assoc, List.cons_append, List.take_append_drop, view]
        · intro message failed
          rw [run] at failed
          cases failed

end Vtm.RoundTrip.ExpGolomb
