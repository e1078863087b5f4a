import Vtm.RoundTrip.ExpGolomb

/-!
# The bits of the syntax elements

How many bits each element writer appends, and how many its reader takes for the
value it returns. Nothing is assumed about the bits a reader finds.
-/

namespace Vtm.RoundTrip.BitCount

open Vtm.Std Vtm.VLCWriter Vtm.VLCReader Vtm.RoundTrip.VLC Vtm.RoundTrip.ExpGolomb

/-- An input bitstream carries the bits not yet read. -/
def streamView : View InputBitstream Bool := ⟨InputBitstream.WellFormed, InputBitstream.remaining⟩

/-- Whatever was written is at the front of some stream of whole bytes. -/
theorem stream_of_bits {after : OutputBitstream} (wf : after.WellFormed) :
    ∃ (s : InputBitstream) (rest : List Bool), s.WellFormed ∧ s.numHeldBits = 0 ∧
      s.remaining = after.bits ++ rest := by
  obtain ⟨aligned, _, bits⟩ := OutputBitstream.writeAlignZero_spec wf
  have fresh : (InputBitstream.ofFifo after.writeAlignZero.fifo).WellFormed :=
    ⟨Nat.zero_lt_succ 7, Nat.zero_le _⟩
  have view : (InputBitstream.ofFifo after.writeAlignZero.fifo).remaining =
      after.writeAlignZero.bits := by
    rw [OutputBitstream.bits, aligned]
    simp [InputBitstream.remaining, InputBitstream.ofFifo]
  exact ⟨_, _, fresh, rfl, view.trans bits⟩

/-- The length of the code word of a value. -/
def uvlcSize (value : Nat) : Nat := 2 * Nat.log2 (value + 1) + 1

theorem uvlcSize_pos (value : Nat) : 0 < uvlcSize value := Nat.succ_pos _

theorem length_uvlcBits (value : Nat) : (uvlcBits (value + 1)).length = uvlcSize value := by
  simp only [uvlcSize, uvlcBits, List.length_append, List.length_replicate, length_toBits]
  omega

theorem appends_bool (flag : Bool) : Appends outputView (xWriteBool flag) () 1 := by
  intro s wf
  obtain ⟨s', run, wf', bits⟩ := write_run wf 1 flag.toNat (by decide) (Bool.toNat_lt flag)
  refine ⟨s', run, wf', ?_⟩
  simp only [outputView, bits, List.length_append, length_toBits]

theorem appends_code {value length : Nat} (positive : 0 < length) (width : length ≤ 32)
    (fits : value < 2 ^ length) : Appends outputView (xWriteCode value length) () length := by
  intro s wf
  obtain ⟨s', run, wf', bits⟩ := write_run wf length value width fits
  refine ⟨s', ?_, wf', ?_⟩
  · rw [xWriteCode, bind_run (check_run (by omega)), run]
  · simp only [outputView, bits, List.length_append, length_toBits]

theorem appends_uvlc {value : Nat} (word : value < 2 ^ 32 - 1) :
    Appends outputView (xWriteUvlc value) () (uvlcSize value) := by
  intro s wf
  obtain ⟨s', run, wf', bits⟩ := xWriteUvlc_run word wf
  refine ⟨s', run, wf', ?_⟩
  simp only [outputView, bits, List.length_append, length_uvlcBits]

theorem spends_read {n : Nat} (width : n ≤ 32) :
    Spends streamView (VLCReader.read n) (fun _ taken => taken = n) := by
  intro s value s' wf run
  by_cases enough : n ≤ s.unreadBits
  · obtain ⟨t, ran, wf', left, _⟩ := InputBitstream.read_take wf width enough
    have same : s.read n = .ok (value, s') := run
    rw [ran] at same
    cases same
    refine ⟨wf', n, ?_, rfl⟩
    rw [← InputBitstream.length_remaining] at enough
    simp only [streamView, left, List.length_drop]
    omega
  · have stops : s.read n = .error "Exceeded FIFO size" :=
      InputBitstream.read_exceeds wf width (by omega)
    have same : s.read n = .ok (value, s') := run
    rw [stops] at same
    cases same

theorem spends_bool : Spends streamView xReadBool (fun _ taken => taken = 1) :=
  (spends_read (by decide)).bind fun _ _ one => Spends.pure one

theorem spends_code {length : Nat} (positive : 0 < length) (width : length ≤ 32) :
    Spends streamView (xReadCode length) (fun _ taken => taken = length) := by
  intro s value s' wf run
  rw [xReadCode, bind_run (check_run (by omega))] at run
  exact spends_read width s value s' wf run

/-- A value costs at least its code word: the reader takes as many bits behind the
first one as there were zeros before it. -/
theorem spends_uvlc : Spends streamView xReadUvlc (fun value taken => uvlcSize value ≤ taken) := by
  intro s value s' wf run
  rcases zeros_or_first_one s.remaining with ⟨zeros, view⟩ | ⟨zeros, rest, view⟩
  · rw [xReadUvlc_zeros wf view] at run
    cases run
  · by_cases stops : 32 < zeros % 2 ^ 32 ∨ rest.length < zeros % 2 ^ 32
    · rcases xReadUvlc_stops wf view stops with failed | failed <;> rw [failed] at run <;> cases run
    · obtain ⟨uiLength, counted⟩ : ∃ uiLength, zeros % 2 ^ 32 = uiLength := ⟨_, rfl⟩
      have few : uiLength ≤ zeros := by
        rw [← counted]
        exact Nat.mod_le _ _
      obtain ⟨t, ran, wf', left⟩ := xReadUvlc_returns wf view counted (by omega) (by omega)
      rw [ran] at run
      cases run
      refine ⟨wf', zeros + 1 + uiLength, ?_, ?_⟩
      · simp only [streamView, view, left, List.length_append, List.length_replicate,
          List.length_cons, List.length_drop]
        omega
      · have below := ofBits_lt (rest.take uiLength)
        rw [List.length_take_of_le (by omega)] at below
        have reduced := Nat.mod_le (ofBits (rest.take uiLength) + (2 ^ uiLength - 1)) (2 ^ 32)
        have double : 2 ^ (uiLength + 1) = 2 * 2 ^ uiLength := by rw [pow_succ, Nat.mul_comm]
        have size : Nat.log2 ((ofBits (rest.take uiLength) + (2 ^ uiLength - 1)) % 2 ^ 32 + 1) <
            uiLength + 1 := (Nat.log2_lt (by omega)).mpr (by omega)
        unfold uvlcSize
        omega

end Vtm.RoundTrip.BitCount
