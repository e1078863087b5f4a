import Vtm.RoundTrip.BitStream
import Vtm.Decoder.NALread

/-!
# Which NAL units lose their trailing zeros

`read` decides whether to strip `cabac_zero_word`s before it has parsed the
header, from a bit of the first byte. `unescape` is what it should leave of a
unit that is no VCL unit: the bytes without their emulation prevention bytes.
-/

namespace Vtm.RoundTrip.CabacZeroWords

open Vtm.Std Vtm.NALread

/-- The bytes without each three that follows two zeros; `zeroCount` zeros stand
in front. -/
@[grind =] def unescape : Nat → List UInt8 → List UInt8
  | _, [] => []
  | zeroCount, byte :: rest =>
      if 2 ≤ zeroCount ∧ byte = 3 then unescape 0 rest
      else byte :: unescape (if byte = 0 then zeroCount + 1 else 0) rest

/-- One round of the loop: a plain byte. -/
theorem convertLoop_plain_of_ok {byte : UInt8} {rest : List UInt8} {pos : Nat}
    {st st' : ConvertState} (plain : ¬ (st.zeroCount = 2 ∧ byte = 3))
    (run : convertLoop (byte :: rest) pos st = .ok st') :
    ¬ (st.zeroCount ≥ 2 ∧ byte < 3) ∧
      convertLoop rest (pos + 1)
        ⟨st.written ++ [byte], st.locations, if byte = 0 then st.zeroCount + 1 else 0⟩ = .ok st' := by
  rw [convertLoop] at run
  obtain ⟨passes, run⟩ := CHECK_bind_eq_ok_iff.mp run
  rw [if_neg plain] at run
  exact ⟨passes, run⟩

/-- The loop writes the unescaped bytes. -/
theorem convertLoop_written (buf : List UInt8) (pos : Nat) (st st' : ConvertState)
    (few : st.zeroCount ≤ 2) (run : convertLoop buf pos st = .ok st') :
    st'.written = st.written ++ unescape st.zeroCount buf := by
  -- an escape takes two bytes in one round, so the induction is on the length
  induction size : buf.length using Nat.strong_induction_on generalizing buf pos st with
  | _ size ih =>
      match buf with
      | [] =>
          cases run
          simp [unescape]
      | byte :: rest =>
          by_cases escape : st.zeroCount = 2 ∧ byte = 3
          · rw [convertLoop] at run
            obtain ⟨_, run⟩ := CHECK_bind_eq_ok_iff.mp run
            rw [if_pos escape] at run
            rw [unescape, if_pos ⟨escape.1.ge, escape.2⟩]
            match rest with
            | [] =>
                cases run
                simp [unescape]
            | next :: rest =>
                obtain ⟨_, run⟩ := CHECK_bind_eq_ok_iff.mp run
                have tail := ih rest.length (by simp at size; omega) rest _ _
                  (by dsimp only; split <;> omega) run rfl
                have kept : ¬ (2 ≤ 0 ∧ next = 3) := by simp
                rw [tail, unescape, if_neg kept, List.append_assoc]
                simp
          · obtain ⟨passes, run⟩ := convertLoop_plain_of_ok escape run
            have bound : (if byte = 0 then st.zeroCount + 1 else 0) ≤ 2 := by
              split
              · next zero =>
                  have small : byte < 3 := by rw [zero]; decide
                  by_contra large
                  exact passes ⟨by omega, small⟩
              · omega
            have tail := ih rest.length (by simp at size; omega) rest _ _ bound run rfl
            have kept : ¬ (2 ≤ st.zeroCount ∧ byte = 3) := fun ⟨two, three⟩ =>
              escape ⟨by omega, three⟩
            rw [tail, unescape, if_neg kept, List.append_assoc]
            rfl

/-- What conversion leaves: the unescaped bytes, stripped when asked for. -/
theorem convertPayloadToRBSP_written {nalUnitBuf rbsp : List UInt8} {isVclNalUnit : Bool}
    {locations : List Nat}
    (run : convertPayloadToRBSP nalUnitBuf isVclNalUnit = .ok (rbsp, locations)) :
    rbsp = if isVclNalUnit then (unescape 0 nalUnitBuf).rdropWhile (· = 0)
      else unescape 0 nalUnitBuf := by
  unfold convertPayloadToRBSP at run
  obtain ⟨st, loop, run⟩ := bind_eq_ok_iff.mp run
  obtain ⟨_, run⟩ := CHECK_bind_eq_ok_iff.mp run
  have written : st.written = unescape 0 nalUnitBuf :=
    convertLoop_written nalUnitBuf 0 _ st (Nat.zero_le _) loop
  cases isVclNalUnit with
  | false =>
      cases run
      exact written
  | true =>
      obtain ⟨stripped, step, run⟩ := bind_eq_ok_iff.mp run
      cases run
      obtain ⟨_, returned⟩ := CHECK_bind_eq_ok_iff.mp step
      cases returned
      rw [written, if_pos rfl]

/-! ## The header behind the conversion -/

theorem fifo_of_read {s s' : InputBitstream} {n value : Nat} (run : s.read n = .ok (value, s')) :
    s'.fifo = s.fifo := by
  unfold InputBitstream.read at run
  obtain ⟨_, run⟩ := CHECK_bind_eq_ok_iff.mp run
  dsimp only at run
  split at run
  · cases run
    rfl
  · obtain ⟨_, run⟩ := CHECK_bind_eq_ok_iff.mp run
    cases run
    rfl

/-- A header that is accepted has two bytes; its type is in the second. -/
theorem readNalUnitHeader_type {input output : InputNALUnit}
    (fresh : input.bitstream = input.bitstream.resetToStart)
    (run : readNalUnitHeader input = .ok output) :
    output.bitstream.fifo = input.bitstream.fifo ∧
      ∃ first second rest, input.bitstream.fifo = first :: second :: rest ∧
        output.nalUnitType = NalUnitType.ofCode (second.toNat / 8) := by
  unfold readNalUnitHeader at run
  obtain ⟨⟨v₁, s₁⟩, read₁, run⟩ := bind_eq_ok_iff.mp run
  obtain ⟨⟨v₂, s₂⟩, read₂, run⟩ := bind_eq_ok_iff.mp run
  obtain ⟨⟨v₃, s₃⟩, read₃, run⟩ := bind_eq_ok_iff.mp run
  obtain ⟨_, run⟩ := CHECK_bind_eq_ok_iff.mp run
  obtain ⟨⟨v₄, s₄⟩, read₄, run⟩ := bind_eq_ok_iff.mp run
  obtain ⟨⟨v₅, s₅⟩, read₅, run⟩ := bind_eq_ok_iff.mp run
  have wf : input.bitstream.WellFormed := by
    rw [fresh]
    exact .resetToStart _
  obtain ⟨wf₁, left₁⟩ := BitStream.read_moves wf read₁
  obtain ⟨wf₂, left₂⟩ := BitStream.read_moves wf₁ read₂
  obtain ⟨wf₃, left₃⟩ := BitStream.read_moves wf₂ read₃
  obtain ⟨wf₄, left₄⟩ := BitStream.read_moves wf₃ read₄
  obtain ⟨values₄, _, _⟩ := BitStream.read_iff_enough wf₃ (by decide : 5 ≤ 32)
  obtain ⟨_, _, enough₅⟩ := BitStream.read_iff_enough wf₄ (by decide : 3 ≤ 32)
  have enough := enough₅.mp ⟨v₅, s₅, read₅⟩
  have bits : input.bitstream.remaining = bytesToBits input.bitstream.fifo := by
    rw [fresh]
    exact InputBitstream.remaining_resetToStart _
  have left₃' : s₃.remaining = (bytesToBits input.bitstream.fifo).drop 8 := by
    rw [left₃, left₂, left₁, List.drop_drop, List.drop_drop, bits]
  have typeBits : v₄ = ofBits (((bytesToBits input.bitstream.fifo).drop 8).take 5) := by
    rw [← left₃']
    exact (values₄ v₄ s₄ read₄).1
  have size : 16 ≤ 8 * input.bitstream.fifo.length := by
    rw [← InputBitstream.length_remaining, left₄, left₃', List.length_drop, List.length_drop,
      length_bytesToBits] at enough
    omega
  have bytes : s₅.fifo = input.bitstream.fifo := by
    rw [fifo_of_read read₅, fifo_of_read read₄, fifo_of_read read₃, fifo_of_read read₂,
      fifo_of_read read₁]
  have returned : output.bitstream = s₅ ∧ output.nalUnitType = NalUnitType.ofCode v₄ := by
    dsimp only at run
    split at run
    · split at run
      · obtain ⟨_, run⟩ := CHECK_bind_eq_ok_iff.mp run
        cases run
        exact ⟨rfl, rfl⟩
      · cases run
        exact ⟨rfl, rfl⟩
    · cases run
      exact ⟨rfl, rfl⟩
  refine ⟨by rw [returned.1, bytes], ?_⟩
  match shape : input.bitstream.fifo, size with
  | first :: second :: rest, _ =>
      refine ⟨first, second, rest, rfl, ?_⟩
      have top : toBits 8 second.toNat = toBits 5 (second.toNat / 8) ++ toBits 3 second.toNat :=
        toBits_add 5 3 second.toNat
      have byte := UInt8.toNat_lt second
      rw [returned.2, typeBits, shape, bytesToBits_cons, bytesToBits_cons, top,
        List.drop_left' (length_toBits 8 _), List.append_assoc,
        List.take_left' (length_toBits 5 _), ofBits_toBits_of_lt (by omega)]

/-! ## Stripping and the type -/

/-- Unless the type of the output is a VCL type, the reader only removed the emulation
prevention bytes of the input. -/
def KeepsPayload (vcl : NalUnitType → Bool) (input output : InputNALUnit) : Prop :=
  vcl output.nalUnitType = false → output.bitstream.fifo = unescape 0 input.bitstream.fifo

/-- The units that lose payload although their type is no VCL type: bit 6 of the
first byte, `nuh_reserved_zero_bit`, is clear and the payload ends in a zero byte. -/
def LosesPayload (vcl : NalUnitType → Bool) (nalUnitBuf : List UInt8) : Prop :=
  vcl (NalUnitType.ofCode ((nalUnitBuf.getD 1 0).toNat / 8)) = false ∧
    nalUnitBuf.headD 0 &&& 64 = 0 ∧ (unescape 0 nalUnitBuf).getLast? = some 0

/-- The first two bytes are never emulation prevention bytes. -/
theorem unescape_two (first second : UInt8) (rest : List UInt8) :
    ∃ tail, unescape 0 (first :: second :: rest) = first :: second :: tail := by
  have kept₁ : ¬ (2 ≤ 0 ∧ first = 3) := by simp
  have kept₂ : ¬ (2 ≤ (if first = 0 then 0 + 1 else 0) ∧ second = 3) := by
    rintro ⟨two, _⟩
    split at two <;> omega
  rw [unescape, if_neg kept₁, unescape, if_neg kept₂]
  exact ⟨_, rfl⟩

/-- Stripping changes nothing exactly when the last byte is not zero. -/
theorem rdropWhile_zero_eq_self_iff (bytes : List UInt8) :
    bytes.rdropWhile (· = 0) = bytes ↔ bytes.getLast? ≠ some 0 := by
  rw [List.rdropWhile_eq_self_iff]
  rcases List.eq_nil_or_concat bytes with rfl | ⟨front, last, rfl⟩
  · simp
  · simp

/-- What `read` leaves in the FIFO of a unit it accepts, and where the type it
parses stood. -/
theorem read_spec {input output : InputNALUnit} (accepted : NALread.read input = .ok output) :
    output.bitstream.fifo =
        (if input.bitstream.fifo.headD 0 &&& 64 = 0 then
          (unescape 0 input.bitstream.fifo).rdropWhile (· = 0)
        else unescape 0 input.bitstream.fifo) ∧
      output.nalUnitType = NalUnitType.ofCode ((input.bitstream.fifo.getD 1 0).toNat / 8) := by
  unfold NALread.read at accepted
  obtain ⟨_, accepted⟩ := CHECK_bind_eq_ok_iff.mp accepted
  obtain ⟨⟨rbsp, locations⟩, converted, accepted⟩ := bind_eq_ok_iff.mp accepted
  have content := convertPayloadToRBSP_written converted
  obtain ⟨fifo, first, second, rest, shape, type⟩ := readNalUnitHeader_type rfl accepted
  have stored : output.bitstream.fifo = rbsp := fifo
  have header : rbsp = first :: second :: rest := shape
  simp only [beq_iff_eq] at content
  refine ⟨by rw [stored, content], ?_⟩
  have front : rbsp <+: unescape 0 input.bitstream.fifo := by
    rw [content]
    split
    · exact List.rdropWhile_prefix _ _
    · exact List.prefix_rfl
  rw [header] at front
  match buffer : input.bitstream.fifo with
  | [] =>
      rw [buffer] at front
      simp [unescape] at front
  | [single] =>
      rw [buffer] at front
      simp [unescape] at front
  | one :: two :: others =>
      obtain ⟨tail, kept⟩ := unescape_two one two others
      rw [buffer, kept] at front
      obtain ⟨_, same⟩ := front
      simp only [List.cons_append, List.cons.injEq] at same
      obtain ⟨_, rfl, _⟩ := same
      exact type

/-- The bit that decides about the stripping is not part of the type: a unit whose
type is no VCL type keeps its payload unless that bit is clear and the payload
ends in a zero byte. This holds for every way to tell VCL types from others. -/
theorem payload_kept_iff (input output : InputNALUnit) (accepted : NALread.read input = .ok output) :
    output.nalUnitType = NalUnitType.ofCode ((input.bitstream.fifo.getD 1 0).toNat / 8) ∧
      ∀ vcl : NalUnitType → Bool,
        KeepsPayload vcl input output ↔ ¬ LosesPayload vcl input.bitstream.fifo := by
  obtain ⟨content, type⟩ := read_spec accepted
  refine ⟨type, fun vcl => ?_⟩
  unfold KeepsPayload LosesPayload
  rw [← type, content]
  by_cases clear : input.bitstream.fifo.headD 0 &&& 64 = 0
  · rw [if_pos clear, rdropWhile_zero_eq_self_iff]
    constructor
    · rintro keeps ⟨other, _, zero⟩
      exact keeps other zero
    · intro regular other zero
      exact regular ⟨other, clear, zero⟩
  · rw [if_neg clear]
    constructor
    · rintro _ ⟨_, set, _⟩
      exact clear set
    · intro _ _
      rfl

/-- The VCL types by their place in the table, as `DecApp` tells them apart. -/
def isVclType (t : NalUnitType) : Bool :=
  t.code ≤ NalUnitType.reservedIrapVcl12.code

/-- A unit of an unspecified type that ends in two zero bytes, as it is sent. -/
def trailingZeros : InputNALUnit :=
  ⟨⟨.invalid, 0, 0, 0, 0⟩, InputBitstream.ofFifo [0x00, 0xe1, 0x80, 0x00, 0x00, 0x03]⟩

/-- The same unit as it is read. -/
def trailingZerosRead : InputNALUnit :=
  ⟨⟨.unspecified28, 0, 0, 0, 0⟩, ⟨[0x00, 0xe1, 0x80], [5], 2, 0, 0xe1, 16⟩⟩

theorem payload_kept_iff_sample :
    NALread.read trailingZeros = .ok trailingZerosRead ∧
      (KeepsPayload isVclType trailingZeros trailingZerosRead ↔
        ¬ LosesPayload isVclType trailingZeros.bitstream.fifo) :=
  ⟨by decide, (payload_kept_iff trailingZeros trailingZerosRead (by decide)).2 isVclType⟩

/-- The unit is no VCL unit and loses its two trailing zero bytes. -/
theorem payload_lost :
    NALread.read trailingZeros = .ok trailingZerosRead ∧
      isVclType trailingZerosRead.nalUnitType = false ∧
      trailingZerosRead.bitstream.fifo = [0x00, 0xe1, 0x80] ∧
      unescape 0 trailingZeros.bitstream.fifo = [0x00, 0xe1, 0x80, 0x00, 0x00] := by
  refine ⟨by decide, by decide, rfl, by decide⟩

end Vtm.RoundTrip.CabacZeroWords
