import Vtm.Cabac.Exact
import Vtm.Encoder.BinEncoder

/-!
# The encoding engine refines the exact coder

`Represents` says how the registers, the buffered bytes and the written bits stand for
the exact lower bound. `shift_repr` covers the arithmetic of every operation and
`flush_spec` the byte output with its carries; the operations combine the two.
-/

namespace Vtm.Cabac

open Vtm.Std

section

variable {ι : Type}

/-- The bytes waiting behind the written ones: the buffered byte and the counted
`0xff` bytes. -/
@[grind =] def pendingBits (e : BinEncoder ι) : List Bool :=
  if e.numBufferedBytes = 0 then []
  else toBits 8 e.bufferedByte ++ List.replicate (8 * (e.numBufferedBytes - 1)) true

/-- All bits that have left the register. -/
@[grind =] def emittedBits (e : BinEncoder ι) : List Bool := e.bitstream.bits ++ pendingBits e

/-- The engine's state stands for an exact interval. -/
structure Represents (e : BinEncoder ι) (i : Interval) : Prop where
  wf : e.bitstream.WellFormed
  aligned : e.bitstream.numHeldBits = 0
  range : e.range = i.range
  bitsLow : 4 ≤ e.bitsLeft
  bitsHigh : e.bitsLeft ≤ 23
  /-- A lead byte is at most `0x10f`. -/
  bound : 16 * (e.low + e.range) ≤ 17 * 2 ^ (32 - e.bitsLeft)
  /-- A buffered byte can take a carry. -/
  buffered : e.numBufferedBytes ≠ 0 → e.bufferedByte ≤ 0xfe
  /-- Nothing has been emitted before the first byte is buffered, and the first
  lead byte is neither `0xff` nor a carry. -/
  first : e.numBufferedBytes = 0 →
    e.bitstream.bits = [] ∧ e.low + e.range ≤ 510 * 2 ^ (23 - e.bitsLeft)
  value : i.low = ofBits (emittedBits e) * 2 ^ (32 - e.bitsLeft) + e.low
  shifts : i.shifts + e.bitsLeft = (emittedBits e).length + 23

/-- The registers never come near their width. -/
theorem Represents.low_lt {e : BinEncoder ι} {i : Interval} (repr : Represents e i) :
    e.low + e.range < 2 ^ 29 := by
  have bound := repr.bound
  have power : 2 ^ (32 - e.bitsLeft) ≤ 2 ^ 28 :=
    Nat.pow_le_pow_right (by decide) (by have := repr.bitsLow; omega)
  omega

/-- The registers after an operation that doubles `count` times, adds `offset` and
sets a new range. -/
def shifted (e : BinEncoder ι) (count offset range : Nat) : BinEncoder ι :=
  { e with low := e.low * 2 ^ count + offset, range, bitsLeft := e.bitsLeft - count }

/-- Every operation moves the registers in step with the exact interval. -/
theorem shift_repr {e : BinEncoder ι} {i : Interval} (repr : Represents e i) (settled : 12 ≤ e.bitsLeft)
    {count offset range : Nat} (few : count ≤ 8) (fits : offset + range ≤ i.range * 2 ^ count) :
    Represents (shifted e count offset range) (i.advance count offset range) := by
  have bitsHigh := repr.bitsHigh
  have width : 32 - (e.bitsLeft - count) = (32 - e.bitsLeft) + count := by omega
  have firstWidth : 23 - (e.bitsLeft - count) = (23 - e.bitsLeft) + count := by omega
  rw [← repr.range] at fits
  have scaled : e.low * 2 ^ count + offset + range ≤ (e.low + e.range) * 2 ^ count := by
    rw [Nat.add_mul]
    omega
  refine
    { wf := repr.wf, aligned := repr.aligned, range := rfl, bitsLow := ?_, bitsHigh := ?_,
      bound := ?_, buffered := repr.buffered, first := ?_, value := ?_, shifts := ?_ }
  · show 4 ≤ e.bitsLeft - count
    omega
  · show e.bitsLeft - count ≤ 23
    omega
  · show 16 * (e.low * 2 ^ count + offset + range) ≤ 17 * 2 ^ (32 - (e.bitsLeft - count))
    rw [width, pow_add]
    calc 16 * (e.low * 2 ^ count + offset + range)
        ≤ 16 * ((e.low + e.range) * 2 ^ count) := Nat.mul_le_mul_left _ scaled
      _ = 16 * (e.low + e.range) * 2 ^ count := by ring
      _ ≤ 17 * 2 ^ (32 - e.bitsLeft) * 2 ^ count := Nat.mul_le_mul_right _ repr.bound
      _ = 17 * (2 ^ (32 - e.bitsLeft) * 2 ^ count) := by ring
  · intro none
    obtain ⟨empty, low⟩ := repr.first none
    refine ⟨empty, ?_⟩
    show e.low * 2 ^ count + offset + range ≤ 510 * 2 ^ (23 - (e.bitsLeft - count))
    rw [firstWidth, pow_add]
    calc e.low * 2 ^ count + offset + range ≤ (e.low + e.range) * 2 ^ count := scaled
      _ ≤ 510 * 2 ^ (23 - e.bitsLeft) * 2 ^ count := Nat.mul_le_mul_right _ low
      _ = 510 * (2 ^ (23 - e.bitsLeft) * 2 ^ count) := by ring
  · show i.low * 2 ^ count + offset = ofBits (emittedBits e) * 2 ^ (32 - (e.bitsLeft - count)) +
      (e.low * 2 ^ count + offset)
    rw [width, pow_add, repr.value]
    ring
  · show i.shifts + count + (e.bitsLeft - count) = (emittedBits e).length + 23
    have shifts := repr.shifts
    omega

/-! ## Byte output -/

theorem ofBits_replicate_true (count : Nat) : ofBits (List.replicate count true) + 1 = 2 ^ count := by
  induction count with
  | zero => rfl
  | succ count ih =>
      rw [List.replicate_succ, ofBits_cons, List.length_replicate, pow_succ]
      simp only [Bool.toNat_true]
      omega

/-- Writing one byte `count` times, for the two bytes whose bits are all equal. -/
theorem writeRepeated_spec {byte : Nat} {bit : Bool} (fits : byte < 256)
    (uniform : toBits 8 byte = List.replicate 8 bit) (count : Nat) {s : OutputBitstream}
    (wf : s.WellFormed) :
    ∃ s', BinEncoder.writeRepeated byte count s = .ok s' ∧ s'.WellFormed ∧
      s'.bits = s.bits ++ List.replicate (8 * count) bit := by
  induction count generalizing s with
  | zero => exact ⟨s, rfl, wf, by simp⟩
  | succ count ih =>
      obtain ⟨s₁, run₁, wf₁, bits₁⟩ := OutputBitstream.write_spec wf byte 8 (by decide) fits
      obtain ⟨s₂, run₂, wf₂, bits₂⟩ := ih wf₁
      refine ⟨s₂, ?_, wf₂, ?_⟩
      · rw [BinEncoder.writeRepeated, run₁]
        exact run₂
      · have split : 8 * (count + 1) = 8 + 8 * count := by omega
        rw [bits₂, bits₁, uniform, List.append_assoc, split, List.replicate_add]

/-- Whole bytes keep the stream aligned. -/
theorem aligned_of_bits {s s' : OutputBitstream} (wf : s'.WellFormed)
    (aligned : s.numHeldBits = 0) {count : Nat}
    (length : s'.bits.length = s.bits.length + 8 * count) : s'.numHeldBits = 0 := by
  have heldLt := wf.heldLt
  rw [OutputBitstream.length_bits, OutputBitstream.length_bits,
    OutputBitstream.writtenBits, OutputBitstream.writtenBits] at length
  omega

/-- Emitting the buffered byte and the counted bytes, with or without a carry. -/
theorem emit_spec {s : OutputBitstream} (wf : s.WellFormed) (aligned : s.numHeldBits = 0)
    {bufferedByte carry : Nat} (count : Nat) (canCarry : bufferedByte ≤ 0xfe)
    (atMostOne : carry ≤ 1) :
    ∃ s₁ s₂, s.write (bufferedByte + carry) 8 = .ok s₁ ∧
      BinEncoder.writeRepeated ((0xff + carry) &&& 0xff) count s₁ = .ok s₂ ∧ s₂.WellFormed ∧
      s₂.numHeldBits = 0 ∧ s₂.bits.length = s.bits.length + 8 * (count + 1) ∧
      ofBits s₂.bits =
        ofBits (s.bits ++ (toBits 8 bufferedByte ++ List.replicate (8 * count) true)) + carry := by
  obtain ⟨s₁, run₁, wf₁, bits₁⟩ :=
    OutputBitstream.write_spec wf (bufferedByte + carry) 8 (by decide) (by omega)
  obtain ⟨bit, uniform, fill⟩ : ∃ bit, toBits 8 ((0xff + carry) &&& 0xff) = List.replicate 8 bit ∧
      ofBits (List.replicate (8 * count) bit) + carry * 2 ^ (8 * count) =
        ofBits (List.replicate (8 * count) true) + carry := by
    obtain rfl | rfl : carry = 0 ∨ carry = 1 := by omega
    · exact ⟨true, by decide, by simp⟩
    · refine ⟨false, by decide, ?_⟩
      rw [ofBits_replicate_true, ofBits_replicate_false]
      simp
  have byteLt : (0xff + carry) &&& 0xff < 256 := by
    obtain rfl | rfl : carry = 0 ∨ carry = 1 := by omega
    · decide
    · decide
  obtain ⟨s₂, run₂, wf₂, bits₂⟩ := writeRepeated_spec byteLt uniform count wf₁
  have length : s₂.bits.length = s.bits.length + 8 * (count + 1) := by
    rw [bits₂, bits₁]
    simp only [List.length_append, length_toBits, List.length_replicate]
    omega
  refine ⟨s₁, s₂, run₁, run₂, wf₂, aligned_of_bits wf₂ aligned length, length, ?_⟩
  rw [bits₂, bits₁, List.append_assoc]
  simp only [ofBits_append, List.length_append, length_toBits, List.length_replicate]
  rw [ofBits_toBits_of_lt (show bufferedByte + carry < 2 ^ 8 by omega),
    ofBits_toBits_of_lt (show bufferedByte < 2 ^ 8 by omega)]
  have rearranged : (bufferedByte + carry) * 2 ^ (8 * count) +
      ofBits (List.replicate (8 * count) bit) =
      bufferedByte * 2 ^ (8 * count) + ofBits (List.replicate (8 * count) true) + carry := by
    rw [Nat.add_mul]
    omega
  rw [rearranged]
  omega

theorem mask_low {low width : Nat} (bits : width ≤ 32) :
    low &&& (0xffffffff >>> (32 - width)) = low % 2 ^ width := by
  have mask : 0xffffffff >>> (32 - width) = 2 ^ width - 1 := by
    have full : (0xffffffff : Nat) = 2 ^ 32 - 1 := by decide
    have split : 2 ^ 32 = 2 ^ width * 2 ^ (32 - width) := by
      rw [← pow_add, Nat.add_sub_cancel' bits]
    have positive : 0 < 2 ^ (32 - width) := Nat.two_pow_pos _
    have some : 0 < 2 ^ width := Nat.two_pow_pos _
    rw [full, Nat.shiftRight_eq_div_pow, split]
    apply Nat.div_eq_of_lt_le
    · rw [Nat.sub_mul]
      omega
    · rw [Nat.sub_add_cancel some]
      have product : 0 < 2 ^ width * 2 ^ (32 - width) := Nat.mul_pos some positive
      omega
  rw [mask, Nat.and_two_pow_sub_one_eq_mod]

/-- `writeOut` moves the lead byte out of the register. -/
theorem writeOut_spec {e : BinEncoder ι} {i : Interval} (repr : Represents e i)
    (ready : Exact.Ready i) (full : e.bitsLeft < 12) :
    ∃ e', e.writeOut = .ok e' ∧ Represents e' i ∧ e'.bitsLeft = e.bitsLeft + 8 ∧
      e'.ctx = e.ctx := by
  obtain ⟨rangeLow, rangeHigh⟩ := ready
  have bitsLow := repr.bitsLow
  have rangeEq := repr.range
  obtain ⟨k, kDef⟩ : ∃ k, k = 24 - e.bitsLeft := ⟨_, rfl⟩
  have width : 32 - e.bitsLeft = k + 8 := by omega
  have newWidth : 32 - (e.bitsLeft + 8) = k := by omega
  have maskWidth : e.bitsLeft + 8 = 32 - k := by omega
  have wide : 2 ^ 13 ≤ 2 ^ k := Nat.pow_le_pow_right (by decide) (by omega)
  have bound := repr.bound
  have value := repr.value
  have shifts := repr.shifts
  rw [width, pow_add] at bound value
  obtain ⟨lead, leadDef⟩ : ∃ lead, lead = e.low >>> k := ⟨_, rfl⟩
  obtain ⟨low', lowDef⟩ : ∃ low', low' = e.low % 2 ^ k := ⟨_, rfl⟩
  have lowEq : e.low = lead * 2 ^ k + low' := by
    rw [leadDef, lowDef, Nat.shiftRight_eq_div_pow, Nat.mul_comm]
    exact (Nat.div_add_mod _ _).symm
  have lowLt : low' < 2 ^ k := by
    rw [lowDef]
    exact Nat.mod_lt _ (Nat.two_pow_pos _)
  have leadLe : lead ≤ 0x10f := by
    by_contra large
    have scaled : 0x110 * 2 ^ k ≤ lead * 2 ^ k := Nat.mul_le_mul_right _ (by omega)
    omega
  have masked : e.low &&& (0xffffffff >>> (e.bitsLeft + 8)) = low' := by
    rw [maskWidth, mask_low (by omega), lowDef]
  have newBound : 16 * (low' + e.range) ≤ 17 * 2 ^ k := by omega
  have firstLead : e.numBufferedBytes = 0 → e.bitstream.bits = [] ∧ lead ≤ 0xfe := by
    intro none
    obtain ⟨empty, low⟩ := repr.first none
    refine ⟨empty, ?_⟩
    have half : 2 ^ k = 2 ^ (23 - e.bitsLeft) * 2 := by
      rw [← pow_succ]
      congr 1
      omega
    by_contra large
    have scaled : 0xff * 2 ^ k ≤ lead * 2 ^ k := Nat.mul_le_mul_right _ (by omega)
    omega
  -- the emitted bits grow by the lead byte, possibly with a carry into what was pending
  have extend : ∀ (e' : BinEncoder ι), e'.bitstream.WellFormed → e'.bitstream.numHeldBits = 0 →
      e'.range = e.range → e'.bitsLeft = e.bitsLeft + 8 → e'.low = low' →
      e'.numBufferedBytes ≠ 0 → e'.bufferedByte ≤ 0xfe →
      (emittedBits e').length = (emittedBits e).length + 8 →
      ofBits (emittedBits e') = ofBits (emittedBits e) * 2 ^ 8 + lead → Represents e' i := by
    intro e' wf aligned range bitsLeft low some canCarry length bits
    refine
      { wf := wf, aligned := aligned, range := range.trans rangeEq, bitsLow := by omega,
        bitsHigh := by omega, bound := ?_, buffered := fun _ => canCarry,
        first := fun none => absurd none some, value := ?_, shifts := ?_ }
    · rw [low, range, bitsLeft, newWidth]
      exact newBound
    · rw [value, bits, bitsLeft, newWidth, low, lowEq]
      ring
    · rw [bitsLeft, length]
      omega
  unfold BinEncoder.writeOut
  simp only [← kDef, ← leadDef, masked]
  by_cases outstanding : lead = 0xff
  · rw [if_pos outstanding]
    have some : e.numBufferedBytes ≠ 0 := by
      intro none
      have small := (firstLead none).2
      omega
    refine ⟨_, rfl, extend _ repr.wf repr.aligned rfl rfl rfl (Nat.succ_ne_zero _)
      (repr.buffered some) ?_ ?_, rfl, rfl⟩
    · simp only [emittedBits, pendingBits, if_neg some, Nat.add_one_ne_zero, if_false,
        List.length_append, length_toBits, List.length_replicate]
      omega
    · have longer : emittedBits
          { e with
            bitsLeft := e.bitsLeft + 8
            low := low'
            numBufferedBytes := e.numBufferedBytes + 1 } =
          emittedBits e ++ List.replicate 8 true := by
        have split : 8 * (e.numBufferedBytes + 1 - 1) = 8 * (e.numBufferedBytes - 1) + 8 := by omega
        simp only [emittedBits, pendingBits, if_neg some, Nat.add_one_ne_zero, if_false, split,
          List.replicate_add, List.append_assoc]
      rw [longer, ofBits_append, outstanding]
      rfl
  · rw [if_neg outstanding]
    by_cases some : e.numBufferedBytes > 0
    · rw [if_pos some]
      have nonzero : e.numBufferedBytes ≠ 0 := by omega
      have carryLe : lead >>> 8 ≤ 1 := by
        rw [Nat.shiftRight_eq_div_pow]
        omega
      obtain ⟨s₁, s₂, run₁, run₂, wf₂, aligned₂, length₂, value₂⟩ := emit_spec repr.wf repr.aligned
        (e.numBufferedBytes - 1) (repr.buffered nonzero) carryLe
      have keptByte : lead &&& 0xff = lead % 2 ^ 8 := Nat.and_two_pow_sub_one_eq_mod lead 8
      refine ⟨{ e with
        bitsLeft := e.bitsLeft + 8
        low := low'
        bufferedByte := lead &&& 0xff
        bitstream := s₂
        numBufferedBytes := 1 }, ?_, ?_, rfl, rfl⟩
      · simp only [run₁, run₂, bind, Except.bind, pure, Except.pure]
      · have before : emittedBits e = e.bitstream.bits ++ (toBits 8 e.bufferedByte ++
            List.replicate (8 * (e.numBufferedBytes - 1)) true) := by
          simp only [emittedBits, pendingBits, if_neg nonzero]
        refine extend _ wf₂ aligned₂ rfl rfl rfl (Nat.succ_ne_zero _) ?_ ?_ ?_
        · show lead &&& 0xff ≤ 0xfe
          rw [keptByte]
          omega
        · rw [before]
          simp only [emittedBits, pendingBits, Nat.succ_ne_zero, if_false, List.length_append,
            length_toBits, List.length_replicate, length₂]
          omega
        · have after : emittedBits { e with
              bitsLeft := e.bitsLeft + 8
              low := low'
              bufferedByte := lead &&& 0xff
              bitstream := s₂
              numBufferedBytes := 1 } = s₂.bits ++ toBits 8 (lead &&& 0xff) := by
            simp [emittedBits, pendingBits]
          rw [after, ofBits_append, length_toBits, keptByte, toBits_mod, ofBits_toBits, value₂,
            ← before, Nat.shiftRight_eq_div_pow]
          omega
    · rw [if_neg some]
      have none : e.numBufferedBytes = 0 := by omega
      obtain ⟨empty, small⟩ := firstLead none
      refine ⟨_, rfl, extend _ repr.wf repr.aligned rfl rfl rfl (Nat.succ_ne_zero _) small ?_ ?_,
        rfl, rfl⟩
      · simp [emittedBits, pendingBits, none, empty]
      · simp only [emittedBits, pendingBits, none, empty, if_true, Nat.succ_ne_zero, if_false,
          Nat.sub_self, Nat.mul_zero, List.replicate_zero, List.append_nil, List.nil_append]
        rw [ofBits_toBits_of_lt (show lead < 2 ^ 8 by omega)]
        simp

/-- After the conditional output there is room for the next operation. -/
theorem flush_spec {e : BinEncoder ι} {i : Interval} (repr : Represents e i)
    (ready : Exact.Ready i) :
    ∃ e', e.flush = .ok e' ∧ Represents e' i ∧ 12 ≤ e'.bitsLeft ∧ e'.ctx = e.ctx := by
  unfold BinEncoder.flush
  by_cases full : e.bitsLeft < 12
  · rw [if_pos full]
    obtain ⟨e', run, repr', bitsLeft, ctx⟩ := writeOut_spec repr ready full
    have bitsLow := repr.bitsLow
    exact ⟨e', run, repr', by omega, ctx⟩
  · rw [if_neg full]
    exact ⟨e, rfl, repr, by omega, rfl⟩

/-! ## Operations -/

/-- The engine stands for an exact coder between operations. -/
structure Refines (e : BinEncoder ι) (c : Exact ι) : Prop where
  repr : Represents e c.interval
  settled : 12 ≤ e.bitsLeft
  ready : Exact.Ready c.interval
  ctx : e.ctx = c.ctx

/-- An operation that changes the registers as `shifted` does and then flushes. -/
theorem flush_shifted {e : BinEncoder ι} {i : Interval} (repr : Represents e i)
    (settled : 12 ≤ e.bitsLeft) {count offset range : Nat} (few : count ≤ 8)
    (fits : offset + range ≤ i.range * 2 ^ count)
    (ready : Exact.Ready (i.advance count offset range)) :
    ∃ e', (shifted e count offset range).flush = .ok e' ∧
      Represents e' (i.advance count offset range) ∧ 12 ≤ e'.bitsLeft ∧ e'.ctx = e.ctx :=
  flush_spec (shift_repr repr settled few fits) ready

/-- A group of up to eight bypass bins in the registers. -/
theorem bypassGroup_fits (i : Interval) {bins numBins : Nat} (fits : bins < 2 ^ numBins) :
    i.range * bins + i.range ≤ i.range * 2 ^ numBins := by
  calc i.range * bins + i.range = i.range * (bins + 1) := by ring
    _ ≤ i.range * 2 ^ numBins := Nat.mul_le_mul_left _ fits

theorem bypassGroup_eq (i : Interval) {bins numBins : Nat} (fits : bins < 2 ^ numBins) :
    Exact.bypassBins i (toBits numBins bins) = i.advance numBins (i.range * bins) i.range := by
  rw [Exact.bypassBins_eq, length_toBits, ofBits_toBits_of_lt fits]

/-- The register arithmetic of a bypass group does not wrap. -/
theorem bypassGroup_low {e : BinEncoder ι} {i : Interval} (repr : Represents e i)
    (settled : 12 ≤ e.bitsLeft) (bins numBins : Nat) (few : numBins ≤ 8)
    (fits : bins < 2 ^ numBins) :
    ((e.low <<< numBins) % 2 ^ 32 + e.range * bins) % 2 ^ 32 =
      e.low * 2 ^ numBins + e.range * bins := by
  have below := (shift_repr repr settled few (bypassGroup_fits i fits)).low_lt
  simp only [shifted, ← repr.range] at below
  rw [Nat.shiftLeft_eq, Nat.mod_eq_of_lt (show e.low * 2 ^ numBins < 2 ^ 32 by omega),
    Nat.mod_eq_of_lt (by omega)]

/-- A bypass group, once its registers are written as `shifted`. -/
theorem flush_bypassGroup {e : BinEncoder ι} {i : Interval} (repr : Represents e i)
    (settled : 12 ≤ e.bitsLeft) (ready : Exact.Ready i) (bins numBins : Nat) (few : numBins ≤ 8)
    (fits : bins < 2 ^ numBins) :
    ∃ e', (shifted e numBins (e.range * bins) e.range).flush = .ok e' ∧
      Represents e' (Exact.bypassBins i (toBits numBins bins)) ∧ 12 ≤ e'.bitsLeft ∧
      e'.ctx = e.ctx := by
  rw [bypassGroup_eq i fits, repr.range]
  exact flush_shifted repr settled few (bypassGroup_fits i fits) ready

theorem encodeBinEP_spec {e : BinEncoder ι} {i : Interval} (repr : Represents e i)
    (settled : 12 ≤ e.bitsLeft) (ready : Exact.Ready i) (bin : Bool) :
    ∃ e', e.encodeBinEP bin = .ok e' ∧ Represents e' (Exact.bypass i bin) ∧ 12 ≤ e'.bitsLeft ∧
      e'.ctx = e.ctx := by
  have single : Exact.bypass i bin = Exact.bypassBins i (toBits 1 bin.toNat) := by
    cases bin <;> rfl
  have written : e.encodeBinEP bin = (shifted e 1 (e.range * bin.toNat) e.range).flush := by
    have below := repr.low_lt
    have doubled : (e.low <<< 1) % 2 ^ 32 = e.low * 2 ^ 1 := by
      rw [Nat.shiftLeft_eq, Nat.mod_eq_of_lt (by omega)]
    cases bin with
    | false =>
        simp only [BinEncoder.encodeBinEP, shifted, doubled, Bool.false_eq_true, if_false,
          Bool.toNat_false, Nat.mul_zero, Nat.add_zero]
    | true =>
        have added : (e.low * 2 ^ 1 + e.range) % 2 ^ 32 = e.low * 2 ^ 1 + e.range :=
          Nat.mod_eq_of_lt (by omega)
        simp only [BinEncoder.encodeBinEP, shifted, doubled, if_true, added, Bool.toNat_true,
          Nat.mul_one]
  rw [written, single]
  exact flush_bypassGroup repr settled ready bin.toNat 1 (by decide) (Bool.toNat_lt bin)

/-- Cutting the leading bins off a bypass group. -/
theorem bypassBins_split (i : Interval) (bins front back : Nat) :
    Exact.bypassBins i (toBits (front + back) bins) =
      Exact.bypassBins (Exact.bypassBins i (toBits front (bins >>> back))) (toBits back bins) := by
  rw [toBits_add, Exact.bypassBins_append, Nat.shiftRight_eq_div_pow]

theorem ready_bypassBins {i : Interval} (ready : Exact.Ready i) (bins : List Bool) :
    Exact.Ready (Exact.bypassBins i bins) := by
  rw [Exact.bypassBins_eq]
  exact ready

/-- The bins in front of the last `back`. -/
theorem front_lt {bins front back : Nat} (fits : bins < 2 ^ (front + back)) :
    bins >>> back < 2 ^ front := by
  rw [Nat.shiftRight_eq_div_pow]
  apply Nat.div_lt_of_lt_mul
  rwa [← pow_add, Nat.add_comm]

theorem encodeUnalignedBinsEP_spec (fuel : Nat) {bins numBins : Nat} (enough : numBins < fuel)
    (fits : bins < 2 ^ numBins) {e : BinEncoder ι} {i : Interval} (repr : Represents e i)
    (settled : 12 ≤ e.bitsLeft) (ready : Exact.Ready i) :
    ∃ e', BinEncoder.encodeUnalignedBinsEP fuel bins numBins e = .ok e' ∧
      Represents e' (Exact.bypassBins i (toBits numBins bins)) ∧ 12 ≤ e'.bitsLeft ∧
      e'.ctx = e.ctx := by
  induction fuel generalizing bins numBins e i with
  | zero => omega
  | succ fuel ih =>
      rw [BinEncoder.encodeUnalignedBinsEP]
      by_cases more : numBins > 8
      · rw [if_pos more]
        obtain ⟨back, rfl⟩ : ∃ back, numBins = 8 + back := ⟨numBins - 8, by omega⟩
        have backEq : 8 + back - 8 = back := by omega
        have pattern : bins >>> back < 2 ^ 8 := front_lt fits
        have left : bins - bins >>> back <<< back = bins % 2 ^ back := by
          rw [Nat.shiftLeft_eq, Nat.shiftRight_eq_div_pow]
          have parts := Nat.div_add_mod' bins (2 ^ back)
          omega
        obtain ⟨e₁, run₁, repr₁, settled₁, ctx₁⟩ :=
          flush_bypassGroup repr settled ready (bins >>> back) 8 le_rfl pattern
        obtain ⟨e₂, run₂, repr₂, settled₂, ctx₂⟩ :=
          ih (show back < fuel by omega)
            (show bins % 2 ^ back < 2 ^ back from Nat.mod_lt _ (Nat.two_pow_pos _)) repr₁ settled₁
            (ready_bypassBins ready _)
        refine ⟨e₂, ?_, ?_, settled₂, ctx₂.trans ctx₁⟩
        · simp only [backEq, bypassGroup_low repr settled (bins >>> back) 8 le_rfl pattern, left]
          simp only [shifted] at run₁
          simp only [run₁, run₂, bind, Except.bind]
        · rwa [bypassBins_split, ← toBits_mod back bins]
      · rw [if_neg more]
        have few : numBins ≤ 8 := by omega
        simp only [bypassGroup_low repr settled bins numBins few fits]
        exact flush_bypassGroup repr settled ready bins numBins few fits

theorem encodeAlignedBinsEP_spec (fuel : Nat) {bins numBins : Nat} (enough : numBins < fuel)
    {e : BinEncoder ι} {i : Interval} (repr : Represents e i) (settled : 12 ≤ e.bitsLeft)
    (aligned : i.range = 256) :
    ∃ e', BinEncoder.encodeAlignedBinsEP fuel bins numBins e = .ok e' ∧
      Represents e' (Exact.bypassBins i (toBits numBins bins)) ∧ 12 ≤ e'.bitsLeft ∧
      e'.ctx = e.ctx := by
  induction fuel generalizing numBins e i with
  | zero => omega
  | succ fuel ih =>
      have ready : Exact.Ready i := ⟨by omega, by omega⟩
      rw [BinEncoder.encodeAlignedBinsEP]
      by_cases more : numBins > 0
      · rw [if_pos more]
        obtain ⟨front, frontDef⟩ : ∃ front, front = min numBins 8 := ⟨_, rfl⟩
        obtain ⟨back, rfl⟩ : ∃ back, numBins = front + back := ⟨numBins - front, by omega⟩
        have backEq : front + back - front = back := by omega
        have few : front ≤ 8 := by omega
        have masked : (bins >>> back) &&& (1 <<< front - 1) = bins >>> back % 2 ^ front := by
          rw [Nat.shiftLeft_eq, Nat.one_mul, Nat.and_two_pow_sub_one_eq_mod]
        have group : bins >>> back % 2 ^ front < 2 ^ front := Nat.mod_lt _ (Nat.two_pow_pos _)
        have range : e.range = 256 := repr.range.trans aligned
        have registers : ((e.low <<< front) + ((bins >>> back % 2 ^ front) <<< 8)) % 2 ^ 32 =
            e.low * 2 ^ front + e.range * (bins >>> back % 2 ^ front) := by
          have below := (shift_repr repr settled few (bypassGroup_fits i group)).low_lt
          simp only [shifted, ← repr.range] at below
          rw [Nat.shiftLeft_eq, Nat.shiftLeft_eq, Nat.mul_comm _ (2 ^ 8), show 2 ^ 8 = 256 by rfl,
            ← range]
          exact Nat.mod_eq_of_lt (by omega)
        obtain ⟨e₁, run₁, repr₁, settled₁, ctx₁⟩ :=
          flush_bypassGroup repr settled ready (bins >>> back % 2 ^ front) front few group
        obtain ⟨e₂, run₂, repr₂, settled₂, ctx₂⟩ :=
          ih (show back < fuel by omega) repr₁ settled₁
            (by rw [Exact.bypassBins_eq]; exact aligned)
        refine ⟨e₂, ?_, ?_, settled₂, ctx₂.trans ctx₁⟩
        · simp only [← frontDef, backEq, masked, registers]
          simp only [shifted] at run₁
          simp only [run₁, run₂, bind, Except.bind]
        · rwa [bypassBins_split, ← toBits_mod front]
      · rw [if_neg more]
        have none : numBins = 0 := by omega
        subst none
        exact ⟨e, rfl, repr, settled, rfl⟩

theorem encodeBinsEP_spec {e : BinEncoder ι} {i : Interval} (repr : Represents e i)
    (settled : 12 ≤ e.bitsLeft) (ready : Exact.Ready i) {bins numBins : Nat}
    (fits : bins < 2 ^ numBins) :
    ∃ e', e.encodeBinsEP bins numBins = .ok e' ∧
      Represents e' (Exact.bypassBins i (toBits numBins bins)) ∧ 12 ≤ e'.bitsLeft ∧
      e'.ctx = e.ctx := by
  unfold BinEncoder.encodeBinsEP
  by_cases aligned : e.range = 256
  · rw [if_pos aligned]
    exact encodeAlignedBinsEP_spec _ (by omega) repr settled (repr.range.symm.trans aligned)
  · rw [if_neg aligned]
    exact encodeUnalignedBinsEP_spec _ (by omega) fits repr settled ready

/-- Keeping a part of the range and doubling, as the register code does it. -/
theorem narrow_registers {e : BinEncoder ι} {i : Interval} (repr : Represents e i)
    (settled : 12 ≤ e.bitsLeft) {offset range count : Nat} (few : count ≤ 8)
    (fits : offset + range ≤ i.range) :
    (((e.low + offset) % 2 ^ 32) <<< count) % 2 ^ 32 = e.low * 2 ^ count + offset * 2 ^ count := by
  have scaled : offset * 2 ^ count + range * 2 ^ count ≤ i.range * 2 ^ count := by
    rw [← Nat.add_mul]
    exact Nat.mul_le_mul_right _ fits
  have below := (shift_repr repr settled few scaled).low_lt
  have before := repr.low_lt
  have rangeEq := repr.range
  simp only [shifted] at below
  rw [Nat.mod_eq_of_lt (show e.low + offset < 2 ^ 32 by omega), Nat.shiftLeft_eq, Nat.add_mul]
  exact Nat.mod_eq_of_lt (by omega)

/-- The register code of every operation that keeps a part of the range. -/
theorem flush_narrow {e : BinEncoder ι} {i : Interval} (repr : Represents e i)
    (settled : 12 ≤ e.bitsLeft) {offset range count : Nat} (few : count ≤ 8)
    (fits : offset + range ≤ i.range) (ready : Exact.Ready (Exact.narrow i offset range count)) :
    ∃ e', BinEncoder.flush { e with
        low := (((e.low + offset) % 2 ^ 32) <<< count) % 2 ^ 32
        range := range <<< count
        bitsLeft := e.bitsLeft - count } = .ok e' ∧
      Represents e' (Exact.narrow i offset range count) ∧ 12 ≤ e'.bitsLeft ∧ e'.ctx = e.ctx := by
  have scaled : offset * 2 ^ count + range * 2 ^ count ≤ i.range * 2 ^ count := by
    rw [← Nat.add_mul]
    exact Nat.mul_le_mul_right _ fits
  rw [narrow_registers repr settled few fits, Nat.shiftLeft_eq]
  exact flush_shifted repr settled few scaled ready

/-- An operation that only shortens the range. -/
theorem shorten_spec {e : BinEncoder ι} {i : Interval} (repr : Represents e i)
    (settled : 12 ≤ e.bitsLeft) {range : Nat} (fits : range ≤ i.range) :
    Represents { e with range } (Exact.narrow i 0 range 0) := by
  have kept : 0 * 2 ^ 0 + range * 2 ^ 0 ≤ i.range * 2 ^ 0 := by simpa using fits
  have moved := shift_repr repr settled (show 0 ≤ 8 by decide) kept
  simpa [shifted, Exact.narrow] using moved

theorem codeBin_represents {e : BinEncoder ι} {i : Interval} (repr : Represents e i)
    (settled : 12 ≤ e.bitsLeft) (ready : Exact.Ready i) (m : BinProbModel) (bin : Bool) :
    ∃ e', e.codeBin m bin = .ok e' ∧ Represents e' (Exact.codeBin i m bin) ∧ 12 ≤ e'.bitsLeft ∧
      e'.ctx = e.ctx := by
  have ready' := (Exact.codeBin_spec ready m bin).2
  obtain ⟨lpsLow, lpsHigh, rest⟩ := m.getLPS_bounds ready.1 ready.2
  unfold BinEncoder.codeBin
  unfold Exact.codeBin at ready' ⊢
  simp only [repr.range] at ready' ⊢
  set LPS := m.getLPS i.range with lpsDef
  by_cases lps : bin ≠ m.mps
  · simp only [if_pos lps] at ready' ⊢
    obtain ⟨_, _, few⟩ := BinProbModel.renormLPS_bounds lpsLow lpsHigh
    exact flush_narrow repr settled (by omega) (by omega) ready'
  · simp only [if_neg lps] at ready' ⊢
    by_cases small : i.range - LPS < 256
    · simp only [if_pos small] at ready' ⊢
      have flushed := flush_narrow repr settled (show 1 ≤ 8 by decide) (by omega) ready'
      have below := repr.low_lt
      rwa [Nat.add_zero, Nat.mod_eq_of_lt (show e.low < 2 ^ 32 by omega)] at flushed
    · simp only [if_neg small]
      exact ⟨_, rfl, shorten_spec repr settled (by omega), settled, rfl⟩

theorem encodeBinTrm_represents {e : BinEncoder ι} {i : Interval} (repr : Represents e i)
    (settled : 12 ≤ e.bitsLeft) (ready : Exact.Ready i) (bin : Bool) :
    ∃ e', e.encodeBinTrm bin = .ok e' ∧ Represents e' (Exact.encodeBinTrm i bin) ∧
      12 ≤ e'.bitsLeft ∧ e'.ctx = e.ctx := by
  have ready' := Exact.encodeBinTrm_ready ready bin
  obtain ⟨low, high⟩ := ready
  unfold BinEncoder.encodeBinTrm
  unfold Exact.encodeBinTrm at ready' ⊢
  simp only [repr.range] at ready' ⊢
  cases bin with
  | true =>
      simp only [if_true] at ready' ⊢
      exact flush_narrow repr settled (by decide) (by omega) ready'
  | false =>
      simp only [Bool.false_eq_true, if_false] at ready' ⊢
      by_cases large : i.range - 2 ≥ 256
      · simp only [if_pos large]
        exact ⟨_, rfl, shorten_spec repr settled (by omega), settled, rfl⟩
      · simp only [if_neg large] at ready' ⊢
        have flushed := flush_narrow repr settled (by decide) (by omega) ready'
        have below := repr.low_lt
        rwa [Nat.add_zero, Nat.mod_eq_of_lt (show e.low < 2 ^ 32 by omega)] at flushed

/-! ## Whole runs -/

theorem bind_ok_eq {α β : Type} {first : Checked α} {next : α → Checked β} {a : α}
    (run : first = .ok a) : (first >>= next) = next a := by
  rw [run]
  rfl

/-- The buffered bytes leave with the last carry of the register. -/
theorem finishBuffered_spec {e : BinEncoder ι} {i : Interval} (repr : Represents e i) :
    ∃ s low carry, e.finishBuffered = .ok (s, low) ∧ s.WellFormed ∧
      s.bits.length = (emittedBits e).length ∧ ofBits s.bits = ofBits (emittedBits e) + carry ∧
      low < 2 ^ (32 - e.bitsLeft) ∧ e.low = low + carry * 2 ^ (32 - e.bitsLeft) := by
  have bitsHigh := repr.bitsHigh
  have bound := repr.bound
  set unit := 2 ^ (32 - e.bitsLeft) with unitDef
  have positive : 0 < unit := Nat.two_pow_pos _
  have emptied : ∀ carry ≤ 1, e.numBufferedBytes ≠ 0 →
      ∃ s₁ s₂, e.bitstream.write (e.bufferedByte + carry) 8 = .ok s₁ ∧
        BinEncoder.writeRepeated ((0xff + carry) &&& 0xff) (e.numBufferedBytes - 1) s₁ = .ok s₂ ∧
        s₂.WellFormed ∧ s₂.bits.length = (emittedBits e).length ∧
        ofBits s₂.bits = ofBits (emittedBits e) + carry := by
    intro carry atMostOne some
    have pending : emittedBits e = e.bitstream.bits ++ (toBits 8 e.bufferedByte ++
        List.replicate (8 * (e.numBufferedBytes - 1)) true) := by
      simp only [emittedBits, pendingBits, if_neg some]
    obtain ⟨s₁, s₂, run₁, run₂, wf₂, _, length₂, value₂⟩ := emit_spec repr.wf repr.aligned
      (e.numBufferedBytes - 1) (repr.buffered some) atMostOne
    rw [← pending] at value₂
    refine ⟨s₁, s₂, run₁, run₂, wf₂, ?_, value₂⟩
    rw [length₂, pending]
    simp only [List.length_append, length_toBits, List.length_replicate]
    omega
  unfold BinEncoder.finishBuffered
  by_cases carries : e.low >>> (32 - e.bitsLeft) ≠ 0
  · have large : unit ≤ e.low := by
      rw [Nat.shiftRight_eq_div_pow] at carries
      by_contra small
      exact carries (Nat.div_eq_of_lt (by omega))
    have some : e.numBufferedBytes ≠ 0 := by
      intro none
      have low := (repr.first none).2
      have scaled : unit = 2 ^ (23 - e.bitsLeft) * 512 := by
        rw [unitDef, show 512 = 2 ^ 9 by rfl, ← pow_add]
        congr 1
        omega
      omega
    obtain ⟨s₁, s₂, run₁, run₂, wf₂, length₂, value₂⟩ := emptied 1 le_rfl some
    refine ⟨s₂, e.low - unit, 1, ?_, wf₂, length₂, value₂, by omega, by omega⟩
    have zeros : BinEncoder.writeRepeated 0x00 (e.numBufferedBytes - 1) s₁ = .ok s₂ := run₂
    rw [if_pos carries, bind_ok_eq run₁, bind_ok_eq zeros, Nat.shiftLeft_eq, Nat.one_mul]
    rfl
  · have small : e.low < unit := by
      rw [Nat.shiftRight_eq_div_pow] at carries
      exact (Nat.div_eq_zero_iff_lt positive).mp (not_not.mp carries)
    rw [if_neg carries]
    by_cases some : e.numBufferedBytes > 0
    · obtain ⟨s₁, s₂, run₁, run₂, wf₂, length₂, value₂⟩ := emptied 0 (by decide) (by omega)
      refine ⟨s₂, e.low, 0, ?_, wf₂, length₂, value₂, small, by omega⟩
      have byte : e.bitstream.write e.bufferedByte 8 = .ok s₁ := run₁
      have ones : BinEncoder.writeRepeated 0xff (e.numBufferedBytes - 1) s₁ = .ok s₂ := run₂
      rw [if_pos some, bind_ok_eq byte]
      exact bind_ok_eq ones
    · have none : e.numBufferedBytes = 0 := by omega
      refine ⟨e.bitstream, e.low, 0, ?_, repr.wf, ?_, ?_, small, by omega⟩
      · rw [if_neg some, none]
        rfl
      · simp [emittedBits, pendingBits, none]
      · simp [emittedBits, pendingBits, none]

/-- `finish` writes out everything above the last eight bits of the lower bound. -/
theorem finish_spec {e : BinEncoder ι} {i : Interval} (repr : Represents e i) :
    ∃ e', e.finish = .ok e' ∧ e'.bitstream.WellFormed ∧
      e'.bitstream.bits.length = i.shifts + 1 ∧ ofBits e'.bitstream.bits = i.low / 2 ^ 8 ∧
      e'.ctx = e.ctx := by
  have bitsHigh := repr.bitsHigh
  have shifts := repr.shifts
  obtain ⟨s, low, carry, run, wf, length, value, lowLt, lowEq⟩ := finishBuffered_spec repr
  obtain ⟨k, kDef⟩ : ∃ k, k = 24 - e.bitsLeft := ⟨_, rfl⟩
  have width : 32 - e.bitsLeft = k + 8 := by omega
  rw [width, pow_add] at lowLt lowEq
  have fieldLt : low >>> 8 < 2 ^ k := by
    rw [Nat.shiftRight_eq_div_pow]
    apply Nat.div_lt_of_lt_mul
    rw [Nat.mul_comm]
    exact lowLt
  obtain ⟨s', written, wf', bits'⟩ := OutputBitstream.write_spec wf (low >>> 8) k (by omega) fieldLt
  refine ⟨{ e with
    bitstream := s'
    low := low
    numBufferedBytes := min e.numBufferedBytes 1 }, ?_, wf', ?_, ?_, rfl⟩
  · unfold BinEncoder.finish
    rw [bind_ok_eq run, ← kDef]
    exact bind_ok_eq written
  · show s'.bits.length = i.shifts + 1
    rw [bits', List.length_append, length_toBits, length]
    omega
  · show ofBits s'.bits = i.low / 2 ^ 8
    have total : i.low = low + ((ofBits (emittedBits e) + carry) * 2 ^ k) * 2 ^ 8 := by
      rw [repr.value, width, pow_add, lowEq]
      ring
    rw [bits', ofBits_append, length_toBits, value, ofBits_toBits_of_lt fieldLt, total,
      Nat.add_mul_div_right _ _ (by decide), Nat.shiftRight_eq_div_pow, Nat.add_comm]

theorem refines_start (ctx : CtxStore ι) :
    Refines (BinEncoder.start OutputBitstream.empty ctx) (Exact.start ctx) where
  repr :=
    { wf := OutputBitstream.wellFormed_empty
      aligned := rfl
      range := rfl
      bitsLow := show 4 ≤ 23 by decide
      bitsHigh := show 23 ≤ 23 by decide
      bound := show 16 * (0 + 510) ≤ 17 * 2 ^ (32 - 23) by norm_num
      buffered := fun some => absurd rfl some
      first := fun _ => ⟨rfl, show 0 + 510 ≤ 510 * 2 ^ (23 - 23) by norm_num⟩
      value := by simp [Exact.start, BinEncoder.start, emittedBits, pendingBits]
      shifts := rfl }
  settled := show 12 ≤ 23 by decide
  ready := Exact.ready_start
  ctx := rfl

variable [DecidableEq ι]

/-- One call on the encoder's interface. -/
def encodeOp (e : BinEncoder ι) : Op ι → Checked (BinEncoder ι)
  | .bin bin ctxId => e.encodeBin bin ctxId
  | .binEP bin => e.encodeBinEP bin
  | .binsEP bins numBins => e.encodeBinsEP bins numBins
  | .trmZero => e.encodeBinTrm false
  | .align => .ok e.align

/-- A sequence of calls. -/
def encodeOps (e : BinEncoder ι) (ops : List (Op ι)) : Checked (BinEncoder ι) :=
  ops.foldlM encodeOp e

/-- Every call succeeds and keeps the engine in step with the exact coder. -/
theorem encodeOp_refines {e : BinEncoder ι} {c : Exact ι} (refines : Refines e c) {op : Op ι}
    (valid : op.Valid) : ∃ e', encodeOp e op = .ok e' ∧ Refines e' (c.step op) := by
  obtain ⟨repr, settled, ready, ctx⟩ := refines
  have ready' := (c.step_spec ready op).2
  cases op with
  | bin bin ctxId =>
      obtain ⟨e', run, repr', settled', ctx'⟩ :=
        codeBin_represents repr settled ready (c.ctx ctxId) bin
      refine ⟨{ e' with ctx := e'.ctx.update ctxId bin }, ?_, ⟨?_, settled', ready', ?_⟩⟩
      · simp only [encodeOp, BinEncoder.encodeBin, ctx, run, bind, Except.bind, pure, Except.pure]
      · exact ⟨repr'.wf, repr'.aligned, repr'.range, repr'.bitsLow, repr'.bitsHigh, repr'.bound,
          repr'.buffered, repr'.first, repr'.value, repr'.shifts⟩
      · show e'.ctx.update ctxId bin = c.ctx.update ctxId bin
        rw [ctx', ctx]
  | binEP bin =>
      obtain ⟨e', run, repr', settled', ctx'⟩ := encodeBinEP_spec repr settled ready bin
      exact ⟨e', run, repr', settled', ready', ctx'.trans ctx⟩
  | binsEP bins numBins =>
      obtain ⟨e', run, repr', settled', ctx'⟩ := encodeBinsEP_spec repr settled ready valid.2
      exact ⟨e', run, repr', settled', ready', ctx'.trans ctx⟩
  | trmZero =>
      obtain ⟨e', run, repr', settled', ctx'⟩ := encodeBinTrm_represents repr settled ready false
      exact ⟨e', run, repr', settled', ready', ctx'.trans ctx⟩
  | align =>
      refine ⟨e.align, rfl, ?_, settled, ready', ctx⟩
      have fits : 0 * 2 ^ 0 + 256 * 2 ^ 0 ≤ c.interval.range * 2 ^ 0 := by
        simpa using ready.1
      have moved := shift_repr repr settled (show 0 ≤ 8 by decide) fits
      simpa [shifted, Interval.advance, BinEncoder.align, Exact.step] using moved

theorem encodeOps_refines {e : BinEncoder ι} {c : Exact ι} (refines : Refines e c)
    {ops : List (Op ι)} (valid : ∀ op ∈ ops, op.Valid) :
    ∃ e', encodeOps e ops = .ok e' ∧ Refines e' (c.run ops) := by
  induction ops generalizing e c with
  | nil => exact ⟨e, rfl, refines⟩
  | cons op rest ih =>
      obtain ⟨e₁, run₁, refines₁⟩ := encodeOp_refines refines (valid op (by simp))
      obtain ⟨e₂, run₂, refines₂⟩ := ih refines₁ fun other member => valid other (by simp [member])
      refine ⟨e₂, ?_, refines₂⟩
      show (encodeOp e op >>= fun e' => encodeOps e' rest) = .ok e₂
      rw [run₁]
      exact run₂

/-- After any sequence of calls from `start()` the written bits, the buffered byte,
the counted `0xff` bytes and `low` together are the exact lower bound, the
registers stay in their ranges, the number of written bits is the number of
doublings, and no output stops at a check, neither here nor at the end. -/
theorem encoder_refines_exact (ctx : CtxStore ι) (ops : List (Op ι))
    (valid : ∀ op ∈ ops, op.Valid) :
    ∃ e, encodeOps (BinEncoder.start OutputBitstream.empty ctx) ops = .ok e ∧
      ((Exact.start ctx).run ops).interval.low =
        ofBits (e.bitstream.bits ++ pendingBits e) * 2 ^ (32 - e.bitsLeft) + e.low ∧
      e.low + e.range < 2 ^ 32 ∧ e.range = ((Exact.start ctx).run ops).interval.range ∧
      256 ≤ e.range ∧ e.range ≤ 510 ∧ 12 ≤ e.bitsLeft ∧ e.bitsLeft ≤ 23 ∧
      (e.numBufferedBytes ≠ 0 → e.bufferedByte ≤ 0xfe) ∧
      e.writtenBits = ((Exact.start ctx).run ops).interval.shifts ∧
      e.getNumWrittenBits = ((Exact.start ctx).run ops).interval.shifts % 2 ^ 32 ∧
      (∃ finished, e.finish = .ok finished) ∧
      ∃ terminated finished, e.encodeBinTrm true = .ok terminated ∧
        terminated.finish = .ok finished ∧
        terminated.writtenBits =
          (Exact.encodeBinTrm ((Exact.start ctx).run ops).interval true).shifts ∧
        terminated.getNumWrittenBits =
          (Exact.encodeBinTrm ((Exact.start ctx).run ops).interval true).shifts % 2 ^ 32 := by
  obtain ⟨e, run, repr, settled, ready, _⟩ := encodeOps_refines (refines_start ctx) valid
  have below := repr.low_lt
  have rangeEq := repr.range
  obtain ⟨terminated, ran, repr', settled', _⟩ := encodeBinTrm_represents repr settled ready true
  have written : ∀ {e : BinEncoder ι} {i : Interval}, Represents e i →
      e.writtenBits = i.shifts ∧ e.getNumWrittenBits = i.shifts % 2 ^ 32 := by
    intro e i repr
    have shifts := repr.shifts
    have pending : (pendingBits e).length = 8 * e.numBufferedBytes := by
      unfold pendingBits
      split
      · next none => simp [none]
      · simp only [List.length_append, length_toBits, List.length_replicate]
        omega
    rw [emittedBits, List.length_append, OutputBitstream.length_bits, pending] at shifts
    have count : e.writtenBits = i.shifts := by
      unfold BinEncoder.writtenBits
      omega
    exact ⟨count, congrArg (· % 2 ^ 32) count⟩
  obtain ⟨finished, done, _⟩ := finish_spec repr
  obtain ⟨finished', done', _⟩ := finish_spec repr'
  exact ⟨e, run, repr.value, by omega, rangeEq, by rw [rangeEq]; exact ready.1,
    by rw [rangeEq]; exact ready.2, settled, repr.bitsHigh, repr.buffered, (written repr).1,
    (written repr).2, ⟨finished, done⟩, terminated, finished', ran, done', written repr'⟩

end

/-- A context bin, bypass bins in both forms and an aligned group. -/
def sampleOps : List (Op Unit) :=
  [.bin true (), .binEP true, .binsEP 0xabcdef 24, .trmZero, .align, .binsEP 0x155 9]

theorem encoder_refines_exact_sampleOps :
    ∃ e, encodeOps (BinEncoder.start OutputBitstream.empty fun _ => BinProbModel.default) sampleOps =
      .ok e ∧ 12 ≤ e.bitsLeft := by
  have valid : ∀ op ∈ sampleOps, op.Valid := by
    simp [sampleOps, Op.Valid]
  obtain ⟨e, run, _, _, _, _, _, settled, _⟩ :=
    encoder_refines_exact (fun _ => BinProbModel.default) sampleOps valid
  exact ⟨e, run, settled⟩

end Vtm.Cabac
