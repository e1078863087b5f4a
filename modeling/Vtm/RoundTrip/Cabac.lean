import Vtm.Cabac.Decoder

/-!
# CABAC round trip

The decoder issues the request that matches each call of the encoder. The code
string lies in the interval of the whole run, so in that of every prefix, and
each request returns what was encoded. Termination leaves the string exactly one
stop bit and zeros longer than the interval needs.
-/

namespace Vtm.Cabac

open Vtm.Std

variable {ι : Type}

/-- The calls on the decoder's interface. -/
inductive Request (ι : Type) where
  | decodeBin (ctxId : ι)
  | decodeBinEP
  | decodeBinsEP (numBins : Nat)
  | decodeBinTrm
  | align
deriving DecidableEq, Repr

/-- What a call returns. -/
inductive Reply where
  | bin (bin : Bool)
  | bins (bins : Nat)
  | nothing
deriving DecidableEq, Repr

/-- The call that matches an encoder operation. -/
def Op.request : Op ι → Request ι
  | .bin _ ctxId => .decodeBin ctxId
  | .binEP _ => .decodeBinEP
  | .binsEP _ numBins => .decodeBinsEP numBins
  | .trmZero => .decodeBinTrm
  | .align => .align

/-- The bins of an encoder operation. -/
def Op.reply : Op ι → Reply
  | .bin symbol _ => .bin symbol
  | .binEP symbol => .bin symbol
  | .binsEP symbols _ => .bins symbols
  | .trmZero => .bin false
  | .align => .nothing

/-- What termination writes: the lower bound without its last bit, a stop bit and
zeros up to the byte boundary. -/
theorem terminate_spec {e : BinEncoder ι} {c : Exact ι} (refines : Refines e c) :
    ∃ terminated finished s, e.encodeBinTrm true = .ok terminated ∧
      terminated.finish = .ok finished ∧ finished.bitstream.writeByteAlignment = .ok s ∧
      s.numHeldBits = 0 ∧ finished.ctx = c.ctx ∧ s.fifo.length = 2 + c.interval.shifts / 8 ∧
      ofBytes s.fifo = ((c.interval.low + (c.interval.range - 2)) / 2 * 2 + 1) *
        2 ^ (7 - c.interval.shifts % 8) := by
  obtain ⟨repr, settled, ready, ctx⟩ := refines
  obtain ⟨terminated, ran, repr', _, ctx'⟩ := encodeBinTrm_represents repr settled ready true
  obtain ⟨finished, done, wf, length, value, ctx₂⟩ := finish_spec repr'
  obtain ⟨s, padded, aligned, bits⟩ := OutputBitstream.writeByteAlignment_spec wf
  have content := OutputBitstream.bits_of_aligned aligned
  have lengthEq : finished.bitstream.bits.length = c.interval.shifts + 8 := length
  have lower : ofBits finished.bitstream.bits =
      (c.interval.low + (c.interval.range - 2)) / 2 := by
    rw [value]
    show (c.interval.low * 2 ^ 7 + (c.interval.range - 2) * 2 ^ 7) / 2 ^ 8 = _
    rw [← Nat.add_mul, show 2 ^ 8 = 2 * 2 ^ 7 by rfl, Nat.mul_div_mul_right _ _ (by decide)]
  refine ⟨terminated, finished, s, ran, done, padded, aligned,
    ctx₂.trans (ctx'.trans ctx), ?_, ?_⟩
  · have lengths := congrArg List.length bits
    rw [content, length_bytesToBits, List.length_append, List.length_cons, List.length_replicate,
      lengthEq] at lengths
    omega
  · rw [ofBytes, ← content, bits, ofBits_append, ofBits_cons, ofBits_replicate_false, lower,
      List.length_cons, List.length_replicate, lengthEq, Nat.add_mod_right, pow_succ]
    simp only [Bool.toNat_true]
    ring

/-- The terminated string lies in the last two values of the interval. -/
theorem codes_terminated {bytes : List UInt8} {low shifts : Nat}
    (length : bytes.length = 2 + shifts / 8)
    (value : ofBytes bytes = (low / 2 * 2 + 1) * 2 ^ (7 - shifts % 8)) :
    Codes bytes ⟨low, 2, shifts⟩ := by
  have width : 8 * bytes.length - 9 - shifts = 7 - shifts % 8 := by omega
  have positive := Nat.two_pow_pos (7 - shifts % 8)
  refine ⟨by omega, by simp only; omega, ?_, ?_⟩
  · rw [value]
    simp only [width]
    exact Nat.mul_le_mul_right _ (by omega)
  · rw [value]
    simp only [width]
    exact Nat.mul_lt_mul_of_pos_right (by omega) positive

/-- The stop bit stands where `finish` looks for it. -/
theorem finish_terminated {d : BinDecoder ι} {bytes : List UInt8} {i : Interval} {half range : Nat}
    (tracks : Tracks d bytes i) (length : bytes.length = 2 + i.shifts / 8)
    (value : ofBytes bytes = (half * 2 + 1) * 2 ^ (7 - i.shifts % 8)) :
    BinDecoder.finish { d with range } = .ok () := by
  have inside : 1 + i.shifts / 8 < bytes.length := by omega
  have last : bytes[1 + i.shifts / 8].toNat = ofBytes bytes % 256 := by
    have whole : bytes = bytes.take (1 + i.shifts / 8) ++ [bytes[1 + i.shifts / 8]] := by
      rw [← List.take_succ_eq_append_getElem inside, List.take_of_length_le (by omega)]
    have byteLt := UInt8.toNat_lt bytes[1 + i.shifts / 8]
    conv_rhs => rw [whole]
    rw [ofBytes_append, ofBytes_singleton, List.length_singleton, pow_one]
    omega
  have peeked : d.bitstream.peekPreviousByte = .ok bytes[1 + i.shifts / 8].toNat := by
    unfold InputBitstream.peekPreviousByte
    rw [tracks.fifo, tracks.index]
    have previous : 2 + i.shifts / 8 - 1 = 1 + i.shifts / 8 := by omega
    rw [previous, List.getElem?_eq_getElem inside]
    exact bind_ok_eq (CHECK_of_not (by omega))
  have position : (8 + d.bitsNeeded).toNat = i.shifts % 8 := by
    rw [tracks.needed]
    omega
  have pattern : (bytes[1 + i.shifts / 8].toNat <<< (i.shifts % 8)) &&& 0xff = 0x80 := by
    rw [show 0xff = 2 ^ 8 - 1 by rfl, Nat.and_two_pow_sub_one_eq_mod, Nat.shiftLeft_eq, last, value,
      show 256 = 2 ^ 8 by rfl, Nat.mod_mul_mod, Nat.mul_assoc, ← pow_add,
      Nat.sub_add_cancel (by omega)]
    omega
  unfold BinDecoder.finish
  rw [bind_ok_eq peeked]
  simp only [position, pattern]
  rfl

/-- The decoder follows the exact coder and holds its contexts. -/
structure Follows (d : BinDecoder ι) (bytes : List UInt8) (c : Exact ι) : Prop where
  tracks : Tracks d bytes c.interval
  ready : Exact.Ready c.interval
  ctx : d.ctx = c.ctx

/-- `start` reads two bytes. -/
theorem start_follows {bytes : List UInt8} (long : 2 ≤ bytes.length) (ctx : CtxStore ι) :
    ∃ d, BinDecoder.start (InputBitstream.ofFifo bytes) ctx = .ok d ∧
      Follows d bytes (Exact.start ctx) := by
  match bytes, long with
  | first :: second :: rest, _ =>
      refine ⟨⟨⟨first :: second :: rest, [], 2, 0, 0, 0⟩, 510, (first.toNat <<< 8) + second.toNat,
        -8, ctx⟩, rfl, ⟨⟨rfl, by simp [Exact.start], rfl, rfl, ?_⟩, Exact.ready_start, rfl⟩⟩
      have pair : ofBytes [first, second] = first.toNat * 256 + second.toNat := by
        have joined := ofBytes_append [first] [second]
        simpa using joined
      simp [Exact.start, window, pair, Nat.shiftLeft_eq]

variable [DecidableEq ι]

/-- One call. -/
def decodeRequest (d : BinDecoder ι) : Request ι → Checked (Reply × BinDecoder ι)
  | .decodeBin ctxId => do
      let (bin, d) ← d.decodeBin ctxId
      return (.bin bin, d)
  | .decodeBinEP => do
      let (bin, d) ← d.decodeBinEP
      return (.bin bin, d)
  | .decodeBinsEP numBins => do
      let (bins, d) ← d.decodeBinsEP numBins
      return (.bins bins, d)
  | .decodeBinTrm => do
      let (bin, d) ← d.decodeBinTrm
      return (.bin bin, d)
  | .align => .ok (.nothing, d.align)

/-- A sequence of calls, with everything they return. -/
def decodeRequests (d : BinDecoder ι) : List (Request ι) → Checked (List Reply × BinDecoder ι)
  | [] => .ok ([], d)
  | request :: rest => do
      let (reply, d) ← decodeRequest d request
      let (replies, d) ← decodeRequests d rest
      return (reply :: replies, d)

/-- A call returns the bins of the operation it matches. -/
theorem decodeRequest_follows {d : BinDecoder ι} {bytes : List UInt8} {c : Exact ι}
    (follows : Follows d bytes c) {op : Op ι} (valid : op.Valid)
    (codes : Codes bytes (c.step op).interval) :
    ∃ d', decodeRequest d op.request = .ok (op.reply, d') ∧ Follows d' bytes (c.step op) := by
  obtain ⟨tracks, ready, ctx⟩ := follows
  have ready' := (c.step_spec ready op).2
  cases op with
  | bin bin ctxId =>
      obtain ⟨d', run, tracks', ctx'⟩ := codeBin_tracks tracks ready (c.ctx ctxId) bin codes
      refine ⟨{ d' with ctx := d'.ctx.update ctxId bin }, ?_, ⟨?_, ready', ?_⟩⟩
      · simp only [Op.request, Op.reply, decodeRequest, BinDecoder.decodeBin, ctx, run, bind,
          Except.bind, pure, Except.pure]
      · exact ⟨tracks'.fifo, tracks'.index, tracks'.range, tracks'.needed, tracks'.value⟩
      · show d'.ctx.update ctxId bin = c.ctx.update ctxId bin
        rw [ctx', ctx]
  | binEP bin =>
      obtain ⟨d', run, tracks', ctx'⟩ := decodeBinEP_tracks tracks ready.2 bin codes
      exact ⟨d', bind_ok_eq run, tracks', ready', ctx'.trans ctx⟩
  | binsEP bins numBins =>
      obtain ⟨d', run, tracks', ctx'⟩ :=
        decodeBinsEP_tracks tracks ready.2 valid.1 valid.2 codes
      exact ⟨d', bind_ok_eq run, tracks', ready', ctx'.trans ctx⟩
  | trmZero =>
      obtain ⟨d', run, tracks', ctx'⟩ := decodeBinTrm_tracks tracks ready codes
      exact ⟨d', bind_ok_eq run, tracks', ready', ctx'.trans ctx⟩
  | align =>
      exact ⟨d.align, rfl, ⟨tracks.fifo, tracks.index, rfl, tracks.needed, tracks.value⟩, ready',
        ctx⟩

theorem decodeRequests_follows {d : BinDecoder ι} {bytes : List UInt8} {c : Exact ι}
    (follows : Follows d bytes c) {ops : List (Op ι)} (valid : ∀ op ∈ ops, op.Valid)
    (codes : Codes bytes (c.run ops).interval) :
    ∃ d', decodeRequests d (ops.map Op.request) = .ok (ops.map Op.reply, d') ∧
      Follows d' bytes (c.run ops) := by
  induction ops generalizing d c with
  | nil => exact ⟨d, rfl, follows⟩
  | cons op rest ih =>
      -- the string codes the whole run, so also the interval after its first operation
      have later := ((c.step op).run_spec (c.step_spec follows.ready op).2 rest).1
      obtain ⟨d₁, run₁, follows₁⟩ :=
        decodeRequest_follows follows (valid op (by simp)) (codes.of_within later)
      obtain ⟨d₂, run₂, follows₂⟩ :=
        ih follows₁ (fun other member => valid other (by simp [member])) codes
      refine ⟨d₂, ?_, follows₂⟩
      rw [List.map_cons, decodeRequests, bind_ok_eq run₁]
      exact bind_ok_eq run₂

/-- After any operations, terminated, finished and padded to a whole byte, the
decoder started on the written bytes returns every bin, ends with the encoder's
contexts, has read exactly the written bytes, and finds the stop bit. -/
theorem decode_encode (ctx : CtxStore ι) (ops : List (Op ι)) (valid : ∀ op ∈ ops, op.Valid) :
    ∃ e terminated finished s,
      encodeOps (BinEncoder.start OutputBitstream.empty ctx) ops = .ok e ∧
      e.encodeBinTrm true = .ok terminated ∧ terminated.finish = .ok finished ∧
      finished.bitstream.writeByteAlignment = .ok s ∧ s.numHeldBits = 0 ∧
      ∃ started d ended,
        BinDecoder.start (InputBitstream.ofFifo s.fifo) ctx = .ok started ∧
        decodeRequests started (ops.map Op.request) = .ok (ops.map Op.reply, d) ∧
        d.decodeBinTrm = .ok (true, ended) ∧ ended.finish = .ok () ∧
        ended.ctx = finished.ctx ∧ ended.bitstream.fifoIdx = s.fifo.length := by
  obtain ⟨e, run, refines⟩ := encodeOps_refines (refines_start ctx) valid
  obtain ⟨terminated, finished, s, ran, done, padded, aligned, ctxEq, length, value⟩ :=
    terminate_spec refines
  have codes := codes_terminated length value
  have ready := refines.ready
  have within : ((Exact.start ctx).run ops).interval.Within
      ⟨((Exact.start ctx).run ops).interval.low + (((Exact.start ctx).run ops).interval.range - 2),
        2, ((Exact.start ctx).run ops).interval.shifts⟩ := by
    refine ⟨le_rfl, by simp, ?_⟩
    have wide := ready.1
    simp only [Nat.sub_self, pow_zero, Nat.mul_one]
    omega
  obtain ⟨started, first, follows⟩ := start_follows (by omega : 2 ≤ s.fifo.length) ctx
  obtain ⟨d, decoded, tracks, _, ctx'⟩ :=
    decodeRequests_follows follows valid (codes.of_within within)
  refine ⟨e, terminated, finished, s, run, ran, done, padded, aligned, started, d, _, first, decoded,
    decodeBinTrm_last tracks codes, ?_, ctx'.trans ctxEq.symm, tracks.index.trans length.symm⟩
  exact finish_terminated tracks length value

theorem decode_encode_sampleOps :
    ∃ e terminated finished s,
      encodeOps (BinEncoder.start OutputBitstream.empty fun _ => BinProbModel.default) sampleOps =
        .ok e ∧
      e.encodeBinTrm true = .ok terminated ∧ terminated.finish = .ok finished ∧
      finished.bitstream.writeByteAlignment = .ok s ∧
      ∃ started d,
        BinDecoder.start (InputBitstream.ofFifo s.fifo) (fun _ => BinProbModel.default) =
          .ok started ∧
        decodeRequests started (sampleOps.map Op.request) =
          .ok ([.bin true, .bin true, .bins 0xabcdef, .bin false, .nothing, .bins 0x155], d) := by
  have valid : ∀ op ∈ sampleOps, op.Valid := by
    simp [sampleOps, Op.Valid]
  obtain ⟨e, terminated, finished, s, run, ran, done, padded, _, started, d, _, first, decoded, _⟩ :=
    decode_encode (fun _ => BinProbModel.default) sampleOps valid
  exact ⟨e, terminated, finished, s, run, ran, done, padded, started, d, first, decoded⟩

end Vtm.Cabac
