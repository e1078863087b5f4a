import Vtm.Player.Packet

/-!
# Frames

The encoder thread cuts its buffer at start codes and sends every NAL unit that
another start code follows, in packets of at most `MAX_BODY_SIZE` bytes. The
decoder thread takes packets from the window's `PriorityQueue` and puts the
frames together again.
-/

namespace Vtm.Player

open Vtm.Std

def NUM_PACK (size : Nat) : Nat := (size + MAX_BODY_SIZE - 1) / MAX_BODY_SIZE

section Encoder

variable (szBuffer : List UInt8)

/-- The `k`-th byte. -/
@[grind =] def byteAt (k : Nat) : UInt8 := szBuffer.getD k 0

/-- The last byte of a start code is at `k`. -/
@[grind =] def startCodeAt (k : Nat) : Bool :=
  (byteAt szBuffer k = 1 ∧ k ≥ 2) ∧ (byteAt szBuffer (k - 1) = 0 ∧ byteAt szBuffer (k - 2) = 0)

/-- `frameSize` for the frame from `pL` to the start code that ends at `k`. -/
def frameSize (pL k : Nat) : Nat :=
  if byteAt szBuffer (k - 3) = 0 then k - pL - 3 else k - pL - 2

/-- The loop state of `thread_func_for_encoder`: the start of the current frame,
and the frames sent. -/
structure Splitter where
  pL : Option Nat
  frames : List (List UInt8)

/-- The frame that is sent when a start code ends at `k`. -/
@[grind =] def frameBefore (k : Nat) : Option Nat → List (List UInt8)
  | none => []
  | some pL => [(szBuffer.drop pL).take (frameSize szBuffer pL k)]

/-- One round of the loop over the buffer. -/
@[grind =] def splitStep (st : Splitter) (k : Nat) : Splitter :=
  if startCodeAt szBuffer k then ⟨some (k + 1), st.frames ++ frameBefore szBuffer k st.pL⟩ else st

/-- The frames that `thread_func_for_encoder` sends. -/
def sentFrames : List (List UInt8) :=
  ((List.range szBuffer.length).foldl (splitStep szBuffer) ⟨none, []⟩).frames

end Encoder

/-- `PacketUtils::push_packet`, with the data from the body pointer on. -/
def pushPacket (size : Nat) (MP : Bool) (seq timestamp : Nat) (data : List UInt8) : Packet :=
  { size, type := RtmpType.Push.code, MP, seq, timestamp,
    body := data.take (if MP then MAX_BODY_SIZE else size - seq) }

/-- `PacketUtils::fin_packet`. -/
def finPacket (timestamp : Nat) : Packet :=
  { size := 0, type := RtmpType.Fin.code, MP := false, seq := 0, timestamp, body := [] }

/-- The packets of a frame. -/
@[grind =] def framePackets (frame : List UInt8) (timestamp : Nat) : List Packet :=
  let numPack := NUM_PACK frame.length
  (List.range numPack).map fun i =>
    pushPacket frame.length (i ≠ numPack - 1) (i * MAX_BODY_SIZE) timestamp
      (frame.drop (i * MAX_BODY_SIZE))

/-- The packets of all frames; the `n`-th call of `get_timestamp_ms` is for the
`n`-th frame and the last one for the `Fin` packet. -/
@[grind =] def streamPackets (clock : Nat → Nat) : Nat → List (List UInt8) → List Packet
  | n, [] => [finPacket (clock n)]
  | n, frame :: frames => framePackets frame (clock n) ++ streamPackets clock (n + 1) frames

/-- What `thread_func_for_encoder` sends. -/
def sentPackets (clock : Nat → Nat) (szBuffer : List UInt8) : List Packet :=
  streamPackets clock 0 (sentFrames szBuffer)

/-- `cmp`: the first packet has the lower priority. -/
def cmp (p1 p2 : Packet) : Bool :=
  if p1.timestamp > p2.timestamp then true
  else if p1.timestamp = p2.timestamp then p1.seq > p2.seq
  else false

/-- A sequence in which a `PriorityQueue` can give back the packets pushed before
it. -/
structure PopOrder (pushed popped : List Packet) : Prop where
  perm : popped.Perm pushed
  sorted : popped.Pairwise fun p q => cmp p q = false

structure Frame where
  timestamp : Nat
  size : Nat
  data : Option (List UInt8)

/-- A frame after `memset`. -/
def Frame.zero : Frame := ⟨0, 0, none⟩

/-- `malloc` of a signed 32-bit size; the memory is not initialized. -/
def malloc (memory : Nat → UInt8) (size : Nat) : Option (List UInt8) :=
  if size < 2 ^ 31 then some ((List.range size).map memory) else none

/-- `memcpy` to an offset. -/
def copyAt (data : List UInt8) (offset : Nat) (bytes : List UInt8) : List UInt8 :=
  data.take offset ++ bytes ++ data.drop (offset + bytes.length)

/-- The start of a frame at its first packet. -/
def firstPacket (memory : Nat → UInt8) (st : Frame × Nat) (packet : Packet) : Frame × Nat :=
  if packet.seq = 0 then (⟨packet.timestamp, packet.size, malloc memory packet.size⟩, 0) else st

/-- A packet is copied into the frame of its time. -/
def combinePacket (st : Frame × Nat) (packet : Packet) : Checked (Frame × Nat) :=
  if st.1.timestamp = packet.timestamp then
    match st.1.data with
    | none => .error "write to a null pointer"
    | some data => do
        CHECK (data.length < packet.seq + packet.body.length) "write behind the frame"
        return ({ st.1 with data := some (copyAt data packet.seq packet.body) },
          (st.2 + packet.body.length) % 2 ^ 32)
  else return st

/-- What a call of `get_next_nalu` returns, whether it has met `Fin`, and what it
leaves in the queue. -/
structure NextNalu where
  data : List UInt8
  lost : Bool
  queue : List Packet

/-- The loop of `get_next_nalu` over the packets in the order in which the queue
gives them. -/
def combineLoop (memory : Nat → Nat → UInt8) (st : Frame × Nat) : List Packet → Checked NextNalu
  | [] => .error "waits for a packet"
  | packet :: queue =>
      if packet.type = RtmpType.Fin.code then return ⟨st.1.data.getD [], true, queue⟩
      else do
        let st ← combinePacket (firstPacket (memory queue.length) st packet) packet
        if st.2 = st.1.size then return ⟨st.1.data.getD [], false, queue⟩
        else combineLoop memory st queue

/-- `get_next_nalu`. -/
def getNextNalu (memory : Nat → Nat → UInt8) (queue : List Packet) : Checked NextNalu :=
  combineLoop memory (Frame.zero, 0) queue

/-- The frames of at most `calls` calls of `get_next_nalu` before the one that
meets `Fin`. -/
def framesUntilFin (memory : Nat → Nat → UInt8) : Nat → List Packet → Checked (List (List UInt8))
  | 0, _ => .error "no more calls"
  | calls + 1, queue => do
      let nalu ← getNextNalu memory queue
      if nalu.lost then return [] else return nalu.data :: (← framesUntilFin memory calls nalu.queue)

/-- What the decoder thread receives. Every call takes a packet, so the calls
suffice. -/
def receivedFrames (memory : Nat → Nat → UInt8) (queue : List Packet) :
    Checked (List (List UInt8)) :=
  framesUntilFin memory queue.length queue

end Vtm.Player
