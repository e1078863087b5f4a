import Vtm.Player.Packet
import Mathlib.Data.List.Forall2

/-!
# Packets over the byte stream

`WriteCallback` appends whole packets to the stream and `ReadCallback` takes at
most one packet from it for each event. The packets survive exactly when every
event finds a whole packet and there are as many events as packets.
-/

namespace Vtm.Player

open Vtm.Std

/-- `WriteCallback`, for the packets in the order in which the queue gives them. -/
@[grind =] def writeCallback (outputQue : List PACKET) : List UInt8 :=
  outputQue.flatMap fun packet => packet.rawNetPacket.image

/-- A read that drains as many bytes as it is asked for, or all there are. -/
def Drains (buffereventRead : Nat → List UInt8 → List UInt8 × List UInt8) : Prop :=
  ∀ size input, buffereventRead size input = (input.take size, input.drop size)

section ReadEvents

-- `bufferevent_read`: the bytes it gives of a buffer, and what stays there
variable (buffereventRead : Nat → List UInt8 → List UInt8 × List UInt8)

/-- `ReadCallback`: the packet that it submits, and what stays in the buffer. -/
def readCallback (memory : PACKET) (input : List UInt8) :
    Checked (Option PACKET × List UInt8) :=
  let (buf, input) := buffereventRead MAX_PACKET_SIZE input
  if buf.length = 0 then return (none, input)
  else if buf.length ≠ MAX_PACKET_SIZE then return (none, input)
  else return (some (← PACKET.newPacket memory (PACKET.ofNet buf)), input)

/-- A run of read events, each with the bytes that have arrived: the packets
submitted, and what stays in the buffer. The memory of the packets is given by
the number of the event. -/
def readEvents (memory : Nat → PACKET) :
    Nat → List UInt8 → List (List UInt8) → Checked (List PACKET × List UInt8)
  | _, input, [] => return ([], input)
  | n, input, arrived :: events => do
      let (packet, input) ← readCallback buffereventRead (memory n) (input ++ arrived)
      let (packets, input) ← readEvents memory (n + 1) input events
      return (packet.toList ++ packets, input)

/-- The packets submitted are the packets sent, and nothing is left. -/
def Received (memory : Nat → PACKET) (packets : List PACKET) (events : List (List UInt8)) : Prop :=
  ∃ received, readEvents buffereventRead memory 0 [] events = .ok (received, []) ∧
    List.Forall₂ PACKET.Same packets received

end ReadEvents

/-- Every event finds a whole packet: after the `k`-th one, `k` packets have
arrived. -/
def Paced (buffered : Nat) (events : List (List UInt8)) : Prop :=
  ∀ k ≤ events.length, k * MAX_PACKET_SIZE ≤ buffered + (events.take k).flatten.length

theorem paced_nil (buffered : Nat) : Paced buffered [] := by
  intro k none
  obtain rfl : k = 0 := by simpa using none
  simp

theorem paced_cons {buffered : Nat} {arrived : List UInt8} {events : List (List UInt8)} :
    Paced buffered (arrived :: events) ↔
      MAX_PACKET_SIZE ≤ buffered + arrived.length ∧
        Paced (buffered + arrived.length - MAX_PACKET_SIZE) events := by
  constructor
  · intro paced
    have first := paced 1 (by simp)
    simp only [List.take_succ_cons, List.take_zero, List.flatten_cons, List.flatten_nil,
      List.append_nil, Nat.one_mul] at first
    refine ⟨first, fun k within => ?_⟩
    have next := paced (k + 1) (by simpa using within)
    simp only [List.take_succ_cons, List.flatten_cons, List.length_append, Nat.succ_mul] at next
    omega
  · rintro ⟨first, rest⟩ k within
    cases k with
    | zero => simp
    | succ k =>
        have later := rest k (by simpa using within)
        simp only [List.take_succ_cons, List.flatten_cons, List.length_append, Nat.succ_mul]
        omega

theorem length_writeCallback (packets : List PACKET) :
    (writeCallback packets).length = packets.length * MAX_PACKET_SIZE := by
  induction packets with
  | nil => simp [writeCallback]
  | cons packet packets ih =>
      have first : writeCallback (packet :: packets) =
          packet.rawNetPacket.image ++ writeCallback packets := rfl
      rw [first, List.length_append, PACKET.length_image, ih, List.length_cons, Nat.add_mul,
        Nat.one_mul, Nat.add_comm]

section Drained

variable {buffereventRead : Nat → List UInt8 → List UInt8 × List UInt8}
  (drains : Drains buffereventRead)
include drains

theorem readCallback_short (memory : PACKET) {input : List UInt8}
    (short : input.length < MAX_PACKET_SIZE) :
    readCallback buffereventRead memory input = .ok (none, []) := by
  have all : input.take MAX_PACKET_SIZE = input := List.take_of_length_le short.le
  have none : input.drop MAX_PACKET_SIZE = [] := List.drop_of_length_le short.le
  rw [readCallback, drains, all, none]
  simp only
  split
  · rfl
  · rw [if_pos (by omega)]
    rfl

theorem readCallback_whole (memory : PACKET) {input : List UInt8}
    (long : MAX_PACKET_SIZE ≤ input.length) :
    readCallback buffereventRead memory input =
      (do return (some (← PACKET.newPacket memory (PACKET.ofNet (input.take MAX_PACKET_SIZE))),
        input.drop MAX_PACKET_SIZE)) := by
  have length : (input.take MAX_PACKET_SIZE).length = MAX_PACKET_SIZE := by
    rw [List.length_take, Nat.min_eq_left long]
  rw [readCallback, drains]
  simp only
  rw [length, if_neg (by decide), if_neg (by simp)]

/-- Every packet submitted takes its bytes from the stream, and a run that wastes
none submits one packet for every event. -/
theorem readEvents_bytes {memory : Nat → PACKET} {n : Nat} {input left : List UInt8}
    {events : List (List UInt8)} {received : List PACKET}
    (arrivals : ∀ arrived ∈ events, arrived ≠ [])
    (run : readEvents buffereventRead memory n input events = .ok (received, left)) :
    received.length * MAX_PACKET_SIZE + left.length ≤ input.length + events.flatten.length ∧
      (received.length * MAX_PACKET_SIZE + left.length = input.length + events.flatten.length →
        events.length = received.length ∧ Paced input.length events) := by
  induction events generalizing n input received with
  | nil =>
      cases run
      exact ⟨by simp, fun _ => ⟨rfl, paced_nil _⟩⟩
  | cons arrived events ih =>
      have later : ∀ arrived ∈ events, arrived ≠ [] := fun a member => arrivals a (by simp [member])
      have some := List.length_pos_iff.mpr (arrivals arrived (by simp))
      have total : (arrived :: events).flatten.length = arrived.length + events.flatten.length := by
        simp
      rw [readEvents, bind_eq_ok_iff] at run
      obtain ⟨⟨packet, input'⟩, step, rest⟩ := run
      simp only [bind_eq_ok_iff] at rest
      obtain ⟨⟨packets, left'⟩, run, result⟩ := rest
      dsimp only at result
      cases result
      by_cases whole : MAX_PACKET_SIZE ≤ (input ++ arrived).length
      · rw [readCallback_whole drains _ whole, bind_eq_ok_iff] at step
        obtain ⟨copy, _, result⟩ := step
        cases result
        obtain ⟨bound, exact⟩ := ih later run
        rw [List.length_drop, List.length_append] at bound exact
        rw [List.length_append] at whole
        rw [Option.toList_some, List.length_append, List.length_singleton, total, Nat.add_mul,
          Nat.one_mul]
        refine ⟨by omega, fun same => ?_⟩
        obtain ⟨count, paced⟩ := exact (by omega)
        refine ⟨by rw [List.length_cons, count, Nat.add_comm], paced_cons.mpr ⟨whole, paced⟩⟩
      · -- a short read is lost
        rw [readCallback_short drains _ (Nat.lt_of_not_le whole)] at step
        cases step
        obtain ⟨bound, -⟩ := ih later run
        rw [Option.toList_none, List.nil_append, total]
        rw [List.length_nil] at bound
        exact ⟨by omega, fun same => absurd same (by omega)⟩

/-- A paced run submits the packets in order. -/
theorem readEvents_paced (memory : Nat → PACKET) {n : Nat} {input : List UInt8}
    {events : List (List UInt8)} {packets : List PACKET} (wf : ∀ p ∈ packets, p.WellFormed)
    (stream : input ++ events.flatten = writeCallback packets)
    (count : events.length = packets.length) (paced : Paced input.length events) :
    ∃ received, readEvents buffereventRead memory n input events = .ok (received, []) ∧
      List.Forall₂ PACKET.Same packets received := by
  induction events generalizing n input packets with
  | nil =>
      obtain rfl : packets = [] := List.length_eq_zero_iff.mp count.symm
      obtain rfl : input = [] := by simpa [writeCallback] using stream
      exact ⟨[], rfl, List.Forall₂.nil⟩
  | cons arrived events ih =>
      cases packets with
      | nil => simp at count
      | cons packet packets =>
          obtain ⟨whole, rest⟩ := paced_cons.mp paced
          have split : (input ++ arrived) ++ events.flatten =
              packet.rawNetPacket.image ++ writeCallback packets := by
            rw [List.append_assoc]
            exact stream
          have length := packet.rawNetPacket.length_image
          have front : (input ++ arrived).take MAX_PACKET_SIZE = packet.rawNetPacket.image := by
            have taken := congrArg (List.take MAX_PACKET_SIZE) split
            rwa [List.take_append_of_le_length (by rw [List.length_append]; exact whole),
              List.take_left' length] at taken
          have back : (input ++ arrived).drop MAX_PACKET_SIZE ++ events.flatten =
              writeCallback packets := by
            have dropped := congrArg (List.drop MAX_PACKET_SIZE) split
            rwa [List.drop_append_of_le_length (by rw [List.length_append]; exact whole),
              List.drop_left' length] at dropped
          have decoded : PACKET.ofNet packet.rawNetPacket.image = packet := by
            rw [PACKET.ofNet, PACKET.ofImage_image]
            simp only [PACKET.rawNetPacket, HEADER.swap_swap]
          obtain ⟨copy, copied, same⟩ := PACKET.newPacket_ok (memory n) (wf packet (by simp))
          have step : readCallback buffereventRead (memory n) (input ++ arrived) =
              .ok (some copy, (input ++ arrived).drop MAX_PACKET_SIZE) := by
            rw [readCallback_whole drains _ (by rw [List.length_append]; exact whole), front, decoded,
              copied]
            rfl
          have buffered : ((input ++ arrived).drop MAX_PACKET_SIZE).length =
              input.length + arrived.length - MAX_PACKET_SIZE := by
            rw [List.length_drop, List.length_append]
          obtain ⟨received, run, related⟩ := ih (n := n + 1) (fun p member => wf p (by simp [member]))
            back (by simpa using count) (by rwa [buffered])
          refine ⟨copy :: received, ?_, List.Forall₂.cons same related⟩
          rw [readEvents, step]
          show (readEvents buffereventRead memory (n + 1) _ events >>= _) = _
          rw [run]
          rfl

/-- Packets that survive the stream have come in one whole packet ahead of every
event. -/
theorem Received.paced {memory : Nat → PACKET} {packets : List PACKET} {events : List (List UInt8)}
    (arrivals : ∀ arrived ∈ events, arrived ≠ []) (stream : events.flatten = writeCallback packets)
    (survived : Received buffereventRead memory packets events) :
    events.length = packets.length ∧ Paced 0 events := by
  obtain ⟨received, run, same⟩ := survived
  have count := same.length_eq
  obtain ⟨-, exact⟩ := readEvents_bytes drains arrivals run
  rw [stream, length_writeCallback, count] at exact
  obtain ⟨events_count, paced⟩ := exact (by simp)
  exact ⟨events_count.trans count.symm, paced⟩

/-- The packets survive the stream exactly when the transport delivers one whole
packet ahead of every event, in as many events as packets. -/
theorem received_iff (memory : Nat → PACKET) (packets : List PACKET)
    (wf : ∀ p ∈ packets, p.WellFormed) (events : List (List UInt8))
    (arrivals : ∀ arrived ∈ events, arrived ≠ []) (stream : events.flatten = writeCallback packets) :
    Received buffereventRead memory packets events ↔
      events.length = packets.length ∧
        ∀ k ≤ events.length, k * MAX_PACKET_SIZE ≤ (events.take k).flatten.length := by
  have pacedIff : Paced 0 events ↔
      ∀ k ≤ events.length, k * MAX_PACKET_SIZE ≤ (events.take k).flatten.length := by
    unfold Paced
    simp only [Nat.zero_add]
  rw [← pacedIff]
  constructor
  · exact Received.paced drains arrivals stream
  · rintro ⟨count, paced⟩
    exact readEvents_paced drains memory wf (by simpa using stream) count paced

end Drained

/-- A `NewSession` packet over zeroed memory. -/
def newSessionPacket : PACKET where
  header :=
    { size := 0, type := RtmpType.NewSession.code, reserved := 0, MP := 0, seq := 0,
      timestamp := 0, app := Vector.replicate 64 0 }
  body := Vector.replicate 1400 0

theorem newSessionPacket_wellFormed : newSessionPacket.WellFormed := by
  refine ⟨?_, ?_⟩
  · simp [newSessionPacket]
  · decide

/-- A part of a frame of 1500 bytes. -/
def pushPart (MP : Int32) (seq : UInt32) : PACKET where
  header :=
    { size := 1500, type := RtmpType.Push.code, reserved := 0, MP, seq, timestamp := 40,
      app := Vector.ofFn fun i => if i.val < 4 then 97 else 0 }
  body := Vector.ofFn fun i => UInt8.ofNat (seq.toNat + i)

theorem pushPart_wellFormed {MP : Int32} {seq : UInt32}
    (fits : (BODY_SIZE MP 1500 seq).toNat ≤ MAX_BODY_SIZE) : (pushPart MP seq).WellFormed := by
  refine ⟨?_, fits⟩
  rw [Vector.mem_toList_iff, pushPart, Vector.mem_ofFn]
  exact ⟨⟨63, by omega⟩, rfl⟩

theorem length_pos_of_eq {bytes : List UInt8} {count : Nat} (length : bytes.length = count + 1) :
    bytes ≠ [] := by
  rintro rfl
  cases length

/-- A buffer as a list of bytes. -/
def drain (size : Nat) (input : List UInt8) : List UInt8 × List UInt8 :=
  (input.take size, input.drop size)

/-- A frame in two parts and a session, in three events that each end inside a
packet or behind it. -/
theorem received_unequal :
    let first := (pushPart 1 0).rawNetPacket.image
    let second := (pushPart 0 1400).rawNetPacket.image
    let third := newSessionPacket.rawNetPacket.image
    Received drain (fun _ => newSessionPacket) [pushPart 1 0, pushPart 0 1400, newSessionPacket]
      [first ++ second.take 10, second.drop 10 ++ third.take 700, third.drop 700] := by
  intro first second third
  have length₁ : first.length = MAX_PACKET_SIZE := PACKET.length_image _
  have length₂ : second.length = MAX_PACKET_SIZE := PACKET.length_image _
  have length₃ : third.length = MAX_PACKET_SIZE := PACKET.length_image _
  have event₁ : (first ++ second.take 10).length = 1502 := by
    rw [List.length_append, List.length_take, length₁, length₂]
    rfl
  have event₂ : (second.drop 10 ++ third.take 700).length = 2182 := by
    rw [List.length_append, List.length_drop, List.length_take, length₂, length₃]
    rfl
  have event₃ : (third.drop 700).length = 792 := by
    rw [List.length_drop, length₃]
    rfl
  refine (received_iff (fun _ _ => rfl) _ _ ?_ _ ?_ ?_).mpr ⟨by simp only [List.length_cons, List.length_nil], ?_⟩
  · simp only [List.forall_mem_cons]
    exact ⟨pushPart_wellFormed (by decide), pushPart_wellFormed (by decide),
      newSessionPacket_wellFormed, fun p none => absurd none List.not_mem_nil⟩
  · simp only [List.forall_mem_cons]
    exact ⟨length_pos_of_eq event₁, length_pos_of_eq event₂, length_pos_of_eq event₃, by simp⟩
  · have sent : writeCallback [pushPart 1 0, pushPart 0 1400, newSessionPacket] =
        first ++ (second ++ third) := by
      simp only [writeCallback, List.flatMap_cons, List.flatMap_nil, List.append_nil, first, second,
        third]
    rw [sent]
    simp only [List.flatten_cons, List.flatten_nil, List.append_nil, List.append_assoc]
    rw [List.take_append_drop, ← List.append_assoc (second.take 10), List.take_append_drop]
  · intro k within
    match k, within with
    | 0, _ => simp
    | 1, _ =>
        rw [List.take_succ_cons, List.take_zero, List.flatten_cons, List.flatten_nil,
          List.append_nil, event₁]
        decide
    | 2, _ =>
        rw [List.take_succ_cons, List.take_succ_cons, List.take_zero, List.flatten_cons,
          List.flatten_cons, List.flatten_nil, List.append_nil, List.length_append, event₁, event₂]
        decide
    | 3, _ =>
        rw [List.take_of_length_le (by simp), List.flatten_cons, List.flatten_cons,
          List.flatten_cons, List.flatten_nil, List.append_nil, List.length_append, event₁,
          List.length_append, event₂, event₃]
        decide
    | k + 4, many => simp at many

/-- A packet that arrives in two parts is lost, and so is the second one of two
packets that arrive at once. -/
theorem segmentation_loses_packets :
    ¬ Received drain (fun _ => newSessionPacket) [newSessionPacket]
        [newSessionPacket.rawNetPacket.image.take 1, newSessionPacket.rawNetPacket.image.drop 1] ∧
      ¬ Received drain (fun _ => newSessionPacket) [newSessionPacket, newSessionPacket]
        [newSessionPacket.rawNetPacket.image ++ newSessionPacket.rawNetPacket.image] := by
  have length := newSessionPacket.rawNetPacket.length_image
  constructor
  · intro survived
    refine absurd (survived.paced (fun _ _ => rfl) ?_ ?_).1 (by simp)
    · rintro arrived member rfl
      have lengths : 0 = min 1 MAX_PACKET_SIZE ∨ 0 = MAX_PACKET_SIZE - 1 := by
        rcases List.mem_pair.mp member with first | second
        · left
          have size := congrArg List.length first
          rwa [List.length_take, length] at size
        · right
          have size := congrArg List.length second
          rwa [List.length_drop, length] at size
      exact absurd lengths (by decide)
    · rw [List.flatten_cons, List.flatten_cons, List.flatten_nil, List.append_nil,
        List.take_append_drop]
      simp [writeCallback]
  · intro survived
    refine absurd (survived.paced (fun _ _ => rfl) ?_ ?_).1 (by simp)
    · rintro arrived member rfl
      have lengths := congrArg List.length (List.mem_singleton.mp member)
      rw [List.length_append, length] at lengths
      exact absurd lengths (by decide)
    · simp [writeCallback]

end Vtm.Player
