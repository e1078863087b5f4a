import Vtm.Common.BitStream
import Vtm.Std.Bytes

/-!
# Packets of the player

`HEADER` and `PACKET` as they lie in memory, the change to network order, and
the constructors of `Packet`. A constructed packet keeps what its memory held
wherever the constructor does not write.
-/

namespace Vtm.Player

open Vtm.Std

def MAX_BODY_SIZE : Nat := 1400

/-- `sizeof(HEADER)`, which is packed. -/
def HEADER_SIZE : Nat := 92

def MAX_PACKET_SIZE : Nat := MAX_BODY_SIZE + HEADER_SIZE

inductive RtmpType where
  | CreateStream
  | Push
  | Pull
  | Ack
  | Fin
  | Err
  | OnlineSessions
  | NewSession
  | LostSession
  | BuildConnect
  | Accept
  | Refuse
deriving DecidableEq, Repr

/-- The value of a packet type. -/
def RtmpType.code : RtmpType → Int32
  | .CreateStream => 0
  | .Push => 1
  | .Pull => 2
  | .Ack => 3
  | .Fin => 4
  | .Err => 5
  | .OnlineSessions => 6
  | .NewSession => 7
  | .LostSession => 8
  | .BuildConnect => 9
  | .Accept => 10
  | .Refuse => 11

@[ext] structure HEADER where
  size : UInt32
  type : Int32
  reserved : Int32
  MP : Int32
  seq : UInt32
  timestamp : UInt64
  app : Vector UInt8 64

@[ext] structure PACKET where
  header : HEADER
  body : Vector UInt8 1400

/-- `htonl` and `ntohl` on a little-endian host. -/
def htonl (value : UInt32) : UInt32 := UInt32.ofNat (swapBytes 4 value.toNat)

/-- `htonll` and `ntohll` on a little-endian host. -/
def htonll (value : UInt64) : UInt64 := UInt64.ofNat (swapBytes 8 value.toNat)

theorem htonl_htonl (value : UInt32) : htonl (htonl value) = value := by
  have fits : value.toNat < 256 ^ 4 := value.toNat_lt
  have swapped : (UInt32.ofNat (swapBytes 4 value.toNat)).toNat = swapBytes 4 value.toNat := by
    rw [UInt32.toNat_ofNat']
    exact Nat.mod_eq_of_lt (swapBytes_lt 4 value.toNat)
  rw [htonl, htonl, swapped, swapBytes_swapBytes fits, UInt32.ofNat_toNat]

theorem htonll_htonll (value : UInt64) : htonll (htonll value) = value := by
  have fits : value.toNat < 256 ^ 8 := value.toNat_lt
  have swapped : (UInt64.ofNat (swapBytes 8 value.toNat)).toNat = swapBytes 8 value.toNat := by
    rw [UInt64.toNat_ofNat']
    exact Nat.mod_eq_of_lt (swapBytes_lt 8 value.toNat)
  rw [htonll, htonll, swapped, swapBytes_swapBytes fits, UInt64.ofNat_toNat]

def BODY_SIZE (MP : Int32) (size seq : UInt32) : UInt32 :=
  if MP ≠ 0 then UInt32.ofNat MAX_BODY_SIZE else size - seq

namespace HEADER

/-- The conversion of every number in a header. -/
def swap (h : HEADER) : HEADER where
  size := htonl h.size
  type := (htonl h.type.toUInt32).toInt32
  reserved := (htonl h.reserved.toUInt32).toInt32
  MP := (htonl h.MP.toUInt32).toInt32
  seq := htonl h.seq
  timestamp := htonll h.timestamp
  app := h.app

theorem swap_swap (h : HEADER) : h.swap.swap = h := by
  have signed (value : Int32) :
      (htonl (htonl value.toUInt32).toInt32.toUInt32).toInt32 = value := by
    rw [UInt32.toUInt32_toInt32, htonl_htonl, Int32.toInt32_toUInt32]
  ext1 <;> simp only [swap, htonl_htonl, htonll_htonll, signed]

/-- `BODY_SIZE_H`. -/
def bodySize (h : HEADER) : UInt32 := BODY_SIZE h.MP h.size h.seq

end HEADER

namespace PACKET

/-- `Packet::raw_net_packet`. -/
def rawNetPacket (p : PACKET) : PACKET := ⟨p.header.swap, p.body⟩

/-- The bytes of a packet in memory. -/
def image (p : PACKET) : List UInt8 :=
  wordBytes 4 p.header.size.toNat ++ wordBytes 4 p.header.type.toUInt32.toNat ++
    wordBytes 4 p.header.reserved.toUInt32.toNat ++ wordBytes 4 p.header.MP.toUInt32.toNat ++
    wordBytes 4 p.header.seq.toNat ++ wordBytes 8 p.header.timestamp.toNat ++
    p.header.app.toList ++ p.body.toList

/-- The word at an offset of a buffer. -/
def wordAt (buffer : List UInt8) (offset count : Nat) : Nat :=
  wordValue ((buffer.drop offset).take count)

/-- `memcpy` from a buffer over a whole packet. -/
def ofImage (buffer : List UInt8) : PACKET where
  header :=
    { size := UInt32.ofNat (wordAt buffer 0 4)
      type := (UInt32.ofNat (wordAt buffer 4 4)).toInt32
      reserved := (UInt32.ofNat (wordAt buffer 8 4)).toInt32
      MP := (UInt32.ofNat (wordAt buffer 12 4)).toInt32
      seq := UInt32.ofNat (wordAt buffer 16 4)
      timestamp := UInt64.ofNat (wordAt buffer 20 8)
      app := Vector.ofFn fun i => buffer.getD (28 + i) 0 }
  body := Vector.ofFn fun i => buffer.getD (92 + i) 0

/-- `Packet::Packet( char *rawNetPacket )`. -/
def ofNet (rawNetPacket : List UInt8) : PACKET :=
  let p := ofImage rawNetPacket
  ⟨p.header.swap, p.body⟩

/-- `Packet::app`: the characters before the terminator. -/
def app (p : PACKET) : List UInt8 := p.header.app.toList.takeWhile (· ≠ 0)

/-- `Packet::body_size`. -/
def bodySize (p : PACKET) : Nat := p.header.bodySize.toNat

/-- The bytes of `Packet::body` that belong to the packet. -/
def payload (p : PACKET) : List UInt8 := p.body.toList.take p.bodySize

@[simp] theorem length_image (p : PACKET) : p.image.length = MAX_PACKET_SIZE := by
  simp [image, MAX_PACKET_SIZE, MAX_BODY_SIZE, HEADER_SIZE]

theorem wordAt_skip {front rest : List UInt8} {offset count : Nat}
    (behind : front.length ≤ offset) :
    wordAt (front ++ rest) offset count = wordAt rest (offset - front.length) count := by
  rw [wordAt, List.drop_append, List.drop_of_length_le behind, List.nil_append, wordAt]

theorem wordAt_word {count value : Nat} (fits : value < 256 ^ count) (rest : List UInt8) :
    wordAt (wordBytes count value ++ rest) 0 count = value := by
  have front : (wordBytes count value ++ rest).take count = wordBytes count value := by
    rw [List.take_append_of_le_length (by simp), List.take_of_length_le (by simp)]
  rw [wordAt, List.drop_zero, front, wordValue_wordBytes fits]

theorem wordAt_UInt32 (value : UInt32) (rest : List UInt8) :
    UInt32.ofNat (wordAt (wordBytes 4 value.toNat ++ rest) 0 4) = value := by
  rw [wordAt_word value.toNat_lt, UInt32.ofNat_toNat]

theorem wordAt_UInt64 (value : UInt64) (rest : List UInt8) :
    UInt64.ofNat (wordAt (wordBytes 8 value.toNat ++ rest) 0 8) = value := by
  rw [wordAt_word value.toNat_lt, UInt64.ofNat_toNat]

theorem getD_skip {front rest : List UInt8} {offset i : Nat} (behind : front.length ≤ offset) :
    (front ++ rest).getD (offset + i) 0 = rest.getD (offset - front.length + i) 0 := by
  rw [List.getD_eq_getElem?_getD, List.getD_eq_getElem?_getD,
    List.getElem?_append_right (by omega)]
  exact congrArg (fun index => (rest[index]?).getD 0) (by omega)

/-- A packet copied out of memory is the packet that was copied in. -/
theorem ofImage_image (p : PACKET) : ofImage p.image = p := by
  obtain ⟨⟨size, type, reserved, MP, seq, timestamp, app⟩, body⟩ := p
  simp (disch := simp) only [ofImage, image, List.append_assoc, wordAt_skip, getD_skip,
    length_wordBytes, Vector.length_toList, Nat.reduceSub, wordAt_UInt32, wordAt_UInt64,
    Int32.toInt32_toUInt32, Nat.zero_add]
  have app_same : (Vector.ofFn fun i : Fin 64 => (app.toList ++ body.toList).getD i 0) = app := by
    ext i inside
    simp [List.getElem?_append]
  have body_same : (Vector.ofFn fun i : Fin 1400 => body.toList.getD i 0) = body := by
    ext i inside
    simp
  rw [app_same, body_same]

/-- Writing bytes over the front of an array. -/
def overwrite {n : Nat} (memory : Vector UInt8 n) (bytes : List UInt8) : Vector UInt8 n :=
  Vector.ofFn fun i => bytes.getD i memory[i]

/-- The bytes that `memcpy` copies into the body; a negative size is out of range
of any buffer. -/
def copyBody (memory : Vector UInt8 1400) (bodySize : Int32) :
    Option (List UInt8) → Checked (Vector UInt8 1400)
  | none => return memory
  | some body => do
      CHECK (bodySize < 0 ∨ body.length < bodySize.toInt.toNat) "memcpy out of range"
      return overwrite memory (body.take bodySize.toInt.toNat)

/-- `Packet::Packet( size, type, reserved, MP, seq, timestamp, app, body )` over
uninitialized memory. -/
def make (memory : PACKET) (size : UInt32) (type reserved MP : Int32) (seq : UInt32)
    (timestamp : UInt64) (app : List UInt8) (body : Option (List UInt8)) : Checked PACKET := do
  CHECK (64 ≤ app.length) "strcpy_s: buffer is too small"
  let header : HEADER :=
    { size, type, reserved, MP, seq, timestamp, app := overwrite memory.header.app (app ++ [0]) }
  let bodySize := header.bodySize.toInt32
  CHECK (¬ bodySize ≤ 1400) "bodySize <= MAX_BODY_SIZE"
  return ⟨header, ← copyBody memory.body bodySize body⟩

/-- `PacketUtils::new_packet`. -/
def newPacket (memory packet : PACKET) : Checked PACKET :=
  make memory packet.header.size packet.header.type packet.header.reserved packet.header.MP
    packet.header.seq packet.header.timestamp packet.app (some packet.body.toList)

/-- A packet whose name is terminated and whose body fits. -/
structure WellFormed (p : PACKET) : Prop where
  terminated : 0 ∈ p.header.app.toList
  fits : p.bodySize ≤ MAX_BODY_SIZE

/-- Two packets that no accessor tells apart. -/
structure Same (p q : PACKET) : Prop where
  size : p.header.size = q.header.size
  type : p.header.type = q.header.type
  reserved : p.header.reserved = q.header.reserved
  MP : p.header.MP = q.header.MP
  seq : p.header.seq = q.header.seq
  timestamp : p.header.timestamp = q.header.timestamp
  app : p.app = q.app
  payload : p.payload = q.payload

theorem toList_overwrite {n : Nat} (memory : Vector UInt8 n) {bytes : List UInt8}
    (fits : bytes.length ≤ n) :
    (overwrite memory bytes).toList = bytes ++ memory.toList.drop bytes.length := by
  apply List.ext_getElem
  · simp only [Vector.length_toList, List.length_append, List.length_drop]
    omega
  · intro i inside _
    simp only [Vector.length_toList] at inside
    by_cases written : i < bytes.length
    · simp [overwrite, written]
    · rw [List.getElem_append_right (by omega)]
      simp [overwrite, written, Nat.add_sub_cancel' (Nat.le_of_not_lt written)]

attribute [irreducible] overwrite

theorem app_overwrite {memory : Vector UInt8 64} {app : List UInt8} (short : app.length < 64)
    (text : ∀ c ∈ app, c ≠ 0) :
    (overwrite memory (app ++ [0])).toList.takeWhile (· ≠ 0) = app := by
  rw [toList_overwrite memory (by simp; omega), List.append_assoc,
    List.takeWhile_append_of_pos (by simpa using text)]
  simp

theorem toInt32_of_le {value : UInt32} (fits : value.toNat ≤ MAX_BODY_SIZE) :
    value.toInt32.toInt = value.toNat := by
  unfold MAX_BODY_SIZE at fits
  have small : 2 * value.toBitVec.toNat < 2 ^ 32 := by
    rw [UInt32.toNat_toBitVec]
    omega
  exact BitVec.toInt_eq_toNat_of_lt small

/-- A positive signed size is the unsigned one. -/
theorem le_of_toInt32 {value : UInt32} (least : ¬ value.toInt32 < 0)
    (most : value.toInt32 ≤ 1400) : value.toNat ≤ MAX_BODY_SIZE := by
  rw [Int32.lt_iff_toInt_lt] at least
  rw [Int32.le_iff_toInt_le] at most
  have unsigned : value.toInt32.toInt =
      if 2 * value.toNat < 2 ^ 32 then (value.toNat : Int) else value.toNat - (2 ^ 32 : Nat) :=
    BitVec.toInt_eq_toNat_cond _
  have small : (1400 : Int32).toInt = 1400 := rfl
  have none : (0 : Int32).toInt = 0 := rfl
  have word := value.toNat_lt
  unfold MAX_BODY_SIZE
  split at unsigned <;> omega

theorem app_ne_zero {p : PACKET} {c : UInt8} (member : c ∈ p.app) : c ≠ 0 := by
  have all := List.all_takeWhile (p := fun c : UInt8 => decide (c ≠ 0)) (l := p.header.app.toList)
  rw [List.all_eq_true] at all
  exact of_decide_eq_true (all c member)

theorem WellFormed.app_short {p : PACKET} (wf : p.WellFormed) : p.app.length < 64 := by
  by_contra long
  have whole : p.app = p.header.app.toList := by
    refine (List.takeWhile_prefix _).eq_of_length_le ?_
    rw [Vector.length_toList]
    exact Nat.le_of_not_lt long
  have member : 0 ∈ p.app := by
    rw [whole]
    exact wf.terminated
  exact app_ne_zero member rfl

section Make

variable {memory p : PACKET} {size : UInt32} {type reserved MP : Int32} {seq : UInt32}
  {timestamp : UInt64} {app : List UInt8}

theorem make_ok_iff {body : List UInt8} :
    make memory size type reserved MP seq timestamp app (some body) = .ok p ↔
      ¬ 64 ≤ app.length ∧ ¬ ¬ (BODY_SIZE MP size seq).toInt32 ≤ 1400 ∧
        ¬ ((BODY_SIZE MP size seq).toInt32 < 0 ∨
          body.length < (BODY_SIZE MP size seq).toInt32.toInt.toNat) ∧
        p = ⟨⟨size, type, reserved, MP, seq, timestamp,
            overwrite memory.header.app (app ++ [0])⟩,
          overwrite memory.body (body.take (BODY_SIZE MP size seq).toInt32.toInt.toNat)⟩ := by
  rw [make, CHECK_bind_eq_ok_iff, CHECK_bind_eq_ok_iff, copyBody, bind_eq_ok_iff]
  simp only [CHECK_bind_eq_ok_iff]
  constructor
  · rintro ⟨short, most, _, ⟨range, built⟩, made⟩
    cases built
    cases made
    exact ⟨short, most, range, rfl⟩
  · rintro ⟨short, most, range, rfl⟩
    exact ⟨short, most, _, ⟨range, rfl⟩, rfl⟩

/-- The constructor succeeds for a name and a body that fit, and the accessors
give its arguments back. -/
theorem make_ok (memory : PACKET) (type reserved : Int32) (timestamp : UInt64) (body : List UInt8)
    (short : app.length < 64) (text : ∀ c ∈ app, c ≠ 0)
    (fits : (BODY_SIZE MP size seq).toNat ≤ MAX_BODY_SIZE)
    (within : (BODY_SIZE MP size seq).toNat ≤ body.length) :
    ∃ p name, make memory size type reserved MP seq timestamp app (some body) = .ok p ∧
      p.header = ⟨size, type, reserved, MP, seq, timestamp, name⟩ ∧ p.app = app ∧
      p.payload = body.take (BODY_SIZE MP size seq).toNat := by
  have signed := toInt32_of_le fits
  have most : (BODY_SIZE MP size seq).toInt32 ≤ 1400 := by
    rw [Int32.le_iff_toInt_le, signed]
    exact Int.ofNat_le.mpr fits
  have least : ¬ (BODY_SIZE MP size seq).toInt32 < 0 := by
    rw [Int32.lt_iff_toInt_lt, signed]
    exact Int.not_lt.mpr (Int.natCast_nonneg _)
  have enough : ¬ body.length < (BODY_SIZE MP size seq).toInt32.toInt.toNat := by
    rw [signed]
    exact Nat.not_lt.mpr within
  refine ⟨_, _, make_ok_iff.mpr ⟨Nat.not_le.mpr short, not_not.mpr most,
    not_or.mpr ⟨least, enough⟩, rfl⟩, rfl, app_overwrite short text, ?_⟩
  rw [signed, Int.toNat_natCast]
  have length : (body.take (BODY_SIZE MP size seq).toNat).length =
      (BODY_SIZE MP size seq).toNat := by
    rw [List.length_take]
    exact Nat.min_eq_left within
  have written := toList_overwrite memory.body
    (length.trans_le fits : (body.take (BODY_SIZE MP size seq).toNat).length ≤ 1400)
  show (overwrite memory.body (body.take (BODY_SIZE MP size seq).toNat)).toList.take
    (BODY_SIZE MP size seq).toNat = _
  rw [written, List.take_append_of_le_length length.ge, List.take_take, Nat.min_self]

end Make

/-- A well formed packet is copied, up to memory that no accessor reads. -/
theorem newPacket_ok (memory : PACKET) {p : PACKET} (wf : p.WellFormed) :
    ∃ copy, newPacket memory p = .ok copy ∧ Same p copy := by
  have within : (BODY_SIZE p.header.MP p.header.size p.header.seq).toNat ≤ p.body.toList.length := by
    rw [Vector.length_toList]
    exact wf.fits
  obtain ⟨copy, name, run, header, app, payload⟩ := make_ok memory p.header.type p.header.reserved
    p.header.timestamp p.body.toList wf.app_short (fun c member => app_ne_zero member) wf.fits within
  refine ⟨copy, run, ?_⟩
  constructor
  · rw [header]
  · rw [header]
  · rw [header]
  · rw [header]
  · rw [header]
  · rw [header]
  · exact app.symm
  · exact payload.symm

/-- Whatever the copy constructor builds is well formed. -/
theorem newPacket_wellFormed {memory p copy : PACKET} (run : newPacket memory p = .ok copy) :
    copy.WellFormed := by
  obtain ⟨short, most, range, rfl⟩ := make_ok_iff.mp run
  refine ⟨?_, le_of_toInt32 (not_or.mp range).1 (not_not.mp most)⟩
  rw [toList_overwrite _ (by simp; omega)]
  simp

end PACKET

/-- What the accessors of a packet give. -/
@[ext] structure Packet where
  size : Nat
  type : Int32
  MP : Bool
  seq : Nat
  timestamp : Nat
  body : List UInt8
deriving DecidableEq

end Vtm.Player
