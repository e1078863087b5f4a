import Mathlib.Data.UInt
import Vtm.Player.Frames
import Vtm.Std.Cover
import Mathlib.Data.List.TakeWhile
import Mathlib.Order.Interval.Finset.Nat

/-!
# Reassembly of received packets

The loop of `get_next_nalu` over packets with any header, with the bytes that its `memcpy`
takes. `INVALID_PACK` is applied nowhere, so what keeps the loop inside its buffer is what
the packets themselves say: `combines_safe_iff`.
-/

namespace Vtm.Player

open Vtm.Std

/-- A packet in the queue of a window: `ReadCallback` and `SubmitWork` have built and copied
it, and `MyWorkCallback` has copied it once more. -/
def Queued (p : PACKET) : Prop :=
  ∃ memory memory' buf packet, PACKET.newPacket memory (PACKET.ofNet buf) = .ok packet ∧
    PACKET.newPacket memory' packet = .ok p

/-- The bytes of a frame that a packet is copied to. -/
def PACKET.span (p : PACKET) : Finset Nat :=
  Finset.Ico p.header.seq.toNat (p.header.seq.toNat + p.bodySize)

/-- The locals of `get_next_nalu`. `data` says that there is a buffer, and `written` has the
packets that have been copied to it. -/
structure Combining where
  timestamp : UInt64
  size : UInt32
  data : Bool
  totalSize : UInt32
  written : List PACKET

namespace Combining

/-- In front of the loop. -/
def zero : Combining := ⟨0, 0, false, 0, []⟩

/-- The start of a frame at its first packet. There is no buffer of a size that is negative
as an `int32_t`. -/
def first (st : Combining) (p : PACKET) : Combining :=
  if p.header.seq = 0 then
    ⟨p.header.timestamp, p.header.size, p.header.size < 2 ^ 31, 0, []⟩
  else st

/-- The body of the loop for a packet that is not `Fin`. -/
@[grind =] def take (st : Combining) (p : PACKET) : Combining :=
  let st := st.first p
  if st.timestamp = p.header.timestamp then
    { st with totalSize := st.totalSize + p.header.bodySize, written := st.written ++ [p] }
  else st

end Combining

/-- The states of a call of `get_next_nalu` behind the packets it has taken, the last one
included with which it leaves the loop. -/
inductive Combines : List PACKET → Combining → Prop
  | start : Combines [] .zero
  | next {taken : List PACKET} {st : Combining} {p : PACKET} (before : Combines taken st)
      (goesOn : taken = [] ∨ st.totalSize ≠ st.size)
      (notFin : p.header.type ≠ RtmpType.Fin.code) : Combines (taken ++ [p]) (st.take p)

/-- What is promised of a packet that the loop has taken: its bytes go into the buffer of a
frame whose first packet has come, no more than a body has are taken, and a frame that is
returned has all its bytes from packets of its time. -/
structure SafeTake (taken : List PACKET) (p : PACKET) (st : Combining) : Prop where
  inside : st.timestamp = p.header.timestamp → 0 < p.bodySize →
    st.data = true ∧ p.header.seq.toNat + p.bodySize ≤ st.size.toNat
  began : st.timestamp = p.header.timestamp → 0 < p.bodySize →
    ∃ first ∈ taken ++ [p], first.header.seq = 0 ∧ first.header.timestamp = p.header.timestamp
  body : p.bodySize ≤ MAX_BODY_SIZE
  whole : st.totalSize = st.size → ∀ i < st.size.toNat,
    ∃ q ∈ st.written, q.header.timestamp = st.timestamp ∧ i ∈ q.span

/-! ## The frame that packets belong to -/

/-- The last first packet. -/
def frameOf (taken : List PACKET) : Option PACKET :=
  taken.reverse.find? fun p => p.header.seq = 0

/-- The time of the frame; in front of every first packet it is 0. -/
@[grind =] def frameTime (taken : List PACKET) : UInt64 := (frameOf taken).elim 0 (·.header.timestamp)

/-- The size of the frame. -/
@[grind =] def announcedSize (taken : List PACKET) : UInt32 := (frameOf taken).elim 0 (·.header.size)

/-- The packets of the frame, its first one and the packets of its time behind it. -/
def fragments (taken : List PACKET) : List PACKET :=
  ((frameOf taken).toList ++ (taken.reverse.takeWhile fun p => p.header.seq ≠ 0).reverse).filter
    fun p => p.header.timestamp = frameTime taken

/-- The bytes that the packets of the frame have. -/
def fragmentsSize (taken : List PACKET) : Nat := ((fragments taken).map PACKET.bodySize).sum

/-- The sizes of the packets of a frame add up to its size, in a 32-bit counter. -/
def AddsUp (taken : List PACKET) : Prop :=
  fragmentsSize taken % 2 ^ 32 = (announcedSize taken).toNat

instance (taken : List PACKET) : Decidable (AddsUp taken) := inferInstanceAs (Decidable (_ = _))

/-- The loop comes to a packet: no `Fin` is among those in front, and no frame has been
returned. -/
def ComesTo (taken : List PACKET) (p : PACKET) : Prop :=
  (∀ q ∈ taken ++ [p], q.header.type ≠ RtmpType.Fin.code) ∧
    ∀ front, front <+: taken → front ≠ [] → ¬ AddsUp front

/-- A packet of the frame fits into it. -/
def Fits (taken : List PACKET) (p : PACKET) : Prop :=
  p.header.timestamp = frameTime (taken ++ [p]) → 0 < p.bodySize →
    ∃ first, frameOf (taken ++ [p]) = some first ∧ first.header.size < 2 ^ 31 ∧
      p.header.seq.toNat + p.bodySize ≤ first.header.size.toNat

/-- When the sizes add up, no two packets of the frame overlap, or the counter has wrapped
around and they cover the frame nevertheless. -/
def Tiles (taken : List PACKET) : Prop :=
  AddsUp taken →
    (fragmentsSize taken = (announcedSize taken).toNat ∧
        (fragments taken).Pairwise fun p q => Disjoint p.span q.span) ∨
      (announcedSize taken).toNat < fragmentsSize taken ∧
        ∀ i < (announcedSize taken).toNat, ∃ q ∈ fragments taken, i ∈ q.span

section Frames

variable (taken : List PACKET) (p : PACKET)

theorem frameOf_concat :
    frameOf (taken ++ [p]) = if p.header.seq = 0 then some p else frameOf taken := by
  rw [frameOf, List.reverse_append, List.reverse_singleton, List.singleton_append,
    List.find?_cons]
  by_cases begins : p.header.seq = 0
  · simp [begins]
  · simp [begins, frameOf]

theorem fragments_concat :
    fragments (taken ++ [p]) =
      if p.header.seq = 0 then [p]
      else if p.header.timestamp = frameTime taken then fragments taken ++ [p]
      else fragments taken := by
  rw [fragments, frameTime, frameOf_concat, List.reverse_append, List.reverse_singleton,
    List.singleton_append, List.takeWhile_cons]
  by_cases begins : p.header.seq = 0
  · simp [begins]
  · simp only [begins, if_false, ne_eq, not_false_eq_true, decide_true, if_true,
      List.reverse_cons, ← List.append_assoc, List.filter_append]
    rw [← List.filter_append]
    change fragments taken ++ _ = _
    by_cases timely : p.header.timestamp = frameTime taken
    · rw [if_pos timely]
      simp [frameTime] at timely
      simp [timely]
    · rw [if_neg timely]
      simp [frameTime] at timely
      simp [timely]

/-- The locals, by the packets taken. -/
@[grind =] def stateOf : Combining where
  timestamp := frameTime taken
  size := announcedSize taken
  data := (frameOf taken).any (·.header.size < 2 ^ 31)
  totalSize := UInt32.ofNat (fragmentsSize taken)
  written := fragments taken

theorem take_stateOf : (stateOf taken).take p = stateOf (taken ++ [p]) := by
  have bytes : UInt32.ofNat p.bodySize = p.header.bodySize := UInt32.ofNat_toNat
  by_cases begins : p.header.seq = 0
  · simp [Combining.take, Combining.first, stateOf, frameTime, announcedSize, fragmentsSize,
      frameOf_concat, fragments_concat, begins, bytes]
  have frame : frameOf (taken ++ [p]) = frameOf taken := by
    rw [frameOf_concat, if_neg begins]
  have time : frameTime (taken ++ [p]) = frameTime taken := by
    rw [frameTime, frame, frameTime]
  have size : announcedSize (taken ++ [p]) = announcedSize taken := by
    rw [announcedSize, frame, announcedSize]
  rw [Combining.take, Combining.first, if_neg begins]
  by_cases timely : p.header.timestamp = frameTime taken
  · have written : fragments (taken ++ [p]) = fragments taken ++ [p] := by
      rw [fragments_concat, if_neg begins, if_pos timely]
    have total : UInt32.ofNat (fragmentsSize (taken ++ [p])) =
        UInt32.ofNat (fragmentsSize taken) + p.header.bodySize := by
      rw [fragmentsSize, written, List.map_append, List.sum_append, List.map_singleton,
        List.sum_singleton, UInt32.ofNat_add, bytes]
      rfl
    rw [if_pos (show (stateOf taken).timestamp = _ from timely.symm)]
    simp only [stateOf, frame, time, size, total, written]
  · have written : fragments (taken ++ [p]) = fragments taken := by
      rw [fragments_concat, if_neg begins, if_neg timely]
    rw [if_neg (show ¬ (stateOf taken).timestamp = _ from fun h => timely h.symm)]
    simp only [stateOf, frame, time, size, fragmentsSize, written]

end Frames

theorem addsUp_iff (taken : List PACKET) :
    AddsUp taken ↔ (stateOf taken).totalSize = (stateOf taken).size := by
  rw [AddsUp, stateOf, ← UInt32.toNat_inj, UInt32.toNat_ofNat']

theorem combines_concat_iff {taken : List PACKET} {p : PACKET} {st : Combining} :
    Combines (taken ++ [p]) st ↔
      ∃ before, Combines taken before ∧ (taken = [] ∨ before.totalSize ≠ before.size) ∧
        p.header.type ≠ RtmpType.Fin.code ∧ st = before.take p := by
  constructor
  · intro run
    generalize all : taken ++ [p] = taken' at run
    cases run with
    | start => simp at all
    | next before goesOn notFin =>
        obtain ⟨rfl, same⟩ := List.append_inj' all rfl
        cases same
        exact ⟨_, before, goesOn, notFin, rfl⟩
  · rintro ⟨before, run, goesOn, notFin, rfl⟩
    exact .next run goesOn notFin

theorem Combines.eq_stateOf {taken : List PACKET} {st : Combining} (run : Combines taken st) :
    st = stateOf taken := by
  induction run with
  | start => rfl
  | next _ _ _ ih => rw [ih, take_stateOf]

/-- The loop comes to a packet in the state that the packets in front of it give. -/
theorem combines_iff {taken : List PACKET} {p : PACKET} {st : Combining} :
    Combines (taken ++ [p]) st ↔ ComesTo taken p ∧ st = stateOf (taken ++ [p]) := by
  induction taken using List.reverseRecOn generalizing p st with
  | nil =>
      rw [combines_concat_iff]
      constructor
      · rintro ⟨before, run, -, notFin, rfl⟩
        obtain rfl := run.eq_stateOf
        refine ⟨⟨by simpa using notFin, ?_⟩, take_stateOf [] p⟩
        intro front within some'
        exact absurd (List.prefix_nil.mp within) some'
      · rintro ⟨comes, rfl⟩
        exact ⟨.zero, .start, Or.inl rfl, comes.1 p (by simp), (take_stateOf [] p).symm⟩
  | append_singleton taken q ih =>
      rw [combines_concat_iff]
      constructor
      · rintro ⟨before, run, goesOn, notFin, rfl⟩
        obtain ⟨comes, rfl⟩ := ih.mp run
        have open' : ¬ AddsUp (taken ++ [q]) := by
          rw [addsUp_iff]
          exact goesOn.resolve_left (by simp)
        refine ⟨⟨?_, ?_⟩, take_stateOf _ p⟩
        · intro r member
          rcases List.mem_append.mp member with member | member
          · exact comes.1 r member
          · rw [List.mem_singleton.mp member]
            exact notFin
        · intro front within some'
          rcases List.prefix_concat_iff.mp within with rfl | within
          · exact open'
          · exact comes.2 front within some'
      · rintro ⟨comes, rfl⟩
        have before : ComesTo taken q :=
          ⟨fun r member => comes.1 r (List.mem_append_left _ member), fun front within =>
            comes.2 front (within.trans (List.prefix_append _ _))⟩
        have open' := comes.2 (taken ++ [q]) (List.prefix_refl _) (by simp)
        rw [addsUp_iff] at open'
        exact ⟨_, ih.mpr ⟨before, rfl⟩, Or.inr open', comes.1 p (by simp),
          (take_stateOf _ p).symm⟩

theorem mem_of_frameOf {taken : List PACKET} {first : PACKET} (here : frameOf taken = some first) :
    first ∈ taken ∧ first.header.seq = 0 := by
  refine ⟨List.mem_reverse.mp (List.mem_of_find?_eq_some here), ?_⟩
  simpa using List.find?_some here

/-- Packets that fit are inside the frame that they belong to. -/
theorem fragments_inside {taken : List PACKET}
    (fits : ∀ front q, front ++ [q] <+: taken → Fits front q) :
    ∀ q ∈ fragments taken, q.span ⊆ Finset.range (announcedSize taken).toNat := by
  induction taken using List.reverseRecOn with
  | nil => exact fun q member => nomatch member
  | append_singleton taken p ih =>
      have before := ih fun front q within => fits front q (within.trans (List.prefix_append _ _))
      have own : p.header.timestamp = frameTime (taken ++ [p]) →
          p.span ⊆ Finset.range (announcedSize (taken ++ [p])).toNat := by
        intro timely i member
        obtain ⟨least, most⟩ := Finset.mem_Ico.mp member
        obtain ⟨first, here, -, room⟩ := fits taken p (List.prefix_refl _) timely (by omega)
        rw [announcedSize, here, Finset.mem_range]
        exact Nat.lt_of_lt_of_le most room
      intro q member
      rw [fragments_concat] at member
      by_cases begins : p.header.seq = 0
      · rw [if_pos begins] at member
        obtain rfl := List.mem_singleton.mp member
        exact own (by rw [frameTime, frameOf_concat, if_pos begins]; rfl)
      · rw [if_neg begins] at member
        have size : announcedSize (taken ++ [p]) = announcedSize taken := by
          rw [announcedSize, frameOf_concat, if_neg begins, announcedSize]
        have time : frameTime (taken ++ [p]) = frameTime taken := by
          rw [frameTime, frameOf_concat, if_neg begins, frameTime]
        split at member
        · rename_i timely
          rcases List.mem_append.mp member with member | member
          · rw [size]
            exact before q member
          · obtain rfl := List.mem_singleton.mp member
            exact own (timely.trans time.symm)
        · rw [size]
          exact before q member

/-- Fragments inside a frame whose sizes are its size cover it exactly when no two of them
overlap. -/
theorem covers_iff {taken : List PACKET}
    (inside : ∀ q ∈ fragments taken, q.span ⊆ Finset.range (announcedSize taken).toNat)
    (sum : fragmentsSize taken = (announcedSize taken).toNat) :
    (∀ i < (announcedSize taken).toNat, ∃ q ∈ fragments taken, i ∈ q.span) ↔
      (fragments taken).Pairwise fun p q => Disjoint p.span q.span := by
  have parts : ∀ part ∈ (fragments taken).map PACKET.span,
      part ⊆ Finset.range (announcedSize taken).toNat := by
    simpa using inside
  have count : (((fragments taken).map PACKET.span).map Finset.card).sum =
      (Finset.range (announcedSize taken).toNat).card := by
    rw [List.map_map, Finset.card_range, ← sum, fragmentsSize]
    congr 2
    funext q
    simp [PACKET.span]
  rw [← List.pairwise_map, ← cover_eq_iff parts count]
  constructor
  · intro all
    apply Finset.Subset.antisymm
    · intro i here
      obtain ⟨part, member, inPart⟩ := mem_cover.mp here
      exact parts part member inPart
    · intro i here
      obtain ⟨q, member, inSpan⟩ := all i (Finset.mem_range.mp here)
      exact mem_cover.mpr ⟨q.span, List.mem_map_of_mem member, inSpan⟩
  · intro same i below
    rw [← Finset.mem_range, ← same, mem_cover] at below
    obtain ⟨part, member, inPart⟩ := below
    obtain ⟨q, here, rfl⟩ := List.mem_map.mp member
    exact ⟨q, here, inPart⟩

theorem Queued.fits {p : PACKET} (queued : Queued p) : p.bodySize ≤ MAX_BODY_SIZE := by
  obtain ⟨_, _, _, _, _, built⟩ := queued
  exact (PACKET.newPacket_wellFormed built).fits

/-- A well formed packet is copied over its own memory. -/
theorem newPacket_self {p : PACKET} (wf : p.WellFormed) : PACKET.newPacket p p = .ok p := by
  have within : p.bodySize ≤ p.body.toList.length := by
    rw [Vector.length_toList]
    exact wf.fits
  have signed : (BODY_SIZE p.header.MP p.header.size p.header.seq).toInt32.toInt = p.bodySize :=
    PACKET.toInt32_of_le wf.fits
  have text : p.app ++ [0] <+: p.header.app.toList := by
    have stop : p.header.app.toList.dropWhile (· ≠ 0) ≠ [] := by
      rw [ne_eq, List.dropWhile_eq_nil_iff]
      exact fun all => absurd (all 0 wf.terminated) (by simp)
    obtain ⟨c, rest, split⟩ := List.exists_cons_of_ne_nil stop
    have zero : c = 0 := by
      have head := List.head?_dropWhile_not (fun c : UInt8 => decide (c ≠ 0)) p.header.app.toList
      rw [split] at head
      simpa using head
    refine ⟨rest, ?_⟩
    rw [List.append_assoc, List.singleton_append, ← zero, ← split]
    exact List.takeWhile_append_dropWhile
  have same {n : Nat} {memory : Vector UInt8 n} {bytes : List UInt8}
      (front : bytes <+: memory.toList) : PACKET.overwrite memory bytes = memory := by
    have fits : bytes.length ≤ n := by
      simpa using front.length_le
    rw [← Vector.toList_inj, PACKET.toList_overwrite memory fits]
    obtain ⟨rest, all⟩ := front
    rw [← all, List.drop_left]
  refine PACKET.make_ok_iff.mpr ⟨Nat.not_le.mpr wf.app_short, ?_, ?_, ?_⟩
  · rw [not_not, Int32.le_iff_toInt_le, signed]
    exact Int.ofNat_le.mpr wf.fits
  · rw [not_or, Int32.lt_iff_toInt_lt, signed]
    exact ⟨Int.not_lt.mpr (Int.natCast_nonneg _), Nat.not_lt.mpr within⟩
  · rw [same text, same (List.take_prefix _ _)]

/-- Every well formed packet can be received. -/
theorem Queued.of_wellFormed {p : PACKET} (wf : p.WellFormed) : Queued p := by
  refine ⟨p, p, p.rawNetPacket.image, p, ?_, newPacket_self wf⟩
  have received : PACKET.ofNet p.rawNetPacket.image = p := by
    rw [PACKET.ofNet, PACKET.ofImage_image]
    simp only [PACKET.rawNetPacket, HEADER.swap_swap]
  rw [received]
  exact newPacket_self wf

/-- A packet of zeros. -/
def zeroPacket (size : UInt32) (MP : Int32) (seq : UInt32) : PACKET where
  header := ⟨size, RtmpType.Push.code, 0, MP, seq, 1, Vector.replicate 64 0⟩
  body := Vector.replicate 1400 0

theorem queued_zeroPacket {size : UInt32} {MP : Int32} {seq : UInt32}
    (fits : (BODY_SIZE MP size seq).toNat ≤ MAX_BODY_SIZE) : Queued (zeroPacket size MP seq) :=
  .of_wellFormed ⟨by simp [zeroPacket], fits⟩

/-- What the packets in front of one that is safe to take give for it. -/
theorem fits_of_safe {taken : List PACKET} {p : PACKET}
    (safe : SafeTake taken p (stateOf (taken ++ [p]))) : Fits taken p := by
  intro timely some'
  obtain ⟨data, room⟩ := safe.inside timely.symm some'
  obtain ⟨first, here, small⟩ := Option.any_eq_true _ _ |>.mp data
  refine ⟨first, here, of_decide_eq_true small, ?_⟩
  have size : (stateOf (taken ++ [p])).size = first.header.size := by
    rw [stateOf, announcedSize, here]
    rfl
  rwa [size] at room

/-- A call of `get_next_nalu` is safe with every packet that it takes exactly when these
packets fit into their frames, and cover a frame whenever their sizes add up to its size. -/
theorem combines_safe_iff {queue : List PACKET} (queued : ∀ p ∈ queue, Queued p) :
    (∀ taken p st, taken ++ [p] <+: queue → Combines (taken ++ [p]) st → SafeTake taken p st) ↔
      ∀ taken p, taken ++ [p] <+: queue → ComesTo taken p →
        Fits taken p ∧ Tiles (taken ++ [p]) := by
  -- what is in front of a packet that the loop comes to, it has come to as well
  have earlier {taken front : List PACKET} {p q : PACKET} (comes : ComesTo taken p)
      (within : front ++ [q] <+: taken ++ [p]) : ComesTo front q := by
    obtain ⟨rest, all⟩ := within
    refine ⟨fun r member => comes.1 r (all ▸ List.mem_append_left rest member), ?_⟩
    intro start inFront
    apply comes.2 start
    have shorter : front <+: taken := by
      rcases List.prefix_concat_iff.mp (⟨rest, all⟩ : front ++ [q] <+: taken ++ [p])
        with same | within
      · obtain ⟨rfl, -⟩ := List.append_inj' same rfl
        exact List.prefix_refl _
      · exact (List.prefix_append front [q]).trans within
    exact inFront.trans shorter
  constructor
  · intro safe taken p within comes
    have safeAt {front : List PACKET} {q : PACKET} (inside : front ++ [q] <+: taken ++ [p]) :
        SafeTake front q (stateOf (front ++ [q])) :=
      safe front q _ (inside.trans within) (combines_iff.mpr ⟨earlier comes inside, rfl⟩)
    have own := safeAt (List.prefix_refl _)
    refine ⟨fits_of_safe own, fun addsUp => ?_⟩
    have whole : ∀ i < (announcedSize (taken ++ [p])).toNat,
        ∃ q ∈ fragments (taken ++ [p]), i ∈ q.span := by
      intro i below
      obtain ⟨q, member, -, here⟩ := own.whole ((addsUp_iff _).mp addsUp) i below
      exact ⟨q, member, here⟩
    have inside := fragments_inside fun front q inside => fits_of_safe (safeAt inside)
    by_cases sum : fragmentsSize (taken ++ [p]) = (announcedSize (taken ++ [p])).toNat
    · exact Or.inl ⟨sum, (covers_iff inside sum).mp whole⟩
    · refine Or.inr ⟨?_, whole⟩
      have least := Nat.mod_le (fragmentsSize (taken ++ [p])) (2 ^ 32)
      rw [AddsUp] at addsUp
      omega
  · intro valid taken p st within run
    obtain ⟨comes, rfl⟩ := combines_iff.mp run
    obtain ⟨fits, tiles⟩ := valid taken p within comes
    refine ⟨?_, ?_, ?_, ?_⟩
    · intro timely some'
      obtain ⟨first, here, small, room⟩ := fits timely.symm some'
      simp only [stateOf, announcedSize, here]
      exact ⟨decide_eq_true small, room⟩
    · intro timely some'
      obtain ⟨first, here, -, -⟩ := fits timely.symm some'
      obtain ⟨member, begins⟩ := mem_of_frameOf here
      refine ⟨first, member, begins, ?_⟩
      rw [← timely, stateOf, frameTime, here]
      rfl
    · exact (queued p (within.subset (by simp))).fits
    · intro complete i below
      have timely {q : PACKET} (member : q ∈ fragments (taken ++ [p])) :
          q.header.timestamp = frameTime (taken ++ [p]) :=
        of_decide_eq_true (List.mem_filter.mp member).2
      rcases tiles ((addsUp_iff _).mpr complete) with ⟨sum, apart⟩ | ⟨-, whole⟩
      · have inside := fragments_inside fun front q inside =>
          (valid front q (inside.trans within) (earlier comes inside)).1
        obtain ⟨q, member, here⟩ := (covers_iff inside sum).mpr apart i below
        exact ⟨q, member, timely member, here⟩
      · obtain ⟨q, member, here⟩ := whole i below
        exact ⟨q, member, timely member, here⟩

/-- A frame of two packets. -/
theorem combines_safe_two :
    ∃ st, Combines [zeroPacket 1402 1 0, zeroPacket 1402 0 1400] st ∧
      SafeTake [zeroPacket 1402 1 0] (zeroPacket 1402 0 1400) st := by
  have queued : ∀ p ∈ [zeroPacket 1402 1 0, zeroPacket 1402 0 1400], Queued p := by
    intro p member
    rcases List.mem_cons.mp member with rfl | member
    · exact queued_zeroPacket (by decide)
    · obtain rfl := List.mem_singleton.mp member
      exact queued_zeroPacket (by decide)
  have run : Combines ([zeroPacket 1402 1 0] ++ [zeroPacket 1402 0 1400])
      ((Combining.zero.take (zeroPacket 1402 1 0)).take (zeroPacket 1402 0 1400)) :=
    .next (.next .start (Or.inl rfl) (by decide)) (Or.inr (by decide)) (by decide)
  refine ⟨_, run, (combines_safe_iff queued).mpr ?_ _ _ _ (List.prefix_refl _) run⟩
  intro taken p within _
  match taken, within with
  | [], within =>
      obtain rfl : p = zeroPacket 1402 1 0 := by simpa using within
      refine ⟨fun _ _ => ⟨zeroPacket 1402 1 0, rfl, by decide, by decide⟩, fun addsUp => ?_⟩
      exact absurd addsUp (by decide)
  | [q], within =>
      obtain ⟨rfl, rfl⟩ : q = zeroPacket 1402 1 0 ∧ p = zeroPacket 1402 0 1400 := by
        simpa [List.cons_prefix_cons] using within
      refine ⟨fun _ _ => ⟨zeroPacket 1402 1 0, rfl, by decide, by decide⟩, fun _ => Or.inl ?_⟩
      refine ⟨by decide, ?_⟩
      have apart : Disjoint (zeroPacket 1402 1 0).span (zeroPacket 1402 0 1400).span :=
        Finset.Ico_disjoint_Ico_consecutive 0 1400 1402
      exact List.pairwise_pair.mpr apart
  | q :: r :: rest, within =>
      have fewer := within.length_le
      simp at fewer

/-- A first packet can have more bytes than its frame, and a packet that is repeated
completes a frame of three packets without the last one. -/
theorem not_safe :
    (∃ st, Queued (zeroPacket 10 1 0) ∧ Combines ([] ++ [zeroPacket 10 1 0]) st ∧
      ¬ SafeTake [] (zeroPacket 10 1 0) st) ∧
    ∃ st, Queued (zeroPacket 4200 1 0) ∧ Queued (zeroPacket 4200 1 1400) ∧
      Combines ([zeroPacket 4200 1 0, zeroPacket 4200 1 1400] ++ [zeroPacket 4200 1 1400]) st ∧
      ¬ SafeTake [zeroPacket 4200 1 0, zeroPacket 4200 1 1400] (zeroPacket 4200 1 1400) st := by
  constructor
  · refine ⟨_, queued_zeroPacket (by decide), .next .start (Or.inl rfl) (by decide), ?_⟩
    intro safe
    have room := (safe.inside rfl (by decide)).2
    exact absurd room (by decide)
  · refine ⟨_, queued_zeroPacket (by decide), queued_zeroPacket (by decide),
      .next (.next (.next .start (Or.inl rfl) (by decide)) (Or.inr (by decide)) (by decide))
        (Or.inr (by decide)) (by decide), ?_⟩
    intro safe
    obtain ⟨q, member, -, here⟩ := safe.whole (by decide) 2800 (by decide)
    have third : q = zeroPacket 4200 1 0 ∨ q = zeroPacket 4200 1 1400 := by
      simpa [Combining.take, Combining.first, Combining.zero, zeroPacket] using member
    rcases third with rfl | rfl
    · exact absurd (Finset.mem_Ico.mp here) (by decide)
    · exact absurd (Finset.mem_Ico.mp here) (by decide)

end Vtm.Player
