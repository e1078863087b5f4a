import Vtm.Decoder.PrefixSei

/-!
# Prefix SEI messages are consumed once

Every unit that is put in the queue has one place: it has been parsed, has been discarded, or is in
the queue. This holds in all runs in which no reserved VCL NAL unit comes while units are buffered,
and in no others: the loop for those types deletes the front of the queue for ever.
-/

namespace Vtm.PrefixSei

open Vtm.Std
open LostPics (Nalu DecLib Slice)

variable {fuel : Nat} {seis seis' : SeiQueue} {dec dec' : Decoder} {call : Call}

/-! ## The places of a unit -/

/-- How often a unit is in the queue. -/
def SeiQueue.buffered (seis : SeiQueue) (address : Nat) : Nat :=
  (seis.prefixSEINALUs.map (·.address)).count address

/-- How often a unit has been parsed or discarded. -/
def SeiQueue.consumed (seis : SeiQueue) (address : Nat) : Nat :=
  seis.parsed.count address + seis.discarded.count address

/-- Every unit has one place, and what has been consumed has been deleted as often. -/
structure SeiQueue.EachOnce (seis : SeiQueue) : Prop where
  place : ∀ address < seis.nextAddress, seis.consumed address + seis.buffered address = 1
  fresh : ∀ address, seis.nextAddress ≤ address → seis.consumed address + seis.buffered address = 0
  deleted : ∀ address, seis.deleted.count address = seis.consumed address

namespace SeiQueue

theorem EachOnce.place_le (once : seis.EachOnce) (address : Nat) :
    seis.consumed address + seis.buffered address ≤ 1 := by
  by_cases known : address < seis.nextAddress
  · exact (once.place address known).le
  · rw [once.fresh address (not_lt.mp known)]
    exact Nat.zero_le 1

theorem EachOnce.nodup (once : seis.EachOnce) : seis.deleted.Nodup := by
  refine List.nodup_iff_count.mpr fun address => ?_
  have place := once.place_le address
  rw [once.deleted address]
  omega

theorem init_eachOnce : init.EachOnce where
  place _ known := absurd known (Nat.not_lt_zero _)
  fresh _ _ := rfl
  deleted _ := rfl

theorem buffered_pushBack (seis : SeiQueue) (nalu : Nalu) (address : Nat) :
    (seis.pushBack nalu).buffered address =
      seis.buffered address + if seis.nextAddress = address then 1 else 0 := by
  simp only [SeiQueue.pushBack, buffered, List.map_append, List.map_cons, List.map_nil,
    List.count_append, List.count_singleton, beq_iff_eq]

theorem EachOnce.pushBack (once : seis.EachOnce) (nalu : Nalu) : (seis.pushBack nalu).EachOnce where
  place address known := by
    show seis.consumed address + (seis.pushBack nalu).buffered address = 1
    rw [buffered_pushBack]
    split
    · next new => rw [← add_assoc, once.fresh address new.le]
    · next old => exact once.place address (by have : address < seis.nextAddress + 1 := known; omega)
  fresh address unknown := by
    have later : seis.nextAddress + 1 ≤ address := unknown
    show seis.consumed address + (seis.pushBack nalu).buffered address = 0
    rw [buffered_pushBack, if_neg (by omega)]
    exact once.fresh address (by omega)
  deleted := once.deleted

/-- A parsed unit has changed its place. -/
theorem parseFront_place {front : InputNALUnit} {rest : List InputNALUnit}
    (queue : seis.prefixSEINALUs = front :: rest) (address : Nat) :
    (seis.parseFront front rest).consumed address + (seis.parseFront front rest).buffered address =
      seis.consumed address + seis.buffered address := by
  simp only [SeiQueue.parseFront, consumed, buffered, queue, List.map_cons, List.count_cons,
    List.count_append, List.count_nil]
  omega

theorem EachOnce.parseFront (once : seis.EachOnce) {front : InputNALUnit}
    {rest : List InputNALUnit} (queue : seis.prefixSEINALUs = front :: rest) :
    (seis.parseFront front rest).EachOnce where
  place address known := (parseFront_place queue address).trans (once.place address known)
  fresh address unknown := (parseFront_place queue address).trans (once.fresh address unknown)
  deleted address := by
    have deleted := once.deleted address
    simp only [SeiQueue.parseFront, consumed, List.count_append] at deleted ⊢
    omega

/-- The destructor deletes what is left, and so every unit is deleted once. -/
theorem EachOnce.destroy (once : seis.EachOnce) {address : Nat} (known : address < seis.nextAddress) :
    seis.destroy.deleted.count address = 1 := by
  rw [← once.place address known, ← once.deleted address]
  exact List.count_append

/-! ## The loops -/

/-- What the parsing loop leaves when it comes to an end. -/
theorem xParsePrefixSEImessages_spec {parse : InputNALUnit → Except String Unit}
    (once : seis.EachOnce) (run : seis.xParsePrefixSEImessages parse fuel = some (.ok seis')) :
    seis'.EachOnce ∧ seis'.prefixSEINALUs = [] := by
  induction fuel generalizing seis with
  | zero => cases run
  | succ fuel ih =>
      unfold xParsePrefixSEImessages at run
      cases queue : seis.prefixSEINALUs with
      | nil =>
          rw [queue] at run
          cases run
          exact ⟨once, queue⟩
      | cons front rest =>
          simp only [queue] at run
          cases parsed : parse front with
          | error e =>
              rw [parsed] at run
              cases run
          | ok value =>
              rw [parsed] at run
              exact ih (once.parseFront queue) run

/-- The parsing loop comes to an end: every round takes a unit from the queue. -/
theorem xParsePrefixSEImessages_ends (parse : InputNALUnit → Except String Unit)
    (enough : seis.prefixSEINALUs.length < fuel) :
    (seis.xParsePrefixSEImessages parse fuel).Ends := by
  induction fuel generalizing seis with
  | zero => omega
  | succ fuel ih =>
      unfold xParsePrefixSEImessages
      cases queue : seis.prefixSEINALUs with
      | nil => exact ⟨.ok seis, rfl⟩
      | cons front rest =>
          dsimp only
          cases parse front with
          | error e => exact ⟨.error e, rfl⟩
          | ok value =>
              refine ih ?_
              rw [queue, List.length_cons] at enough
              exact Nat.lt_of_succ_lt_succ enough

/-- The discarding loop on an empty queue. -/
theorem xParsePrefixSEIsForUnknownVCLNal_nil (empty : seis.prefixSEINALUs = []) :
    seis.xParsePrefixSEIsForUnknownVCLNal (fuel + 1) = some (.ok seis) := by
  unfold xParsePrefixSEIsForUnknownVCLNal
  rw [empty]
  rfl

/-- The discarding loop on any other queue does not come to an end: no round takes a unit. -/
theorem xParsePrefixSEIsForUnknownVCLNal_cons (buffered : seis.prefixSEINALUs ≠ []) (fuel : Nat) :
    seis.xParsePrefixSEIsForUnknownVCLNal fuel = none := by
  induction fuel generalizing seis with
  | zero => rfl
  | succ fuel ih =>
      unfold xParsePrefixSEIsForUnknownVCLNal
      cases queue : seis.prefixSEINALUs with
      | nil => exact absurd queue buffered
      | cons front rest =>
          refine ih ?_
          rw [show (seis.discardFront front).prefixSEINALUs = front :: rest from queue]
          exact List.cons_ne_nil _ _

end SeiQueue

/-! ## Calls of `decode` -/

namespace Decoder

/-- What a call does to the queue. -/
inductive Effect (fuel : Nat) (dec : Decoder) (call : Call) (seis' : SeiQueue) : Prop where
  | pushed (type : call.nalu.nalUnitType = .prefixSei) (same : seis' = dec.seis.pushBack call.nalu)
  | parsed (decodes : dec.DecodesSlice call)
      (run : dec.seis.xParsePrefixSEImessages call.parsePrefix fuel = some (.ok seis'))
  | discarded (reserved : call.nalu.nalUnitType.isReservedVcl = true)
      (run : dec.seis.xParsePrefixSEIsForUnknownVCLNal fuel = some (.ok seis'))
  | kept (other : ¬ dec.DecodesSlice call) (same : seis' = dec.seis)

theorem xActivateParameterSets_seis {slice : Slice}
    (run : dec.xActivateParameterSets fuel call slice = some (.ok dec')) :
    dec.seis.xParsePrefixSEImessages call.parsePrefix fuel = some (.ok dec'.seis) := by
  obtain ⟨seis, parsed, rest⟩ := Fuelled.bind_ok_iff.mp run
  split at rest
  · cases rest
    exact parsed
  · cases rest
    exact parsed

theorem decompressSlice_seis {slice : Slice}
    (run : dec.decompressSlice fuel call slice = some (.ok dec')) :
    dec.seis.xParsePrefixSEImessages call.parsePrefix fuel = some (.ok dec'.seis) := by
  obtain ⟨active, activated, rest⟩ := Fuelled.bind_ok_iff.mp run
  obtain ⟨lib, _, last⟩ := Fuelled.bind_ok_iff.mp rest
  cases last
  have parsed := xActivateParameterSets_seis activated
  exact parsed

theorem xDecodeSlice_effect {iSkipFrame : Nat} (slice : call.nalu.nalUnitType.isSlice = true)
    (run : dec.xDecodeSlice fuel call = some (.ok (dec', iSkipFrame))) :
    Effect fuel dec call dec'.seis := by
  unfold xDecodeSlice at run
  by_cases dropped : dec.lib.picHeaderValid = false
  · rw [if_pos dropped] at run
    cases run
    refine .kept ?_ rfl
    rintro ⟨_, valid, _⟩
    simp [dropped] at valid
  rw [if_neg dropped] at run
  obtain ⟨read, readOk, rest⟩ := Fuelled.bind_ok_iff.mp run
  obtain ⟨decoded, decodedOk, last⟩ := Fuelled.bind_ok_iff.mp rest
  cases last
  have same : dec.lib.readAndSkip call.nalu call.iSkipFrame = .ok read := Option.some.inj readOk
  unfold decodeRead at decodedOk
  by_cases skipped : read.skipped = true
  · rw [if_pos skipped] at decodedOk
    cases decodedOk
    refine .kept ?_ rfl
    rintro ⟨_, _, read', readOk', notSkipped, _⟩
    rw [same] at readOk'
    cases readOk'
    simp [skipped] at notSkipped
  rw [if_neg skipped] at decodedOk
  by_cases left : read.lib.findsNewPicture call.nalu = true
  · rw [if_pos left] at decodedOk
    cases decodedOk
    refine .kept ?_ rfl
    rintro ⟨_, _, read', readOk', _, stays⟩
    rw [same] at readOk'
    cases readOk'
    simp [left] at stays
  rw [if_neg left] at decodedOk
  obtain ⟨lib, _, decompressed⟩ := Fuelled.bind_ok_iff.mp decodedOk
  have parsed := decompressSlice_seis decompressed
  exact .parsed ⟨slice, by simpa using dropped, read, same, by simpa using skipped, by simpa using left⟩
    parsed

theorem decodeOther_effect (other : call.nalu.nalUnitType.isSlice = false)
    (run : dec.decodeOther fuel call = some (.ok dec')) : Effect fuel dec call dec'.seis := by
  have notDecoded : ¬ dec.DecodesSlice call := by
    rintro ⟨slice, _⟩
    simp [other] at slice
  unfold decodeOther at run
  cases type : call.nalu.nalUnitType
  case prefixSei =>
    rw [type] at run
    cases run
    exact .pushed type rfl
  case suffixSei =>
    simp only [type] at run
    by_cases current : dec.lib.pcPic.isSome = true
    · rw [if_pos current] at run
      obtain ⟨_, _, last⟩ := Fuelled.bind_ok_iff.mp run
      cases last
      exact .kept notDecoded rfl
    · rw [if_neg current] at run
      cases run
      exact .kept notDecoded rfl
  case reservedIrapVcl11 | reservedIrapVcl12 =>
    simp only [type] at run
    obtain ⟨seis, discarded, last⟩ := Fuelled.bind_ok_iff.mp run
    cases last
    exact .discarded (by rw [type]; rfl) discarded
  all_goals
    rw [type] at run
    cases run
  all_goals exact .kept notDecoded rfl

/-- A call changes the queue in one of four ways. -/
theorem decode_effect {iSkipFrame : Nat}
    (run : dec.decode fuel call = some (.ok (dec', iSkipFrame))) : Effect fuel dec call dec'.seis := by
  unfold decode at run
  by_cases slice : call.nalu.nalUnitType.isSlice = true
  · rw [if_pos slice] at run
    exact xDecodeSlice_effect slice run
  · rw [if_neg slice] at run
    obtain ⟨decoded, other, last⟩ := Fuelled.bind_ok_iff.mp run
    cases last
    exact decodeOther_effect (by simpa using slice) other

theorem decompressSlice_lib {slice : Slice}
    (run : dec.decompressSlice fuel call slice = some (.ok dec')) :
    dec.lib.decompressSlice call.nalu slice = .ok dec'.lib := by
  obtain ⟨active, activated, rest⟩ := Fuelled.bind_ok_iff.mp run
  obtain ⟨lib, built, last⟩ := Fuelled.bind_ok_iff.mp rest
  cases last
  obtain ⟨seis, _, chosen⟩ := Fuelled.bind_ok_iff.mp activated
  have listed := Option.some.inj built
  unfold DecLib.decompressSlice
  dsimp only at chosen ⊢
  by_cases first : dec.lib.firstSliceInPicture = true
  · rw [if_pos first] at chosen ⊢
    cases chosen
    rw [listed]
    rfl
  · rw [if_neg first] at chosen ⊢
    cases chosen
    rw [listed]
    rfl

theorem xDecodeSlice_lib {iSkipFrame : Nat}
    (run : dec.xDecodeSlice fuel call = some (.ok (dec', iSkipFrame))) :
    dec.lib.xDecodeSlice call.nalu call.iSkipFrame = .ok (dec'.lib, iSkipFrame) := by
  unfold xDecodeSlice at run
  unfold DecLib.xDecodeSlice
  by_cases dropped : dec.lib.picHeaderValid = false
  · rw [if_pos dropped] at run ⊢
    cases run
    rfl
  rw [if_neg dropped] at run ⊢
  obtain ⟨read, readOk, rest⟩ := Fuelled.bind_ok_iff.mp run
  obtain ⟨decoded, decodedOk, last⟩ := Fuelled.bind_ok_iff.mp rest
  cases last
  rw [Option.some.inj readOk]
  have same : DecLib.decodeRead call.nalu read = .ok dec'.lib := by
    unfold decodeRead at decodedOk
    unfold DecLib.decodeRead
    by_cases skipped : read.skipped = true
    · rw [if_pos skipped] at decodedOk ⊢
      cases decodedOk
      rfl
    rw [if_neg skipped] at decodedOk ⊢
    by_cases left : read.lib.findsNewPicture call.nalu = true
    · rw [if_pos left] at decodedOk ⊢
      cases decodedOk
      rfl
    rw [if_neg left] at decodedOk ⊢
    obtain ⟨lib, inserted, decompressed⟩ := Fuelled.bind_ok_iff.mp decodedOk
    dsimp only
    rw [Option.some.inj inserted]
    exact decompressSlice_lib decompressed
  show (DecLib.decodeRead call.nalu read).map _ = _
  rw [same]
  rfl

/-- Without the queue, this is the decoder of the lost reference pictures. -/
theorem decode_lib {iSkipFrame : Nat} (run : dec.decode fuel call = some (.ok (dec', iSkipFrame))) :
    dec.lib.decode call.nalu call.iSkipFrame = .ok (dec'.lib, iSkipFrame) := by
  unfold decode at run
  unfold DecLib.decode
  by_cases slice : call.nalu.nalUnitType.isSlice = true
  · rw [if_pos slice] at run ⊢
    exact xDecodeSlice_lib run
  rw [if_neg slice] at run ⊢
  obtain ⟨decoded, other, last⟩ := Fuelled.bind_ok_iff.mp run
  cases last
  unfold decodeOther at other
  cases type : call.nalu.nalUnitType
  case suffixSei =>
    simp only [type] at other
    split at other
    · obtain ⟨_, _, same⟩ := Fuelled.bind_ok_iff.mp other
      cases same
      rfl
    · cases other
      rfl
  case reservedIrapVcl11 | reservedIrapVcl12 =>
    simp only [type] at other
    obtain ⟨_, _, same⟩ := Fuelled.bind_ok_iff.mp other
    cases same
    rfl
  all_goals
    rw [type] at other
    cases other
  all_goals rfl

theorem xDecodeSlice_ends (enough : dec.seis.prefixSEINALUs.length < fuel) :
    (dec.xDecodeSlice fuel call).Ends := by
  unfold xDecodeSlice
  split
  · exact .pure _
  · refine .bind (.done _) fun read _ => .bind ?_ fun decoded _ => .pure _
    unfold decodeRead
    split
    · exact .pure _
    split
    · exact .pure _
    refine .bind (.done _) fun lib _ => .bind (.bind ?_ fun seis _ => ?_) fun active _ =>
      .bind (.done _) fun lib _ => .pure _
    · exact SeiQueue.xParsePrefixSEImessages_ends _ enough
    · split
      · exact .pure _
      · exact .pure _

theorem decodeOther_ends
    (clear : call.nalu.nalUnitType.isReservedVcl = true → dec.seis.prefixSEINALUs = []) :
    (dec.decodeOther (fuel + 1) call).Ends := by
  unfold decodeOther
  cases type : call.nalu.nalUnitType
  case suffixSei =>
    dsimp only
    split
    · exact .bind (.done _) fun _ _ => .pure _
    · exact .pure _
  case reservedIrapVcl11 | reservedIrapVcl12 =>
    have empty := clear (by rw [type]; rfl)
    exact .bind ⟨_, SeiQueue.xParsePrefixSEIsForUnknownVCLNal_nil empty⟩ fun _ _ => .pure _
  case fd | invalid => exact .done _
  all_goals exact .pure _

/-- A call comes to an end, unless it discards. -/
theorem decode_ends
    (clear : call.nalu.nalUnitType.isReservedVcl = true → dec.seis.prefixSEINALUs = []) :
    (dec.decode (dec.seis.prefixSEINALUs.length + 1) call).Ends := by
  unfold decode
  split
  · exact xDecodeSlice_ends (Nat.lt_succ_self _)
  · exact .bind (decodeOther_ends clear) fun _ _ => .pure _

/-- The call processes a VCL NAL unit: a slice that is decoded, or a reserved type. -/
def ProcessesVcl (dec : Decoder) (call : Call) : Prop :=
  dec.DecodesSlice call ∨ call.nalu.nalUnitType.isReservedVcl = true

/-- A call keeps the places of the units, and empties the queue if it processes a VCL NAL unit. -/
theorem decode_eachOnce {iSkipFrame : Nat} (once : dec.seis.EachOnce)
    (clear : call.nalu.nalUnitType.isReservedVcl = true → dec.seis.prefixSEINALUs = [])
    (run : dec.decode fuel call = some (.ok (dec', iSkipFrame))) :
    dec'.seis.EachOnce ∧ (dec.ProcessesVcl call → dec'.seis.prefixSEINALUs = []) := by
  cases decode_effect run with
  | pushed type same =>
      rw [same]
      refine ⟨once.pushBack _, ?_⟩
      rintro (⟨slice, _⟩ | reserved)
      · rw [type] at slice
        cases slice
      · rw [type] at reserved
        cases reserved
  | parsed decodes parsing =>
      have left := SeiQueue.xParsePrefixSEImessages_spec once parsing
      exact ⟨left.1, fun _ => left.2⟩
  | discarded reserved discarding =>
      have empty := clear reserved
      cases fuel with
      | zero => cases discarding
      | succ fuel =>
          rw [SeiQueue.xParsePrefixSEIsForUnknownVCLNal_nil empty] at discarding
          have same : dec.seis = dec'.seis := Except.ok.inj (Option.some.inj discarding)
          rw [← same]
          exact ⟨once, fun _ => empty⟩
  | kept other same =>
      rw [same]
      exact ⟨once, fun vcl => clear (vcl.resolve_left other)⟩

end Decoder

/-! ## Runs -/

/-- No reserved VCL NAL unit comes while units are buffered. -/
def Clear (calls : List Call) : Prop :=
  ∀ done call rest dec, calls = done ++ call :: rest → Run done dec →
    call.nalu.nalUnitType.isReservedVcl = true → dec.seis.prefixSEINALUs = []

/-- In every state that the calls reach, the next one comes to an end. Behind it every unit has one
place, no unit has been deleted twice, and the queue is empty if a VCL NAL unit has been processed. -/
def ConsumedOnce (calls : List Call) : Prop :=
  ∀ done call rest dec, calls = done ++ call :: rest → Run done dec →
    (∃ fuel, (dec.decode fuel call).Ends) ∧
      ∀ fuel dec' iSkipFrame, dec.decode fuel call = some (.ok (dec', iSkipFrame)) →
        dec'.seis.EachOnce ∧ dec'.seis.deleted.Nodup ∧
          (dec.ProcessesVcl call → dec'.seis.prefixSEINALUs = [])

theorem Run.eachOnce {done : List Call} (run : Run done dec) :
    ∀ {calls rest}, Clear calls → calls = done ++ rest → dec.seis.EachOnce := by
  induction run with
  | start => exact fun _ _ => SeiQueue.init_eachOnce
  | application lib run ih => exact fun clear split => ih clear split
  | decode run decoded ih =>
      intro calls rest clear split
      rw [List.append_assoc] at split
      have once := ih clear split
      exact (Decoder.decode_eachOnce once (clear _ _ _ _ split run) decoded).1

theorem consumedOnce_of_clear {calls : List Call} (clear : Clear calls) : ConsumedOnce calls := by
  intro done call rest dec split run
  have here := clear done call rest dec split run
  refine ⟨⟨_, Decoder.decode_ends here⟩, fun fuel dec' iSkipFrame decoded => ?_⟩
  have behind := Decoder.decode_eachOnce (run.eachOnce clear split) here decoded
  exact ⟨behind.1, behind.1.nodup, behind.2⟩

/-- With units in the queue, a reserved VCL type either makes no consumer run or an endless one. -/
theorem decode_reserved (reserved : call.nalu.nalUnitType.isReservedVcl = true)
    (buffered : dec.seis.prefixSEINALUs ≠ []) :
    (∀ fuel, dec.decode fuel call = none) ∨
      ∀ fuel, dec.decode fuel call = some (.ok (dec, call.iSkipFrame)) := by
  unfold Decoder.decode Decoder.decodeOther
  cases type : call.nalu.nalUnitType
  case reservedIrapVcl11 | reservedIrapVcl12 =>
    refine .inl fun fuel => Fuelled.bind_none (Fuelled.bind_none ?_)
    exact SeiQueue.xParsePrefixSEIsForUnknownVCLNal_cons buffered fuel
  case reservedVcl4 | reservedVcl5 | reservedVcl6 => exact .inr fun _ => rfl
  all_goals
    rw [type] at reserved
    cases reserved

/-- Every buffered unit is consumed once in exactly the runs in which no reserved VCL NAL unit comes
while units are buffered. -/
theorem consumedOnce_iff (calls : List Call) : ConsumedOnce calls ↔ Clear calls := by
  refine ⟨fun consumed done call rest dec split run reserved => ?_, consumedOnce_of_clear⟩
  by_contra buffered
  obtain ⟨⟨fuel, value, ended⟩, behind⟩ := consumed done call rest dec split run
  obtain endless | ended' := decode_reserved reserved buffered
  · rw [endless fuel] at ended
    cases ended
  · exact buffered ((behind 0 dec _ (ended' 0)).2.2 (.inr reserved))

/-- A NAL unit of a type, with nothing in it. -/
def sampleCall (nalUnitType : NalUnitType) : Call where
  nalu := {
    nalUnitType := nalUnitType
    temporalId := 0
    nuhLayerId := 0
    picHeader := .init
    first := DecLib.init.first
    slice := {
      sets := DecLib.init.first
      slicePicOrderCntLsb := 0
      sliceCurStartCtuTsAddr := 0
      sliceType := .I_SLICE
      rpl := fun _ => ⟨0, 0, fun _ => false, fun _ => 0, fun _ => false, fun _ => 0⟩
      localRPL := fun _ => ⟨0, 0, fun _ => false, fun _ => 0, fun _ => false, fun _ => 0⟩
      numRefIdx := fun _ => 0 } }
  iSkipFrame := 0
  parsePrefix _ := .ok ()
  parseSuffix := .ok ()

/-- The decoder behind one prefix SEI message. -/
def sampleDecoder : Decoder :=
  { Decoder.init with seis := SeiQueue.init.pushBack (sampleCall .prefixSei).nalu }

theorem reservedIrap_not_consumedOnce :
    ¬ ConsumedOnce [sampleCall .prefixSei, sampleCall .reservedIrapVcl11] := by
  intro consumed
  have pushed : Run [sampleCall .prefixSei] sampleDecoder :=
    @Run.decode [] .init sampleDecoder (sampleCall .prefixSei) 0 0 .start rfl
  obtain ⟨⟨fuel, value, ended⟩, _⟩ := consumed [_] _ [] sampleDecoder rfl pushed
  have endless : sampleDecoder.decode fuel (sampleCall .reservedIrapVcl11) = none :=
    Fuelled.bind_none (Fuelled.bind_none
      (SeiQueue.xParsePrefixSEIsForUnknownVCLNal_cons (List.cons_ne_nil _ _) fuel))
  rw [endless] at ended
  cases ended

end Vtm.PrefixSei
