import Vtm.Decoder.LostSlices
import Vtm.Std.Fuel

/-!
# Buffered prefix SEI messages

`DecLib::decode` with `m_prefixSEINALUs`: the queue that prefix SEI NAL units are put in, and the
two loops that empty it. What `parseSEImessage` makes of a unit is a part of the call.
-/

namespace Vtm.PrefixSei

open LostPics (Nalu DecLib)

/-- An `InputNALUnit` of the queue. `address` stands for the pointer. -/
structure InputNALUnit where
  address : Nat
  nalu : Nalu

/-- `m_prefixSEINALUs`, the address of the next `new InputNALUnit`, and what has been done with the
units so far. -/
structure SeiQueue where
  prefixSEINALUs : List InputNALUnit
  nextAddress : Nat
  parsed : List Nat
  discarded : List Nat
  deleted : List Nat

/-- The decoder. -/
structure Decoder where
  lib : DecLib
  seis : SeiQueue

/-- A call of `decode`, with what the SEI reader does under the parameter sets and the HRD of
that time: it may throw. -/
structure Call where
  nalu : Nalu
  iSkipFrame : Nat
  parsePrefix : InputNALUnit → Except String Unit
  parseSuffix : Except String Unit

/-- A computation that may throw. -/
abbrev Result (α : Type) := Std.Fuelled String α

namespace SeiQueue

/-- No unit yet. -/
def init : SeiQueue := ⟨[], 0, [], [], []⟩

/-- `m_prefixSEINALUs.push_back(new InputNALUnit(nalu))`. -/
def pushBack (seis : SeiQueue) (nalu : Nalu) : SeiQueue :=
  { seis with
    prefixSEINALUs := seis.prefixSEINALUs ++ [⟨seis.nextAddress, nalu⟩]
    nextAddress := seis.nextAddress + 1 }

/-- A round of `xParsePrefixSEIsForUnknownVCLNal`. The unit stays in the queue. -/
def discardFront (seis : SeiQueue) (front : InputNALUnit) : SeiQueue :=
  { seis with
    discarded := seis.discarded ++ [front.address]
    deleted := seis.deleted ++ [front.address] }

/-- A round of `xParsePrefixSEImessages` behind the parser. -/
def parseFront (seis : SeiQueue) (front : InputNALUnit) (rest : List InputNALUnit) : SeiQueue :=
  { seis with
    prefixSEINALUs := rest
    parsed := seis.parsed ++ [front.address]
    deleted := seis.deleted ++ [front.address] }

def xParsePrefixSEIsForUnknownVCLNal : Nat → SeiQueue → Result SeiQueue
  | 0, _ => none
  | fuel + 1, seis =>
      match seis.prefixSEINALUs with
      | [] => Std.Fuelled.done (.ok seis)
      | front :: _ => xParsePrefixSEIsForUnknownVCLNal fuel (seis.discardFront front)

def xParsePrefixSEImessages (parse : InputNALUnit → Except String Unit) :
    Nat → SeiQueue → Result SeiQueue
  | 0, _ => none
  | fuel + 1, seis =>
      match seis.prefixSEINALUs with
      | [] => Std.Fuelled.done (.ok seis)
      | front :: rest =>
          match parse front with
          | .error e => Std.Fuelled.done (.error e)
          | .ok _ => xParsePrefixSEImessages parse fuel (seis.parseFront front rest)

/-- The loop of the destructor. -/
def destroy (seis : SeiQueue) : SeiQueue :=
  { seis with
    prefixSEINALUs := []
    deleted := seis.deleted ++ seis.prefixSEINALUs.map (·.address) }

end SeiQueue

end Vtm.PrefixSei

namespace Vtm.NalUnitType

/-- The reserved VCL types. -/
def isReservedVcl : NalUnitType → Bool
  | reservedVcl4 | reservedVcl5 | reservedVcl6 | reservedIrapVcl11 | reservedIrapVcl12 => true
  | _ => false

end Vtm.NalUnitType

namespace Vtm.PrefixSei

open LostPics (Nalu DecLib Slice)

namespace Decoder

/-- The constructor. -/
def init : Decoder := ⟨.init, .init⟩

def xActivateParameterSets (fuel : Nat) (dec : Decoder) (call : Call) (slice : Slice) :
    Result Decoder := do
  let seis ← dec.seis.xParsePrefixSEImessages call.parsePrefix fuel
  if dec.lib.firstSliceInPicture then return ⟨dec.lib.activateFirst call.nalu slice, seis⟩
  else return ⟨dec.lib.activateNext call.nalu slice, seis⟩

/-- `xDecodeSlice` behind the lost reference pictures. -/
def decompressSlice (fuel : Nat) (dec : Decoder) (call : Call) (slice : Slice) : Result Decoder := do
  let dec := { dec with lib.prevPOC := slice.poc }
  let dec ← dec.xActivateParameterSets fuel call slice
  let lib ← Std.Fuelled.done ((dec.lib.setCurrent call.nalu slice.poc).constructRefPicList slice)
  return { dec with
    lib := { lib with
      firstSliceInSequence := false
      firstSliceInBitstream := false
      firstSliceInPicture := false } }

/-- `xDecodeSlice` behind the check for random access. -/
def decodeRead (fuel : Nat) (seis : SeiQueue) (call : Call) (read : DecLib.Read) : Result Decoder :=
  if read.skipped then return ⟨read.lib, seis⟩
  else if read.lib.findsNewPicture call.nalu then
    return ⟨{ read.lib with prevPOC := read.poc }, seis⟩
  else do
    let slice := read.lib.pilotSlice call.nalu read.poc
    let lib ← Std.Fuelled.done (read.lib.insertLostRefs slice)
    decompressSlice fuel ⟨lib, seis⟩ call slice

def xDecodeSlice (fuel : Nat) (dec : Decoder) (call : Call) : Result (Decoder × Nat) :=
  if dec.lib.picHeaderValid = false then return (dec, call.iSkipFrame)
  else do
    let read ← Std.Fuelled.done (dec.lib.readAndSkip call.nalu call.iSkipFrame)
    let dec ← decodeRead fuel dec.seis call read
    return (dec, read.iSkipFrame)

/-- `decode` for the NAL units that are no slices. -/
@[grind =] def decodeOther (fuel : Nat) (dec : Decoder) (call : Call) : Result Decoder :=
  match call.nalu.nalUnitType with
  | .ph => return { dec with lib.picHeader := call.nalu.picHeader, lib.picHeaderValid := true }
  | .sps | .pps => return { dec with lib.first := call.nalu.first }
  | .prefixSei => return { dec with seis := dec.seis.pushBack call.nalu }
  | .suffixSei =>
      if dec.lib.pcPic.isSome then do
        Std.Fuelled.done call.parseSuffix
        return dec
      else return dec
  | .eos => return { dec with lib.pocRandomAccess := Dec.maxInt, lib.prevPOC := Dec.maxInt }
  | .reservedIrapVcl11 | .reservedIrapVcl12 => do
      let seis ← dec.seis.xParsePrefixSEIsForUnknownVCLNal fuel
      return { dec with seis }
  | .fd | .invalid => Std.Fuelled.done (.error "Invalid NAL unit type")
  | _ => return dec

def decode (fuel : Nat) (dec : Decoder) (call : Call) : Result (Decoder × Nat) :=
  if call.nalu.nalUnitType.isSlice then dec.xDecodeSlice fuel call
  else do
    let dec ← dec.decodeOther fuel call
    return (dec, call.iSkipFrame)

/-- The slice of a call is decoded: it is neither dropped, skipped nor left for the next call. -/
def DecodesSlice (dec : Decoder) (call : Call) : Prop :=
  call.nalu.nalUnitType.isSlice = true ∧ dec.lib.picHeaderValid = true ∧
    ∃ read, dec.lib.readAndSkip call.nalu call.iSkipFrame = .ok read ∧ read.skipped = false ∧
      read.lib.findsNewPicture call.nalu = false

end Decoder

/-- The calls that have been made, with the state behind them. Between two calls the application
changes the decoder, for instance with `finishPicture`, but not the queue. -/
inductive Run : List Call → Decoder → Prop where
  | start : Run [] .init
  | application {calls : List Call} {dec : Decoder} (lib : DecLib) :
      Run calls dec → Run calls { dec with lib }
  | decode {calls : List Call} {dec dec' : Decoder} {call : Call} {fuel iSkipFrame : Nat} :
      Run calls dec → dec.decode fuel call = some (.ok (dec', iSkipFrame)) →
        Run (calls ++ [call]) dec'

end Vtm.PrefixSei
