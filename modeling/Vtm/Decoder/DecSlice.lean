import Vtm.Common.SliceData

/-!
# Slice decoder

The CTU loop of `DecSlice::decompressSlice`. What the arithmetic decoder reads is
reduced to the terminating bins that were written behind each CTU; a bin that is read
where none was written, or left unread, is out of step with the writer.
-/

namespace Vtm.DecSlice

/-- The loop's state: `subStrmId`, the CTU behind which
`m_entropyCodingSyncContextState` was stored, and the slice of the coding units that are
already there. -/
structure State where
  subStrmId : Nat
  entropyCodingSyncContextState : Option Nat
  cuSlice : Nat → Option Nat

section Loop

variable (map : BrickMap) (slice : SliceArea) (numSubstreams : Nat)

/-- Whether a CTU that does not end the slice ends a substream. -/
def endsSubstream (ctuTsAddr : Nat) : Bool :=
  let ctuRsAddr := map.ctuBsToRsAddrMap ctuTsAddr
  let currentTile := map.currentTile ctuTsAddr
  let tileXPosInCtus := currentTile.firstCtuRsAddr % map.widthInCtus
  let tileYPosInCtus := currentTile.firstCtuRsAddr / map.widthInCtus
  let ctuXPosInCtus := ctuRsAddr % map.widthInCtus
  let ctuYPosInCtus := ctuRsAddr / map.widthInCtus
  ctuXPosInCtus + 1 = tileXPosInCtus + currentTile.widthInCtus ∧
    (ctuYPosInCtus + 1 = tileYPosInCtus + currentTile.heightInCtus ∨
      slice.entropyCodingSyncEnabledFlag)

/-- The bins read behind a CTU: whether it ends the slice, and whether it ends a
substream. -/
def readBins (ctuTsAddr : Nat) : List Bool → Checked (Bool × Bool)
  | [true] => .ok (true, true)
  | [false] =>
      if endsSubstream map slice ctuTsAddr then .error "Expecting a terminating bit"
      else .ok (false, false)
  | [false, true] =>
      if endsSubstream map slice ctuTsAddr then .ok (false, true)
      else .error "terminating bin left unread"
  | _ => .error "terminating bins out of step"

/-- One round of the loop. -/
def decompressCtu (state : State) (ctuTsAddr : Nat) (bins : List Bool) :
    Checked (CtuEvent × Bool × State) := do
  let ctuRsAddr := map.ctuBsToRsAddrMap ctuTsAddr
  CHECK (numSubstreams ≤ state.subStrmId) "no such substream"
  let (isLastCtuOfSliceSegment, ends) ← readBins map slice ctuTsAddr bins
  let event : CtuEvent :=
    { ctuRsAddr := ctuRsAddr
      subStrm := state.subStrmId
      resetsCtx := (map.startsTile ctuTsAddr ∨ map.startsWavefront slice ctuTsAddr) ∧
        ctuTsAddr ≠ slice.startCtuTsAddr
      copiesCtx := map.copiesCtx slice state.cuSlice state.entropyCodingSyncContextState ctuTsAddr
      storesCtx := map.startsWavefront slice ctuTsAddr
      endsSubstream := ends
      resetsPrevQP := ctuTsAddr = slice.startCtuTsAddr ∨ map.startsTile ctuTsAddr ∨
        map.startsWavefront slice ctuTsAddr }
  return (event, isLastCtuOfSliceSegment,
    { subStrmId := if ends then state.subStrmId + 1 else state.subStrmId
      entropyCodingSyncContextState :=
        if map.startsWavefront slice ctuTsAddr then some ctuRsAddr
        else state.entropyCodingSyncContextState
      cuSlice := Function.update state.cuSlice ctuRsAddr (some slice.independentSliceIdx) })

/-- The loop over addresses in brick scan: it ends with the last CTU of the slice. -/
def decompressCtus : List Nat → State → List (List Bool) → Checked (List CtuEvent)
  | [], _, _ => .error "Last CTU of slice segment not signalled as such"
  | ctuTsAddr :: rest, state, bins =>
      if map.skips slice ctuTsAddr then decompressCtus rest state bins
      else
        match bins with
        | [] => .error "no bins left"
        | ctuBins :: bins => do
            let (event, isLastCtuOfSliceSegment, state) ←
              decompressCtu map slice numSubstreams state ctuTsAddr ctuBins
            if isLastCtuOfSliceSegment then return [event]
            else
              let events ← decompressCtus rest state bins
              return event :: events

/-- `decompressSlice`. `cuSlice` and `stored` are what the earlier slices left. -/
def decompressSlice (numberOfSubstreamSizes : Nat) (cuSlice : Nat → Option Nat)
    (stored : Option Nat) (bins : List (List Bool)) : Checked (List CtuEvent) :=
  decompressCtus map slice (numberOfSubstreamSizes + 1)
    (List.range' slice.startCtuTsAddr (map.sizeInCtus - slice.startCtuTsAddr))
    ⟨0, stored, cuSlice⟩ bins

end Loop

end Vtm.DecSlice
