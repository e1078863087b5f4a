import Vtm.Common.SliceData

/-!
# Slice encoder

The CTU loop of `EncSlice::encodeSlice`.
-/

namespace Vtm.EncSlice

/-- The loop's state: `uiSubStrm`, the CTU behind which
`m_entropyCodingSyncContextState` was stored, and the number of substream sizes added
to the slice. -/
structure State where
  uiSubStrm : Nat
  entropyCodingSyncContextState : Option Nat
  numberOfSubstreamSizes : Nat
deriving DecidableEq, Repr

section Loop

variable (map : BrickMap) (slice : SliceArea) (cuSlice : Nat → Option Nat)

/-- Whether the substream is terminated behind a CTU. -/
def endsSubstream (ctuTsAddr : Nat) : Bool :=
  let ctuRsAddr := map.ctuBsToRsAddrMap ctuTsAddr
  let tileXPosInCtus := (map.currentTile ctuTsAddr).firstCtuRsAddr % map.widthInCtus
  let isLastCTUinBrick := map.brickIdxBsMap ctuTsAddr ≠ map.brickIdxBsMap (ctuTsAddr + 1)
  let isLastCTUinWPP := slice.entropyCodingSyncEnabledFlag ∧
    (ctuRsAddr + 1) % map.widthInCtus = tileXPosInCtus
  let isMoreCTUsinSlice := ctuRsAddr ≠ map.ctuBsToRsAddrMap (slice.endCtuTsAddr - 1)
  isLastCTUinBrick ∨ isLastCTUinWPP ∨ ¬ isMoreCTUsinSlice

/-- The terminating bins of a CTU: `end_of_ctu` writes a 0 unless the slice ends with
the CTU, and `end_of_slice` a 1. -/
def terminatingBins (ctuTsAddr : Nat) : List Bool :=
  (if slice.endCtuTsAddr ≠ ctuTsAddr + 1 then [false] else []) ++
    if endsSubstream map slice ctuTsAddr then [true] else []

/-- One round of the loop. `m_prevQP` is only set in front of it. -/
def encodeCtu (state : State) (ctuTsAddr : Nat) : CtuEvent × State :=
  let ctuRsAddr := map.ctuBsToRsAddrMap ctuTsAddr
  let isMoreCTUsinSlice := ctuRsAddr ≠ map.ctuBsToRsAddrMap (slice.endCtuTsAddr - 1)
  let ends := endsSubstream map slice ctuTsAddr
  let event : CtuEvent :=
    { ctuRsAddr := ctuRsAddr
      subStrm := state.uiSubStrm
      resetsCtx := (map.startsTile ctuTsAddr ∨ map.startsWavefront slice ctuTsAddr) ∧
        ctuTsAddr ≠ slice.startCtuTsAddr
      copiesCtx := map.copiesCtx slice cuSlice state.entropyCodingSyncContextState ctuTsAddr
      storesCtx := map.startsWavefront slice ctuTsAddr
      endsSubstream := ends
      resetsPrevQP := ctuTsAddr = slice.startCtuTsAddr }
  (event,
    { uiSubStrm := if ends then state.uiSubStrm + 1 else state.uiSubStrm
      entropyCodingSyncContextState :=
        if map.startsWavefront slice ctuTsAddr then some ctuRsAddr
        else state.entropyCodingSyncContextState
      numberOfSubstreamSizes :=
        if ends ∧ isMoreCTUsinSlice then state.numberOfSubstreamSizes + 1
        else state.numberOfSubstreamSizes })

/-- The loop over addresses in brick scan, with the terminating bins of each CTU. -/
@[grind =] def encodeCtus : List Nat → State → List (CtuEvent × List Bool) × State
  | [], state => ([], state)
  | ctuTsAddr :: rest, state =>
      if map.skips slice ctuTsAddr then encodeCtus rest state
      else
        let (event, state) := encodeCtu map slice cuSlice state ctuTsAddr
        let (events, state) := encodeCtus rest state
        ((event, terminatingBins map slice ctuTsAddr) :: events, state)

/-- `encodeSlice`. The coding units of the picture are those of its compression;
`stored` is what an earlier slice left. -/
def encodeSlice (stored : Option Nat) : List (CtuEvent × List Bool) × State :=
  encodeCtus map slice cuSlice
    (List.range' slice.startCtuTsAddr (slice.endCtuTsAddr - slice.startCtuTsAddr)) ⟨0, stored, 0⟩

end Loop

end Vtm.EncSlice
