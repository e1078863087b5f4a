import Vtm.Common.BrickMap
import Vtm.Common.BitStream

/-!
# Slice data

What `EncSlice::encodeSlice` and `DecSlice::decompressSlice` share: the slice they
walk through and what they do around each CTU. Contexts are named by the CTU they
come from.
-/

namespace Vtm

/-- The members of `Slice` and its PPS that the walk through a slice reads. -/
structure SliceArea where
  startCtuTsAddr : Nat
  endCtuTsAddr : Nat
  independentSliceIdx : Nat
  rectSliceFlag : Bool
  entropyCodingSyncEnabledFlag : Bool
deriving DecidableEq, Repr

/-- What happens around one CTU. -/
structure CtuEvent where
  ctuRsAddr : Nat
  /-- The substream of the CTU. -/
  subStrm : Nat
  /-- `initCtxModels` and `resetPrevPLT` before the CTU. -/
  resetsCtx : Bool
  /-- The CTU whose stored contexts replace the current ones before the CTU. -/
  copiesCtx : Option (Option Nat)
  /-- The contexts are stored behind the CTU. -/
  storesCtx : Bool
  /-- The substream ends behind the CTU. -/
  endsSubstream : Bool
  /-- `m_prevQP` is set to the slice QP before the CTU. -/
  resetsPrevQP : Bool
deriving DecidableEq, Repr

namespace BrickMap

variable (map : BrickMap) (slice : SliceArea)

/-- The `continue` of both loops: a CTU outside the rectangle of a slice. -/
@[grind =] def skips (ctuTsAddr : Nat) : Bool :=
  let ctuRsAddr := map.ctuBsToRsAddrMap ctuTsAddr
  let first := map.ctuBsToRsAddrMap slice.startCtuTsAddr
  let last := map.ctuBsToRsAddrMap (slice.endCtuTsAddr - 1)
  slice.rectSliceFlag &&
    (ctuRsAddr / map.widthInCtus < first / map.widthInCtus ||
      ctuRsAddr / map.widthInCtus > last / map.widthInCtus ||
      ctuRsAddr % map.widthInCtus < first % map.widthInCtus ||
      ctuRsAddr % map.widthInCtus > last % map.widthInCtus)

/-- `getCURestricted` for the luma sample above a CTU, where `cuSlice` is the slice of
the coding units in a CTU that has any. -/
def topAvailable (cuSlice : Nat → Option Nat) (ctuRsAddr : Nat) : Bool :=
  map.widthInCtus ≤ ctuRsAddr &&
    cuSlice (ctuRsAddr - map.widthInCtus) = some slice.independentSliceIdx &&
    map.brickIdxRsMap (ctuRsAddr - map.widthInCtus) = map.brickIdxRsMap ctuRsAddr

/-- `currentTile` of both loops: the brick of a CTU. -/
@[grind =] def currentTile (ctuTsAddr : Nat) : Brick :=
  map.bricks.getD (map.brickIdxRsMap (map.ctuBsToRsAddrMap ctuTsAddr)) default

/-- `ctuRsAddr == firstCtuRsAddrOfTile`. -/
def startsTile (ctuTsAddr : Nat) : Bool :=
  map.ctuBsToRsAddrMap ctuTsAddr = (map.currentTile ctuTsAddr).firstCtuRsAddr

/-- `ctuXPosInCtus == tileXPosInCtus && wavefrontsEnabled`. -/
def startsWavefront (ctuTsAddr : Nat) : Bool :=
  map.ctuBsToRsAddrMap ctuTsAddr % map.widthInCtus =
      (map.currentTile ctuTsAddr).firstCtuRsAddr % map.widthInCtus ∧
    slice.entropyCodingSyncEnabledFlag

/-- The contexts of a CTU are copied from `stored` when the CTU above is available. -/
def copiesCtx (cuSlice : Nat → Option Nat) (stored : Option Nat) (ctuTsAddr : Nat) :
    Option (Option Nat) :=
  if ¬ map.startsTile ctuTsAddr ∧ map.startsWavefront slice ctuTsAddr ∧
      map.topAvailable slice cuSlice (map.ctuBsToRsAddrMap ctuTsAddr) then some stored
  else none

end BrickMap
end Vtm
