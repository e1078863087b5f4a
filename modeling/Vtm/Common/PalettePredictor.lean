import Vtm.Common.Palette
import Vtm.Std.CheckedArray

/-!
# The palette predictor

`reorderPrevPLT`. Palettes are arrays by component, and their sizes by channel type; the
component of a channel type stands for it. Every access is checked against the size of its array.
-/

namespace Vtm.PLT

open Vtm.Std (CheckedArray memcpy)
open Function (update)

structure PLTBuf where
  curPLTSize : Nat → Nat
  curPLT : Nat → CheckedArray Int

/-- The palette of a coding unit, and the entries of the predictor that it reuses. -/
structure Palette where
  curPLTSize : Nat → Nat
  curPLT : Nat → CheckedArray Int
  reuseflag : Nat → CheckedArray Bool

/-- The local arrays. -/
structure Stuffing where
  stuffedPLT : Nat → CheckedArray Int
  tempCurPLTsize : Nat → Nat
  stuffPLTsize : Nat → Nat

/-- The components that are processed. -/
structure Components where
  compBegin : Nat
  numComp : Nat
  jointPLT : Bool

/-- The components of a coding unit by its tree. -/
def componentsOf (isSepTree isLuma : Bool) : Components :=
  if isSepTree then if isLuma then ⟨0, 1, false⟩ else ⟨1, 2, false⟩ else ⟨0, 3, true⟩

namespace Components

variable (comps : Components)

def comID (i : Nat) : Nat := if comps.jointPLT then comps.compBegin else if i > 0 then 1 else 0

def range : List Nat := List.range' comps.compBegin comps.numComp

end Components

section

variable (prevPLT : PLTBuf) (cu : Palette) (comps : Components)

/-- A round of the loop that copies the current palette. -/
def loadPLT (s : Stuffing) (i : Nat) : Except String Stuffing := do
  let comID := comps.comID i
  let stuffed ← memcpy (s.stuffedPLT i) (cu.curPLT i) (cu.curPLTSize comID)
  return {
    stuffedPLT := update s.stuffedPLT i stuffed
    tempCurPLTsize := update s.tempCurPLTsize comID (cu.curPLTSize comID)
    stuffPLTsize := update s.stuffPLTsize i 0 }

/-- `stuffedPLT[comp][pos] = prevPLT.curPLT[comp][i]`. -/
def stuffEntry (pos i : Nat) (stuffedPLT : Nat → CheckedArray Int) (comp : Nat) :
    Except String (Nat → CheckedArray Int) := do
  let v ← (prevPLT.curPLT comp).get i
  let stuffed ← (stuffedPLT comp).set pos v
  return update stuffedPLT comp stuffed

/-- The components that are stuffed together. -/
def stuffedComponents (ch : Nat) : List Nat := if ch = 0 then [0] else [1, 2]

/-- The loop over the entries of the predictor from `i` on, `left` of them. -/
def stuffLoop (ch : Nat) : (left i : Nat) → Stuffing → Except String Stuffing
  | 0, _, s => .ok s
  | left + 1, i, s =>
      let comID := comps.comID ch
      if s.tempCurPLTsize comID + s.stuffPLTsize ch ≥ MAXPLTPREDSIZE then .ok s
      else do
        let reused ← (cu.reuseflag comID).get i
        if reused then stuffLoop ch left (i + 1) s
        else
          let stuffed ← (stuffedComponents ch).foldlM
            (stuffEntry prevPLT (s.tempCurPLTsize comID + s.stuffPLTsize ch) i) s.stuffedPLT
          stuffLoop ch left (i + 1)
            { s with
              stuffedPLT := stuffed
              stuffPLTsize := update s.stuffPLTsize ch ((s.stuffPLTsize ch + 1) % 2 ^ 8) }

/-- A round of the loop that stuffs the entries that are not reused. -/
def stuffPLT (s : Stuffing) (ch : Nat) : Except String Stuffing :=
  stuffLoop prevPLT cu comps ch (prevPLT.curPLTSize (comps.comID ch)) 0 s

/-- A round of the loop that stores the predictor. -/
def storePLT (s : Stuffing) (prevPLT : PLTBuf) (i : Nat) : Except String PLTBuf := do
  let comID := comps.comID i
  let size := (cu.curPLTSize comID + s.stuffPLTsize comID) % 2 ^ 8
  let stored ← memcpy (prevPLT.curPLT i) (s.stuffedPLT i) size
  return {
    curPLTSize := update prevPLT.curPLTSize comID size
    curPLT := update prevPLT.curPLT i stored }

/-- `reorderPrevPLT`. `s` is what the local arrays hold at first; the second loop ends
behind the first chroma component. -/
def reorderPrevPLT (s : Stuffing) : Except String PLTBuf := do
  let s ← comps.range.foldlM (loadPLT cu comps) s
  let s ← (comps.range.takeWhile (· ≤ 1)).foldlM (stuffPLT prevPLT cu comps) s
  comps.range.foldlM (storePLT cu comps s) prevPLT

end

end Vtm.PLT
