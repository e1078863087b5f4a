import Vtm.Common.BitStream

/-!
# Reference picture lists

`Slice::checkThatAllRefPicsAreAvailable` and `Slice::constructRefPicList` over the
decoded picture buffer. Pictures are named by their place in the buffer. The check
masks a POC with the bits of each picture's own parameter set, the construction with
those of the slice's.
-/

namespace Vtm.RefPics

open Vtm.Std

/-- `Picture`, as far as the reference picture lists use it. -/
@[ext] structure Picture where
  poc : Int
  layerId : Nat
  referenced : Bool
  longTerm : Bool
  /-- `cs->sps->getBitsForPOC()`. -/
  bitsForPOC : Nat
deriving DecidableEq, Repr

inductive RefPicList where
  | REF_PIC_LIST_0
  | REF_PIC_LIST_1
deriving DecidableEq, Repr

structure ReferencePictureList where
  numberOfShorttermPictures : Nat
  numberOfLongtermPictures : Nat
  isRefPicLongterm : Nat → Bool
  refPicIdentifier : Nat → Int
  deltaPocMSBPresentFlag : Nat → Bool
  deltaPocMSBCycleLT : Nat → Int

inductive SliceType where
  | B_SLICE
  | P_SLICE
  | I_SLICE
deriving DecidableEq, Repr

/-- `Slice`, as far as the reference picture lists use it. -/
structure Slice where
  poc : Int
  layerId : Nat
  isIDRorBLA : Bool
  sliceType : SliceType
  bitsForPOC : Nat
  rpl : RefPicList → ReferencePictureList
  localRPL : RefPicList → ReferencePictureList
  numRefIdx : RefPicList → Nat

/-- `poc & (pocCycle - 1)`. -/
@[grind =] def pocLsb (bitsForPOC : Nat) (poc : Int) : Int := poc % 2 ^ bitsForPOC

/-- A referenced picture with the LSBs of an identifier. -/
def matchesLsb (identifier : Int) (pic : Picture) : Bool :=
  pocLsb pic.bitsForPOC pic.poc = pocLsb pic.bitsForPOC identifier ∧ pic.referenced

/-- The search for a long-term entry: the first long-term picture that matches, or
else the first short-term one, which is then marked. -/
@[grind =] def longTermAvailable (identifier : Int) (dpb : List Picture) : Option (Nat × List Picture) :=
  match dpb.findIdx? fun pic => pic.longTerm && matchesLsb identifier pic with
  | some i => some (i, dpb)
  | none =>
      match dpb.findIdx? fun pic => !pic.longTerm && matchesLsb identifier pic with
      | some i => some (i, dpb.modify i fun pic => { pic with longTerm := true })
      | none => none

/-- The loop over the long-term entries: what it returns early, and the buffer. -/
def checkLongTerm (rpl : ReferencePictureList) :
    List Nat → List Picture → Option Int × List Picture
  | [], dpb => (none, dpb)
  | ii :: rest, dpb =>
      if rpl.isRefPicLongterm ii then
        match longTermAvailable (rpl.refPicIdentifier ii) dpb with
        | some (_, dpb) => checkLongTerm rpl rest dpb
        | none => (some (rpl.refPicIdentifier ii), dpb)
      else checkLongTerm rpl rest dpb

/-- The search for a short-term entry. -/
def shortTermAvailable (poc : Int) (dpb : List Picture) : Bool :=
  dpb.any fun pic => !pic.longTerm && pic.poc = poc && pic.referenced

/-- The loop over the short-term entries: what it returns early. -/
def checkShortTerm (slice : Slice) (rpl : ReferencePictureList) (dpb : List Picture) :
    List Nat → Option Int
  | [] => none
  | ii :: rest =>
      if rpl.isRefPicLongterm ii then checkShortTerm slice rpl dpb rest
      else if ¬ shortTermAvailable (slice.poc - rpl.refPicIdentifier ii) dpb ∧
          rpl.numberOfShorttermPictures > 0 then
        some (slice.poc - rpl.refPicIdentifier ii)
      else checkShortTerm slice rpl dpb rest

/-- `checkThatAllRefPicsAreAvailable`: its value, and the buffer with its marks. A
list is accepted when the value is 0. -/
def checkThatAllRefPicsAreAvailable (slice : Slice) (rpl : ReferencePictureList)
    (dpb : List Picture) : Int × List Picture :=
  if slice.isIDRorBLA then (0, dpb)
  else
    let entries := List.range (rpl.numberOfLongtermPictures + rpl.numberOfShorttermPictures)
    match checkLongTerm rpl
        (if rpl.numberOfLongtermPictures > 0 then entries else []) dpb with
    | (some notPresentPoc, dpb) => (notPresentPoc, dpb)
    | (none, dpb) => ((checkShortTerm slice rpl dpb entries).getD 0, dpb)

/-- `xGetRefPic`. Behind the last picture it reads through the end of the list. -/
def xGetRefPic (dpb : List Picture) (poc : Int) (layerId : Nat) : Checked Nat :=
  match dpb.findIdx? fun pic => pic.poc = poc ∧ pic.layerId = layerId with
  | some i => .ok i
  | none => .error "rcListPic.end() is dereferenced"

/-- A picture that `xGetLongTermRefPic` stops at. -/
def isLongTermRef (slice : Slice) (poc : Int) (pocHasMsb : Bool) (pic : Picture) : Bool :=
  (pic.poc ≠ slice.poc ∧ pic.referenced ∧ pic.layerId = slice.layerId) ∧
    poc = if pocHasMsb then pic.poc else pocLsb slice.bitsForPOC pic.poc

/-- The loop of `xGetLongTermRefPic` from the `i`-th picture on: whether the first
match is a long-term picture or not, the loop ends with it. -/
def longTermLoop (slice : Slice) (poc : Int) (pocHasMsb : Bool) (pcStPic : Nat) :
    Nat → List Picture → Nat
  | _, [] => pcStPic
  | i, pic :: rest =>
      if isLongTermRef slice poc pocHasMsb pic then
        if pic.longTerm then i
        else
          let pcStPic := i
          pcStPic
      else longTermLoop slice poc pocHasMsb pcStPic (i + 1) rest

def xGetLongTermRefPic (slice : Slice) (dpb : List Picture) (poc : Int) (pocHasMsb : Bool) :
    Checked Nat :=
  match dpb with
  | [] => .error "rcListPic.end() is dereferenced"
  | _ :: _ =>
      let poc := if pocHasMsb then poc else pocLsb slice.bitsForPOC poc
      .ok (longTermLoop slice poc pocHasMsb 0 0 dpb)

/-- The picture of an active entry. -/
def refPicOf (slice : Slice) (X : RefPicList) (dpb : List Picture) (ii : Nat) : Checked Nat :=
  if (slice.rpl X).isRefPicLongterm ii then
    let ltrpPoc := pocLsb slice.bitsForPOC ((slice.rpl X).refPicIdentifier ii) +
      if (slice.localRPL X).deltaPocMSBPresentFlag ii then
        2 ^ slice.bitsForPOC * (slice.localRPL X).deltaPocMSBCycleLT ii
      else 0
    xGetLongTermRefPic slice dpb ltrpPoc ((slice.localRPL X).deltaPocMSBPresentFlag ii)
  else xGetRefPic dpb (slice.poc - (slice.rpl X).refPicIdentifier ii) slice.layerId

/-- The entries of a list from `ii` on: the pictures with their use as long-term
reference, and the buffer with its marks. -/
def constructEntries (slice : Slice) (X : RefPicList) :
    List Nat → List Picture → Checked (List (Nat × Bool) × List Picture)
  | [], dpb => return ([], dpb)
  | ii :: rest, dpb => do
      let pcRefPic ← refPicOf slice X dpb ii
      let longTerm := (slice.rpl X).isRefPicLongterm ii
      let dpb := dpb.modify pcRefPic fun pic => { pic with longTerm := longTerm }
      let (refPics, dpb) ← constructEntries slice X rest dpb
      return ((pcRefPic, longTerm) :: refPics, dpb)

/-- `constructRefPicList`: `m_apcRefPicList` with `m_bIsUsedAsLongTerm` for both
lists, and the buffer with its marks. -/
def constructRefPicList (slice : Slice) (dpb : List Picture) :
    Checked ((List (Nat × Bool) × List (Nat × Bool)) × List Picture) :=
  if slice.sliceType = .I_SLICE then return (([], []), dpb)
  else do
    let (list0, dpb) ← constructEntries slice .REF_PIC_LIST_0
      (List.range (slice.numRefIdx .REF_PIC_LIST_0)) dpb
    let (list1, dpb) ← constructEntries slice .REF_PIC_LIST_1
      (List.range (slice.numRefIdx .REF_PIC_LIST_1)) dpb
    return ((list0, list1), dpb)

end Vtm.RefPics
