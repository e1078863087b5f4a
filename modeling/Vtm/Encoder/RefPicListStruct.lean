import Vtm.Common.RefPicListStruct
import Vtm.Encoder.VLCWriter

/-!
# Writing reference picture list structures

`xCodeRefPicList`, and the candidate lists in `codeSPS`. A short-term entry is coded
relative to the short-term entry before it; `prevDelta` is `none` before the first one.
-/

namespace Vtm.RefPics

open Vtm.Std Vtm.VLCWriter

/-- The absolute value of a difference in `xCodeRefPicList`. -/
def xCodeAbsDelta (isForbiddenZeroDeltaPoc : Bool) (absDeltaValue : Nat) : BitWriter Unit :=
  if isForbiddenZeroDeltaPoc then do
    check (absDeltaValue = 0) "Zero delta POC is not used without WP"
    xWriteUvlc (absDeltaValue - 1)
  else xWriteUvlc absDeltaValue

/-- A short-term entry in `xCodeRefPicList`. -/
def xCodeShortTerm (isForbiddenZeroDeltaPoc : Bool) (deltaValue : Int) : BitWriter Unit := do
  xCodeAbsDelta isForbiddenZeroDeltaPoc deltaValue.natAbs
  if deltaValue.natAbs > 0 then xWriteBool (¬ deltaValue < 0)

/-- A long-term entry in `xCodeRefPicList`. -/
def xCodeLongTerm (rpl : RefPicListStruct) (ltLsbBitsCount ii : Nat) : BitWriter Unit :=
  if ¬ rpl.ltrpInSliceHeaderFlag then
    xWriteCode (rpl.refPicIdentifier ii % 2 ^ 32).toNat ltLsbBitsCount
  else pure ()

/-- A flag that is written only when long-term pictures may occur. -/
def xCodeLongTermFlag (isLongTermPresent flag : Bool) : BitWriter Unit :=
  if isLongTermPresent then xWriteBool flag else pure ()

/-- A round of the loop in `xCodeRefPicList`; returns `prevDelta`. -/
def xCodeRefPicEntry (rpl : RefPicListStruct) (isLongTermPresent : Bool) (ltLsbBitsCount : Nat)
    (isForbiddenZeroDeltaPoc : Bool) (prevDelta : Option Int) (ii : Nat) :
    BitWriter (Option Int) := do
  xCodeLongTermFlag isLongTermPresent (!rpl.isRefPicLongterm ii)
  if ¬ rpl.isRefPicLongterm ii then
    xCodeShortTerm isForbiddenZeroDeltaPoc (rpl.refPicIdentifier ii - prevDelta.getD 0)
    return some (rpl.refPicIdentifier ii)
  else
    xCodeLongTerm rpl ltLsbBitsCount ii
    return prevDelta

def xCodeRefPicList (rpl : RefPicListStruct) (isLongTermPresent : Bool) (ltLsbBitsCount : Nat)
    (isForbiddenZeroDeltaPoc : Bool) : BitWriter Unit := do
  let numRefPic := rpl.numberOfShorttermPictures + rpl.numberOfLongtermPictures
  xWriteUvlc numRefPic
  xCodeLongTermFlag isLongTermPresent rpl.ltrpInSliceHeaderFlag
  let _ ← (List.range' 0 numRefPic).foldlM
    (xCodeRefPicEntry rpl isLongTermPresent ltLsbBitsCount isForbiddenZeroDeltaPoc) none
  return ()

/-- The candidates for one list in `codeSPS`. -/
def codeCandidates (sps : RplSPS) (rplList : List RefPicListStruct) : BitWriter Unit := do
  xWriteUvlc rplList.length
  rplList.foldlM (fun _ rpl => xCodeRefPicList rpl sps.longTermRefsPresent sps.bitsForPOC
    sps.isForbiddenZeroDeltaPoc) ()

/-- The candidate lists in `codeSPS`. -/
def codeSPSRefPicLists (sps : RplSPS) : BitWriter Unit := do
  xWriteBool sps.longTermRefsPresent
  xWriteBool sps.rpl1CopyFromRPL0Flag
  codeCandidates sps sps.rplList0
  if ¬ sps.rpl1CopyFromRPL0Flag then codeCandidates sps sps.rplList1

end Vtm.RefPics
