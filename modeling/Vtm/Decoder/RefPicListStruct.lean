import Vtm.Common.RefPicListStruct
import Vtm.Decoder.VLCReader

/-!
# Reading reference picture list structures

`parseRefPicList` and `copyRefPicList`, and the candidate lists in `parseSPS`.
-/

namespace Vtm.RefPics

open Vtm.Std Vtm.VLCReader

/-- `copyRefPicList`. The number of long-term pictures is that of the destination. -/
def copyRefPicList (sps : RplSPS) (source_rpl dest_rp : RefPicListStruct) : RefPicListStruct :=
  let dest_rp :=
    { dest_rp with numberOfShorttermPictures := source_rpl.numberOfShorttermPictures }
  let dest_rp :=
    if sps.longTermRefsPresent then
      { dest_rp with numberOfLongtermPictures := dest_rp.numberOfLongtermPictures }
    else { dest_rp with numberOfLongtermPictures := 0 }
  let numRefPic := dest_rp.numberOfShorttermPictures + dest_rp.numberOfLongtermPictures
  (List.range numRefPic).foldl (fun dest_rp ii => dest_rp.setRefPicIdentifier ii
    (source_rpl.refPicIdentifier ii) (source_rpl.isRefPicLongterm ii)) dest_rp

/-- The locals of `parseRefPicList` and its list; `prevDelta` is `none` before the first
short-term entry. -/
structure ParsedEntries where
  prevDelta : Option Int
  numStrp : Nat
  numLtrp : Nat
  rpl : RefPicListStruct

/-- The difference of a short-term entry in `parseRefPicList`. -/
def parseShortTerm (sps : RplSPS) : BitReader Int := do
  let code ← xReadUvlc
  let readValue := if !sps.useWP && !sps.useWPBiPred then code + 1 else code
  if readValue > 0 then
    let code ← xReadBool
    return if code then (readValue : Int) else 0 - (readValue : Int)
  else return (readValue : Int)

/-- `isLongTerm` of an entry in `parseRefPicList`. -/
def parseIsLongTerm (sps : RplSPS) : BitReader Bool :=
  if sps.longTermRefsPresent then do
    let code ← xReadFlag
    return !(code == 1)
  else return false

/-- The LSBs of a long-term entry in `parseRefPicList`; otherwise the code read last, which
said that the entry is no short-term one. -/
def parseLongTerm (sps : RplSPS) (rpl : RefPicListStruct) : BitReader Nat :=
  if ¬ rpl.ltrpInSliceHeaderFlag then xReadCode sps.bitsForPOC else return 0

/-- A round of the loop in `parseRefPicList`. -/
def parseRefPicEntry (sps : RplSPS) (entries : ParsedEntries) (ii : Nat) :
    BitReader ParsedEntries := do
  let isLongTerm ← parseIsLongTerm sps
  if ¬ isLongTerm then
    let readValue ← parseShortTerm sps
    let deltaValue := entries.prevDelta.getD 0 + readValue
    return {
      prevDelta := some deltaValue
      numStrp := entries.numStrp + 1
      numLtrp := entries.numLtrp
      rpl := entries.rpl.setRefPicIdentifier ii deltaValue isLongTerm }
  else
    let code ← parseLongTerm sps entries.rpl
    return {
      prevDelta := entries.prevDelta
      numStrp := entries.numStrp
      numLtrp := entries.numLtrp + 1
      rpl := entries.rpl.setRefPicIdentifier ii code isLongTerm }

/-- `ltrp_in_slice_header_flag` in `parseRefPicList`. -/
def parseLtrpInSliceHeaderFlag (sps : RplSPS) (rpl : RefPicListStruct) :
    BitReader RefPicListStruct :=
  if sps.longTermRefsPresent then do
    let code ← xReadBool
    return { rpl with ltrpInSliceHeaderFlag := code }
  else return rpl

def parseRefPicList (sps : RplSPS) (rpl : RefPicListStruct) : BitReader RefPicListStruct := do
  let numRefPic ← xReadUvlc
  let rpl ← parseLtrpInSliceHeaderFlag sps rpl
  let entries ← (List.range' 0 numRefPic).foldlM (parseRefPicEntry sps) ⟨none, 0, 0, rpl⟩
  return { entries.rpl with
    numberOfShorttermPictures := entries.numStrp
    numberOfLongtermPictures := entries.numLtrp }

/-- The candidates for one list in `parseSPS`. -/
def parseCandidates (sps : RplSPS) : BitReader (List RefPicListStruct) := do
  let numberOfRPL ← xReadUvlc
  (List.range numberOfRPL).foldlM
    (fun rplList _ => do return rplList ++ [← parseRefPicList sps .empty]) []

/-- The candidate lists in `parseSPS`, where the weighted prediction flags and the number of
POC bits have been read. -/
def parseSPSRefPicLists (sps : RplSPS) : BitReader RplSPS := do
  let longTermRefsPresent ← xReadBool
  let sps := { sps with longTermRefsPresent := longTermRefsPresent }
  let rpl1CopyFromRPL0Flag ← xReadBool
  let sps := { sps with rpl1CopyFromRPL0Flag := rpl1CopyFromRPL0Flag }
  let rplList0 ← parseCandidates sps
  let sps := { sps with rplList0 := rplList0 }
  if ¬ sps.rpl1CopyFromRPL0Flag then
    let rplList1 ← parseCandidates sps
    return { sps with rplList1 := rplList1 }
  else
    return { sps with rplList1 := sps.rplList0.map fun rpl => copyRefPicList sps rpl .empty }

end Vtm.RefPics
