import Vtm.Decoder.VLCReader

/-!
# Slice header: the picture order count

The beginning of `parseSliceHeader`, and `parseSliceHeaderToPoc`, which reads the
same syntax element ahead of it to detect a new picture. The source spells the
derivation out in both; so does the model. An `int` of the source is an `Int32`,
with its wrap-around and its masks.
-/

namespace Vtm.SliceHeader

open Vtm.Std Vtm.VLCReader

/-- What the two functions use of a picture header. -/
structure PocPicHeader where
  isValid : Bool
  ppsId : Nat
deriving DecidableEq, Repr

structure PocPPS where
  spsId : Nat
deriving DecidableEq, Repr

structure PocSPS where
  bitsForPOC : Nat
deriving DecidableEq, Repr

/-- The parameter sets received so far, by their ids. -/
structure PocParameterSets where
  getPPS : Nat → Option PocPPS
  getSPS : Nat → Option PocSPS

/-- A `CHECK` on a missing object. -/
def invalid {α : Type} (message : String) : BitReader α :=
  fun _ => .error message

/-- `parseSliceHeader` up to its first `setPOC`; the result is the POC set. -/
def parseSliceHeaderPoc (idrPicFlag : Bool) (picHeader : Option PocPicHeader)
    (parameterSetManager : PocParameterSets) (prevTid0POC : Int32) : BitReader Int32 := do
  match picHeader with
  | none => invalid "Invalid Picture Header"
  | some picHeader =>
      check (picHeader.isValid = false) "Invalid Picture Header"
      match parameterSetManager.getPPS picHeader.ppsId with
      | none => invalid "Invalid PPS"
      | some pps =>
          match parameterSetManager.getSPS pps.spsId with
          | none => invalid "Invalid SPS"
          | some sps =>
              let uiCode ← xReadCode sps.bitsForPOC
              if idrPicFlag then return Int32.ofNat uiCode
              else
                let iPOClsb := Int32.ofNat uiCode
                let iPrevPOC := prevTid0POC
                let iMaxPOClsb := (1 : Int32) <<< Int32.ofNat sps.bitsForPOC
                let iPrevPOClsb := iPrevPOC &&& (iMaxPOClsb - 1)
                let iPrevPOCmsb := iPrevPOC - iPrevPOClsb
                let iPOCmsb :=
                  if iPOClsb < iPrevPOClsb ∧ iPrevPOClsb - iPOClsb ≥ iMaxPOClsb / 2 then
                    iPrevPOCmsb + iMaxPOClsb
                  else if iPOClsb > iPrevPOClsb ∧ iPOClsb - iPrevPOClsb > iMaxPOClsb / 2 then
                    iPrevPOCmsb - iMaxPOClsb
                  else iPrevPOCmsb
                return iPOCmsb + iPOClsb

def parseSliceHeaderToPoc (idrPicFlag : Bool) (picHeader : Option PocPicHeader)
    (parameterSetManager : PocParameterSets) (prevTid0POC : Int32) : BitReader Int32 := do
  match picHeader with
  | none => invalid "Invalid Picture Header"
  | some picHeader =>
      check (picHeader.isValid = false) "Invalid Picture Header"
      match parameterSetManager.getPPS picHeader.ppsId with
      | none => invalid "Invalid PPS"
      | some pps =>
          match parameterSetManager.getSPS pps.spsId with
          | none => invalid "Invalid SPS"
          | some sps =>
              let uiCode ← xReadCode sps.bitsForPOC
              if idrPicFlag then return Int32.ofNat uiCode
              else
                let iPOClsb := Int32.ofNat uiCode
                let iPrevPOC := prevTid0POC
                let iMaxPOClsb := (1 : Int32) <<< Int32.ofNat sps.bitsForPOC
                let iPrevPOClsb := iPrevPOC &&& (iMaxPOClsb - 1)
                let iPrevPOCmsb := iPrevPOC - iPrevPOClsb
                let iPOCmsb :=
                  if iPOClsb < iPrevPOClsb ∧ iPrevPOClsb - iPOClsb ≥ iMaxPOClsb / 2 then
                    iPrevPOCmsb + iMaxPOClsb
                  else if iPOClsb > iPrevPOClsb ∧ iPOClsb - iPrevPOClsb > iMaxPOClsb / 2 then
                    iPrevPOCmsb - iMaxPOClsb
                  else iPrevPOCmsb
                return iPOCmsb + iPOClsb

end Vtm.SliceHeader
